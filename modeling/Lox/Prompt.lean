import Lox.Prompt.Directive
import Lox.Session

/-! The prompt: lines that are answered one after another. -/

namespace Lox

inductive Way where
  | run | answer
  deriving Repr, DecidableEq

abbrev Stack := Way → Session → String → Failure → String

def Stack.unknown : Stack := fun _ _ _ _ => ""

/-- What a process keeps beside its session, whatever becomes of that. -/
structure Host where
  -- Whether failures are traced.
  tracing : Bool
  stack : Stack

def Host.trace (h : Host) (way : Way) (s : Session) (source : String) : Trace :=
  if h.tracing then .on (h.stack way s source) else .off

structure Prompt where
  session : Session
  host : Host

namespace Prompt

def banner : String := "lox repl - Ctrl-D to exit, / for commands\n"

def farewell : String := "\n"

def invisible : List Char := ['\u200b', '\u200c', '\u200d', '\ufeff', '\u00a0', '\r']

def normalize (text : List Char) : List Char := text.filter fun c => !invisible.contains c

structure Reply where
  -- What the prompt cannot go on from, if anything.
  abort : Option Abort
  written : Written
  prompt : Prompt

def start (hasPrelude tracing : Bool) (time : Float) (stack : Stack := .unknown) : Prompt :=
  ⟨.start hasPrelude time, tracing, stack⟩

def say (p : Prompt) (out err : String) : Reply := ⟨none, ⟨out, err⟩, p⟩

def reset (p : Prompt) : Prompt :=
  { p with session := .start p.session.hasPrelude p.session.store.time }

def obey (p : Prompt) : Directive → Reply
  | .clear => p.say "" ""
  | .trace none => p.say "" ("Usage: " ++ traceName ++ " [on|off]\n")
  | .trace (some switch) =>
    let p := { p with host.tracing := switch.apply p.host.tracing }
    p.say ("Python traceback: " ++ (if p.host.tracing then "on" else "off") ++ "\n") ""
  | .reset => p.reset.say "Environment reset.\n" ""
  | .unknown name => p.say "" ("Unknown command: " ++ name ++ "\n")

/-- Shows what an answer comes to. A value that is nested too deep to be shown ends the prompt: it is
shown outside of what reports failures. -/
def reply (p : Prompt) (step : Step (Option Value)) : Reply :=
  let p := { p with session := step.session }
  match step.result with
  | .ok (some v) =>
    if v.nestsWithin p.session.limits.levels then
      p.say (step.written.out ++ v.text ++ "\n") step.written.err
    else ⟨some .tooDeep, step.written, p⟩
  | .ok none => p.say step.written.out step.written.err
  | .error e => ⟨some e, step.written, p⟩

def evaluate (p : Prompt) (source : String) : Reply :=
  p.reply (p.session.answer source (p.host.trace .answer p.session source))

def submit (p : Prompt) : Option String → Reply
  | none => p.say "KeyboardInterrupt\n" ""
  | some text =>
    let line := normalize text.toList
    if (Text.trim line).isEmpty then p.say "" ""
    else
      match Directive.ofLine? line with
      | some directive => p.obey directive
      | none => p.evaluate (String.ofList line)

def submitAll (p : Prompt) : List (Option String) → List Written × Option Abort
  | [] => ([⟨farewell, ""⟩], none)
  | line :: more =>
    let reply := p.submit line
    match reply.abort with
    | some e => ([reply.written], some e)
    | none =>
      let (written, abort) := reply.prompt.submitAll more
      (reply.written :: written, abort)

def transcript (p : Prompt) (lines : List (Option String)) : List Written × Option Abort :=
  let (written, abort) := p.submitAll lines
  (⟨banner, ""⟩ :: written, abort)

end Prompt

end Lox
