import Lox.Command.Files
import Lox.Prompt
import Lox.Settings

/-! The command line: its arguments, and what it writes and ends with. -/

namespace Lox

namespace Command

def usage : String := "Usage: lox [--no-prelude] [--dump-ast] [script]\n"

inductive Misuse where
  | unknownOption (option : String)
  | unexpectedArgument (argument : String)
  | dumpWithoutScript
  deriving Repr, DecidableEq

def Misuse.message : Misuse → String
  | unknownOption option => "Unknown option: " ++ option
  | unexpectedArgument argument => "Unexpected argument: " ++ argument
  | dumpWithoutScript => "--dump-ast requires a script"

structure Options where
  hasPrelude : Bool
  dumps : Bool
  script : Option String
  deriving Repr, DecidableEq

inductive Early where
  | help
  | misuse (m : Misuse)
  deriving Repr, DecidableEq

def Options.add (o : Options) (argument : String) : Except Early Options :=
  if argument = "--no-prelude" then .ok { o with hasPrelude := false }
  else if argument = "--dump-ast" then .ok { o with dumps := true }
  else if argument = "-h" || argument = "--help" then .error .help
  else if argument.startsWith "-" then .error (.misuse (.unknownOption argument))
  else if o.script.isSome then .error (.misuse (.unexpectedArgument argument))
  else .ok { o with script := some argument }

inductive Ending where
  | code (c : ExitCode)
  | aborted (e : Abort)
  | refused (p : Settings.Problem)

structure Outcome where
  written : List Written
  ending : Ending

def quit (out err : String) (c : ExitCode) : Outcome := ⟨[⟨out, err⟩], .code c⟩

def Early.outcome : Early → Outcome
  | help => quit usage "" .success
  | misuse m => quit "" (m.message ++ "\n" ++ usage) .misuse

def unifyLines : List Char → List Char
  | '\r' :: '\n' :: more => '\n' :: unifyLines more
  | '\r' :: more => '\n' :: unifyLines more
  | c :: more => c :: unifyLines more
  | [] => []

structure World where
  env : Environment
  read : String → Except ReadFailure String
  time : Float

def runScript (w : World) (o : Options) (script : String) (stack : Stack := .unknown) : Outcome :=
  match w.read script with
  | .error failure =>
    quit "" ("Could not read " ++ script ++ ": " ++ failure.reason ++ "\n") .noInput
  | .ok text =>
    let session := Session.start o.hasPrelude w.time
    let source := String.ofList (unifyLines text.toList)
    let host : Host := ⟨Settings.tracing w.env, stack⟩
    let step :=
      if o.dumps then session.dump source
      else session.run source (host.trace .run session source)
    ⟨[step.written], match step.result with
      | .ok c => .code c
      | .error e => .aborted e⟩

def runPrompt (w : World) (o : Options) (lines : List (Option String))
    (stack : Stack := .unknown) : Outcome :=
  let (written, abort) :=
    (Prompt.start o.hasPrelude (Settings.tracing w.env) w.time stack).transcript lines
  ⟨written, match abort with
    | some e => .aborted e
    | none => .code .success⟩

inductive Plan where
  | quit (outcome : Outcome)
  | script (o : Options) (script : String)
  | prompt (o : Options)

def plan (env : Environment) (args : List String) : Plan :=
  match args.foldlM Options.add ⟨!Settings.noPrelude env, false, none⟩ with
  | .error early => .quit early.outcome
  | .ok o =>
    match Settings.checkDepth env, o.script with
    | .error problem, _ => .quit ⟨[⟨"", ""⟩], .refused problem⟩
    | .ok (), some script => .script o script
    | .ok (), none =>
      if o.dumps then .quit (Early.misuse .dumpWithoutScript).outcome else .prompt o

def run (w : World) (args : List String) (lines : List (Option String))
    (stack : Stack := .unknown) : Outcome :=
  match plan w.env args with
  | .quit outcome => outcome
  | .script o script => runScript w o script stack
  | .prompt o => runPrompt w o lines stack

end Command

end Lox
