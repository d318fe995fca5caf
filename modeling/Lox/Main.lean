import Lox.Command
import Lox.Prompt.Editing

namespace Lox.Main

def settingNames : List String :=
  [Settings.traceName, Settings.noPreludeName, Settings.depthName]

def environment : IO Environment :=
  settingNames.filterMapM fun name => return (← IO.getEnv name).map fun raw => (name, raw)

def time : IO Float := return Float.ofNat (← IO.monoNanosNow) / 1.0e9

def readFailure : IO.Error → ReadFailure
  | .noFileOrDirectory _ _ _ => .notFound
  | .inappropriateType _ _ details =>
    if details = "not a directory" then .notDirectory else .isDirectory
  | .invalidArgument _ _ "name too long" => .nameTooLong
  | .permissionDenied _ _ _ => .other "Permission denied"
  | e => .other (toString e)

def read (script : String) : IO (Except ReadFailure String) := do
  let names := Files.path script
  if names.isEmpty then return .error .isDirectory
  let start := if script.startsWith "/" then "/" else ""
  try return .ok (← IO.FS.readFile (start ++ String.intercalate "/" names))
  catch e => return .error (readFailure e)

def write (w : Written) : IO Unit := do
  IO.print w.out
  IO.eprint w.err
  (← IO.getStdout).flush

def finish : Command.Ending → IO UInt32
  | .code c => return UInt32.ofNat c.toNat
  | .aborted e => do
    IO.eprintln e.message
    return 1
  | .refused problem => do
    IO.eprintln problem.message
    return 1

partial def readInput (soFar : Option String) : IO (Option String) := do
  IO.print (if soFar.isSome then "... " else ">>> ")
  (← IO.getStdout).flush
  let read ← (← IO.getStdin).getLine
  if read.isEmpty then return soFar
  let line := String.ofList (read.toList.filter (· ≠ '\n'))
  let text := (soFar.map (· ++ "\n" ++ line)).getD line
  if Prompt.isFinished text.toList then return some text else readInput (some text)

partial def converse (p : Prompt) : IO UInt32 := do
  match ← readInput none with
  | none =>
    IO.print Prompt.farewell
    return 0
  | some text =>
    let reply := { p with session := p.session.setTime (← time) }.submit (some text)
    write reply.written
    match reply.abort with
    | some e => finish (.aborted e)
    | none => converse reply.prompt

end Lox.Main

open Lox in
def main (args : List String) : IO UInt32 := do
  let env ← Main.environment
  let time ← Main.time
  match Command.plan env args with
  | .quit outcome =>
    outcome.written.forM Main.write
    Main.finish outcome.ending
  | .script o script =>
    let text ← Main.read script
    let outcome := Command.runScript ⟨env, fun _ => text, time⟩ o script
    outcome.written.forM Main.write
    Main.finish outcome.ending
  | .prompt o =>
    IO.print Prompt.banner
    Main.converse (.start o.hasPrelude (Settings.tracing env) time)
