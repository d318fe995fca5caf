import Lox.Eval
import Lox.Prelude
import Lox.Syntax.Tree

/-! Sessions: sources run one after another on one store, with what each of them prints and
reports. -/

namespace Lox

structure Written where
  out : String
  err : String
  deriving Repr, DecidableEq

inductive ExitCode where
  | success | misuse | rejected | noInput | failed
  deriving Repr, DecidableEq

def ExitCode.toNat : ExitCode → Nat
  | success => 0
  | misuse => 64
  | rejected => 65
  | noInput => 66
  | failed => 70

structure Session where
  hasPrelude : Bool
  limits : Limits
  store : Store

/-- The result of a step on a session. An error is one that the session does not report. -/
structure Step (α : Type) where
  result : Except Abort α
  written : Written
  session : Session

/-- What is written after the report of a failure. -/
abbrev Trace := Failure → String

namespace Trace

def off : Trace := fun _ => ""

def on (stack : Failure → String) : Trace := fun f => "\nPython traceback:\n" ++ stack f

end Trace

def reportLines (ds : List Diagnostic) : String := String.join (ds.map fun d => d.render ++ "\n")

namespace Step

def map {α β : Type} (f : α → β) (step : Step α) : Step β :=
  { step with result := step.result.map f }

def reporting {α : Type} (ds : List Diagnostic) (step : Step α) : Step α :=
  { step with written.err := reportLines ds ++ step.written.err }

def catchFailure {α : Type} (x : α) (trace : Trace) (step : Step α) : Step α :=
  match step.result with
  | .error (.failure f) =>
    { step with result := .ok x, written.err := step.written.err ++ f.report ++ "\n" ++ trace f }
  | _ => step

end Step

namespace Session

def evaluator (s : Session) : Evaluator := s.limits.evaluator

def perform {α : Type} (s : Session) (act : Eval α) : Step α :=
  match act { s.store with output := "" } with
  | .ok x store => ⟨.ok x, ⟨store.output, ""⟩, { s with store }⟩
  | .error e store => ⟨.error e, ⟨store.output, ""⟩, { s with store }⟩

def force (s : Session) (p : Program) : Step Value :=
  s.perform (Eval.program s.evaluator .nil p.body)

def loadPrelude (s : Session) : Session :=
  if s.hasPrelude then (s.force Prelude.program).session else s

def start (hasPrelude : Bool) (time : Float) : Session :=
  loadPrelude ⟨hasPrelude, .standard, .initial time⟩

def setTime (s : Session) (time : Float) : Session := { s with store.time := time }

def idle {α : Type} (s : Session) (x : α) : Step α := ⟨.ok x, ⟨"", ""⟩, s⟩

def execute? (s : Session) (p : Program) : Option (Step Value) :=
  if p.hasError then none else some (s.force p)

/-- Runs a whole source. -/
def run (s : Session) (source : String) (trace : Trace := .off) : Step ExitCode :=
  let p := Program.compile source
  let step : Step ExitCode :=
    match s.execute? p with
    | some step => (step.map fun _ => .success).catchFailure .failed trace
    | none => s.idle .rejected
  step.reporting p.diagnostics

def evaluate (s : Session) (e : Expr) (trace : Trace := .off) : Step (Option Value) :=
  let (e, reports) := Resolver.expression e
  if Diagnostic.hasError reports then (s.idle none).reporting reports
  else
    (((s.perform (Eval.expression s.evaluator e)).map some).catchFailure none trace).reporting
      reports

/-- Runs the statements of an input, of which the reports so far are given. -/
def interpret (s : Session) (body : List Stmt) (reports : List Diagnostic)
    (trace : Trace := .off) : Step (Option Value) :=
  if Diagnostic.hasError reports then (s.idle none).reporting reports
  else
    let (body, more) := Resolver.program body
    let reports := reports ++ more
    if Diagnostic.hasError reports then (s.idle none).reporting reports
    else
      (((s.force ⟨body, reports⟩).map fun _ => none).catchFailure none trace).reporting reports

/-- Answers an input: the value of an expression, or nothing where the input is a program. The
prelude is put back first. The reports on the first attempt are dropped; where it finds no
expression the tokens are read once more, with reports of their own. -/
def answer (s : Session) (source : String) (trace : Trace := .off) : Step (Option Value) :=
  let s := s.loadPrelude
  let scan := Scan.ofString source
  match Grammar.bareExpression? scan with
  | some e => s.evaluate e trace
  | none =>
    let (body, reports) := Grammar.program scan
    s.interpret body (scan.diagnostics ++ reports) trace

def dump (s : Session) (source : String) : Step ExitCode :=
  let p := Program.compile source
  if p.hasError then (s.idle .rejected).reporting p.diagnostics
  else
    let text := String.join (p.body.map fun stmt => stmt.tree.pretty 0)
    Step.reporting p.diagnostics ⟨.ok .success, ⟨text, ""⟩, s⟩

end Session

end Lox
