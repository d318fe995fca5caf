import Lox.Eval.Evaluator

/-! Running programs: the evaluator for a depth of nesting, and the top level of a program. -/

namespace Lox

structure Limits where
  levels : Nat
  turns : Nat
  deriving Repr, DecidableEq

namespace Evaluator

def around (inner : Evaluator) : Evaluator where
  eval := fun frame e => Eval.attaching (fun _ => some e.firstToken) (inner.evalNode frame e)
  exec := fun frame s => Eval.attaching (fun _ => s.firstToken?) (inner.execStmt frame s)
  levels := inner.levels + 1
  turns := inner.turns

def exhausted (turns : Nat) : Evaluator where
  eval := fun _ _ => throw .tooDeep
  exec := fun _ _ => throw .tooDeep
  levels := 0
  turns := turns

/-- An evaluator for what is nested no deeper than a count of levels. -/
def nested (turns : Nat) : Nat → Evaluator
  | 0 => exhausted turns
  | levels + 1 => around (nested turns levels)

end Evaluator

namespace Limits

def standard : Limits := ⟨20000, Nat.pow 2 62⟩

def evaluator (limits : Limits) : Evaluator := .nested limits.turns limits.levels

end Limits

namespace Eval

def expression (evaluator : Evaluator) (e : Expr) : Eval Value :=
  reportingDepth (some e.firstToken) (evaluator.eval Store.globals e)

/-- Runs the statements of a program; gives the value of the last expression statement among them,
or the given one if there is none. -/
def program (evaluator : Evaluator) (last : Value) : List Stmt → Eval Value
  | [] => return last
  | .expression _ value :: more => do
    program evaluator (← expression evaluator value) more
  | s :: more => do
    match ← reportingDepth s.firstToken? (evaluator.exec Store.globals s) with
    | .normal => program evaluator last more
    | .returned v => defect (.escapedReturn v)
    | .broke => defect .escapedBreak

end Eval

end Lox
