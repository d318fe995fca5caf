import Lox.Eval

/-! Evaluators that put the faults of native functions down to the call at once. Programs are run by
evaluators that raise them away from any token, and put them down to the first token of the
innermost node that they come out of. In the end there is no difference. -/

namespace Lox.Evaluator

def call (inner : Evaluator) (first paren : Token) (callee : Value) (args : List Value) :
    Eval Value :=
  match callee.arity? with
  | none => Eval.fail .notCallable paren
  | some expected =>
    if args.length ≠ expected then Eval.fail (.wrongCount expected args.length) paren
    else
      match callee with
      | .function f => inner.invoke f args
      | .cls c => inner.instantiate c args
      | .native f => do Eval.located first (f.apply (← get).time args)
      | _ => Eval.fail .notCallable paren

def evalExpr (inner : Evaluator) (frame : FrameId) : Expr → Eval Value
  | .call callee paren arguments => do
    let f ← inner.eval frame callee
    let args ← inner.evalAll frame arguments
    inner.call callee.firstToken paren f args
  | e => inner.evalNode frame e

def within (inner : Evaluator) : Evaluator where
  eval := inner.evalExpr
  exec := inner.execStmt
  levels := inner.levels + 1
  turns := inner.turns

def deep (turns : Nat) : Nat → Evaluator
  | 0 => exhausted turns
  | levels + 1 => within (deep turns levels)

end Lox.Evaluator
