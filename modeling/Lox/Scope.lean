import Lox.Diagnostic
import Lox.Table

/-! Scopes: the names that each enclosing block or function declares, innermost scope first. -/

namespace Lox

structure Binding where
  -- The declaring name; `this` and `super` have none.
  token : Option Token
  -- Whether the initializer has been passed.
  ready : Bool
  used : Bool
  -- Whether a missing use is worth a warning.
  tracked : Bool
  deriving Repr, DecidableEq

abbrev Scope := Table Binding

def Scope.unused (s : Scope) : List Token :=
  s.values.filterMap fun b => if b.tracked && !b.used then b.token else none

structure Scopes where
  stack : List Scope
  reports : List Diagnostic
  -- The unread declarations of the scopes that have been left.
  unused : List Token

namespace Scopes

def start : Scopes := ⟨[], [], []⟩

def report (s : Scopes) (t : Token) (problem : Problem) : Scopes :=
  { s with reports := s.reports ++ [.atToken t problem] }

def enter (s : Scopes) : Scopes := { s with stack := .empty :: s.stack }

def leave (s : Scopes) : Scopes :=
  match s.stack with
  | scope :: outer => { s with stack := outer, unused := s.unused ++ Scope.unused scope }
  | [] => s

def updateInnermost (s : Scopes) (f : Scope → Scope) : Scopes :=
  match s.stack with
  | scope :: outer => { s with stack := f scope :: outer }
  | [] => s

def innermost? (s : Scopes) (name : String) : Option Binding :=
  s.stack.head?.bind (·.find? name)

def declare (s : Scopes) (name : Token) (tracked : Bool) : Scopes :=
  let s := if (s.innermost? name.lexeme).isSome then s.report name .declaredTwice else s
  s.updateInnermost (·.put name.lexeme ⟨some name, false, false, tracked⟩)

def define (s : Scopes) (name : Token) : Scopes :=
  s.updateInnermost (·.update name.lexeme fun b => { b with ready := true })

def declareImplicit (s : Scopes) (name : String) : Scopes :=
  s.updateInnermost (·.put name ⟨none, true, false, false⟩)

def depth? (s : Scopes) (name : String) : Option Nat := s.stack.findIdx? (·.binds name)

def markUsed (s : Scopes) (depth : Nat) (name : String) : Scopes :=
  { s with stack := s.stack.modify depth (·.update name fun b => { b with used := true }) }

def before (a b : Token) : Bool :=
  decide (a.line < b.line) || decide (a.line = b.line) && decide (a.column ≤ b.column)

def reportUnused (s : Scopes) : Scopes :=
  let warnings := (s.unused.mergeSort before).map fun t => .atToken t (.unusedLocal t.lexeme)
  { s with reports := s.reports ++ warnings, unused := [] }

end Scopes

end Lox
