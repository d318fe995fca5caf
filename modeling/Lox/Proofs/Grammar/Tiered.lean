import Lox.Proofs.Grammar.Flat
import Lox.Proofs.Grammar.Following
import Lox.Proofs.Syntax.Map
import Lox.Proofs.Syntax.WellFormed

namespace Lox

def Level.ofOperator : Kind → Level
  | .bangEqual | .equalEqual => equality
  | .greater | .greaterEqual | .less | .lessEqual => comparison
  | .minus | .plus => sum
  | _ => product

namespace Expr

def level : Expr → Level
  | comma _ _ _ => .comma
  | conditional _ _ _ _ | lambda _ => .ternary
  | assign _ _ _ | set _ _ _ _ => .assignment
  | logical _ op _ => if op.kind = .orWord then .or else .and
  | binary _ op _ => .ofOperator op.kind
  | unary _ _ => .sign
  | call _ _ _ | get _ _ => .call
  | literal _ _ | ref _ | this _ | super _ _ | grouping _ _ | list _ _ | invalid _ => .primary

end Expr

def Level.Admits (level : Level) (e : Expr) : Prop := e.level ∈ level.andTighter

instance (level : Level) (e : Expr) : Decidable (level.Admits e) :=
  inferInstanceAs (Decidable (e.level ∈ level.andTighter))

def Reference.Is (k : Kind) (r : Reference) : Prop := r.name.kind = k ∧ r.depth = none

def Stmt.takesElse : Stmt → Bool
  | .ifElse _ _ _ none => true
  | .ifElse _ _ _ (some no) => no.takesElse
  | .whileLoop _ _ body => body.takesElse
  | _ => false

def Params.Tiered (p : Params) : Prop :=
  p.names.length ≤ maxArguments ∧ ∀ name ∈ p.names, name.kind = .identifier

mutual

/-- An operator joins from the left what is as tight as itself; an assignment, a sign and the last
branch of a conditional stand to the right of what they govern. -/
def Expr.Tiered : Expr → Prop
  | .literal token value => token.literal? = some value
  | .ref target => target.Is .identifier
  | .assign target value _ =>
    target.Is .identifier ∧ Level.ternary.Admits value ∧ value.Tiered
  | .get object name => (Level.call.Admits object ∧ object.Tiered) ∧ name.kind = .identifier
  | .set object name value _ =>
    (Level.call.Admits object ∧ object.Tiered) ∧ name.kind = .identifier ∧
      Level.ternary.Admits value ∧ value.Tiered
  | .conditional condition mark yes no =>
    (Level.or.Admits condition ∧ condition.Tiered) ∧ mark.kind = .question ∧ yes.Tiered ∧
      Level.ternary.Admits no ∧ no.Tiered
  | .lambda function =>
    function.head.kind = .funWord ∧ function.params.isSome ∧ function.Tiered
  | .comma left op right =>
    op.kind = .comma ∧ left.Tiered ∧ Level.ternary.Admits right ∧ right.Tiered
  | .binary left op right =>
    op.kind ∈ (Level.ofOperator op.kind).ops ∧
      ((Level.ofOperator op.kind).Admits left ∧ left.Tiered) ∧
      (Level.ofOperator op.kind).next.Admits right ∧ right.Tiered
  | .logical left op right =>
    (op.kind = .orWord ∧ (Level.or.Admits left ∧ left.Tiered) ∧ Level.and.Admits right ∨
      op.kind = .andWord ∧ (Level.and.Admits left ∧ left.Tiered) ∧ Level.equality.Admits right) ∧
      right.Tiered
  | .unary op operand => op.kind ∈ [.bang, .minus] ∧ Level.sign.Admits operand ∧ operand.Tiered
  | .call callee paren arguments =>
    (Level.call.Admits callee ∧ callee.Tiered) ∧ paren.kind = .rightParen ∧
      arguments.length ≤ maxArguments ∧ tieredItems arguments
  | .this target => target.Is .thisWord
  | .super target method => target.Is .superWord ∧ method.kind = .identifier
  | .grouping paren inner => paren.kind = .leftParen ∧ inner.Tiered
  | .list bracket elements => bracket.kind = .leftBracket ∧ tieredItems elements
  | .invalid _ => False

def tieredItems : List Expr → Prop
  | [] => True
  | e :: more => (Level.ternary.Admits e ∧ e.Tiered) ∧ tieredItems more

/-- An `else` belongs to the nearest `if`, a declaration is no branch, and a `break` stands in a
loop. Classes are left out: a tree does not keep the order of their members. -/
def Stmt.Tiered (inLoop : Bool) : Stmt → Prop
  | .expression _ value => value.Tiered
  | .print keyword value => keyword.kind = .printWord ∧ value.Tiered
  | .var name none => name.kind = .identifier
  | .var name (some init) => name.kind = .identifier ∧ init.Tiered
  | .block _ body => tieredBody inLoop body
  | .ifElse keyword condition yes none =>
    keyword.kind = .ifWord ∧ condition.Tiered ∧ yes.declares = false ∧ yes.Tiered inLoop
  | .ifElse keyword condition yes (some no) =>
    keyword.kind = .ifWord ∧ condition.Tiered ∧
      (yes.declares = false ∧ yes.takesElse = false ∧ yes.Tiered inLoop) ∧
      no.declares = false ∧ no.Tiered inLoop
  | .whileLoop keyword condition body =>
    keyword.kind = .whileWord ∧ condition.Tiered ∧ body.declares = false ∧ body.Tiered true
  | .breakLoop keyword => keyword.kind = .breakWord ∧ inLoop = true
  | .returnValue keyword none => keyword.kind = .returnWord
  | .returnValue keyword (some value) => keyword.kind = .returnWord ∧ value.Tiered
  | .function function =>
    function.head.kind = .identifier ∧ function.params.isSome ∧ function.Tiered
  | .classDecl _ _ _ _ _ => False
  | .invalid _ => False

def tieredBody (inLoop : Bool) : List Stmt → Prop
  | [] => True
  | s :: more => s.Tiered inLoop ∧ tieredBody inLoop more

def Function.Tiered : Function → Prop
  | .mk _ params _ body => (∀ ps ∈ params, ps.Tiered) ∧ tieredBody false body

end

abbrev Expr.lineless (e : Expr) : Expr := e.map id fun _ => 0

namespace Level

lemma andTighter_next {level looser : Level} (h : level ∈ looser.andTighter) :
    level = looser ∨ looser ≠ .primary ∧ level ∈ looser.next.andTighter := by
  revert h
  cases looser <;> cases level <;> decide

lemma length_andTighter_next {level : Level} (h : level ≠ .primary) :
    level.next.andTighter.length < level.andTighter.length := by
  revert h
  cases level <;> decide

lemma admits_comma (e : Expr) : comma.Admits e := by
  unfold Admits
  cases e.level <;> decide

lemma join_ofOperator {k : Kind} : (ofOperator k).join = Expr.binary := by
  unfold ofOperator
  split <;> rfl

end Level

namespace Spells

variable {level : Level} {e : Expr} {ts : List Token}

theorem loosen {looser : Level} (h : Spells (.expression level e) ts)
    (hl : level ∈ looser.andTighter) :
    Spells (.expression looser e) ts := by
  rcases Level.andTighter_next hl with rfl | ⟨hprimary, hl⟩
  · exact h
  · exact .pass hprimary (h.loosen hl)
termination_by looser.andTighter.length
decreasing_by exact Level.length_andTighter_next hprimary

end Spells

end Lox
