import Lox.Proofs.Grammar.Ambiguity
import Lox.Proofs.Grammar.Single
import Lox.Proofs.Grammar.Tiered

/-! Assignments and conditionals: a mark behind an assignment belongs to the value that is assigned.
Only a value that ends in a lambda does not take it, and then the assignment is the condition. -/

namespace Lox

mutual

/-- The conditions of the conditionals in an expression, at any depth. -/
def Expr.conditions : Expr → List Expr
  | .literal _ _ => []
  | .ref _ => []
  | .assign _ value _ => value.conditions
  | .get object _ => object.conditions
  | .set object _ value _ => object.conditions ++ value.conditions
  | .conditional condition _ yes no =>
    condition :: (condition.conditions ++ (yes.conditions ++ no.conditions))
  | .lambda function => function.conditions
  | .comma left _ right => left.conditions ++ right.conditions
  | .binary left _ right => left.conditions ++ right.conditions
  | .logical left _ right => left.conditions ++ right.conditions
  | .unary _ operand => operand.conditions
  | .call callee _ arguments => callee.conditions ++ exprConditions arguments
  | .this _ => []
  | .super _ _ => []
  | .grouping _ inner => inner.conditions
  | .list _ elements => exprConditions elements
  | .invalid _ => []

def exprConditions : List Expr → List Expr
  | [] => []
  | e :: more => e.conditions ++ exprConditions more

def Stmt.conditions : Stmt → List Expr
  | .expression _ value => value.conditions
  | .print _ value => value.conditions
  | .var _ none => []
  | .var _ (some init) => init.conditions
  | .block _ body => bodyConditions body
  | .ifElse _ condition yes none => condition.conditions ++ yes.conditions
  | .ifElse _ condition yes (some no) =>
    condition.conditions ++ (yes.conditions ++ no.conditions)
  | .whileLoop _ condition body => condition.conditions ++ body.conditions
  | .breakLoop _ => []
  | .returnValue _ none => []
  | .returnValue _ (some value) => value.conditions
  | .function function => function.conditions
  | .classDecl _ _ _ methods statics => memberConditions methods ++ memberConditions statics
  | .invalid _ => []

def bodyConditions : List Stmt → List Expr
  | [] => []
  | s :: more => s.conditions ++ bodyConditions more

def Function.conditions : Function → List Expr
  | .mk _ _ _ body => bodyConditions body

def memberConditions : List Function → List Expr
  | [] => []
  | f :: more => f.conditions ++ memberConditions more

end

def Phrase.conditions : Phrase → List Expr
  | expression _ e => e.conditions
  | optional e => e.elim [] Expr.conditions
  | expressions es | items es => exprConditions es
  | rest _ _ body | declarations _ body => bodyConditions body
  | members ms => ms.flatMap fun m => m.2.conditions
  | binding s | expressionStatement s | statement _ _ s | declaration _ s => s.conditions
  | forStart s => s.elim [] Stmt.conditions
  | names _ | parameters _ | superclass _ => []

lemma memberConditions_membersOf_subset (isStatic : Bool) (ms : List (Bool × Function)) :
    memberConditions (membersOf isStatic ms) ⊆ (Phrase.members ms).conditions := by
  induction ms with
  | nil => exact List.Subset.refl _
  | cons m ms ih =>
    obtain ⟨isStatic', f⟩ := m
    have hmore : memberConditions (membersOf isStatic ms) ⊆
        (Phrase.members ((isStatic', f) :: ms)).conditions :=
      List.subset_append_of_subset_right _ ih
    by_cases hstatic : isStatic' = isStatic
    · have hhead : membersOf isStatic ((isStatic', f) :: ms) = f :: membersOf isStatic ms := by
        simp [membersOf, hstatic]
      rw [hhead]
      exact List.append_subset.mpr ⟨List.subset_append_left _ _, hmore⟩
    · have hhead : membersOf isStatic ((isStatic', f) :: ms) = membersOf isStatic ms := by
        simp [membersOf, hstatic]
      rwa [hhead]

lemma Level.conditions_join (level : Level) (l r : Expr) (op : Token) :
    (level.join l op r).conditions = l.conditions ++ r.conditions := by
  cases level <;> rfl

lemma conditions_expandFor (keyword : Token) (start : Option Stmt) (c step : Option Expr)
    (body : Stmt) : (Readers.expandFor keyword start c step body).conditions =
      (Phrase.forStart start).conditions ++ ((Phrase.optional c).conditions ++
        (body.conditions ++ (Phrase.optional step).conditions)) := by
  cases start <;> cases c <;> cases step <;>
    simp [Readers.expandFor, Readers.alwaysTrue, Phrase.conditions, Stmt.conditions, bodyConditions,
      Expr.conditions]

theorem Spells.leavesMark_of_mem_conditions {φ : Phrase} {ts : List Token} (h : Spells φ ts) :
    ∀ c ∈ φ.conditions, c.leavesMark = true := by
  induction h
  case conditional hleaves _ _ _ ihc ihy ihn =>
    refine List.forall_mem_cons.mpr ⟨hleaves, ?_⟩
    exact List.forall_mem_append.mpr ⟨ihc, List.forall_mem_append.mpr ⟨ihy, ihn⟩⟩
  case join ihl ihr =>
    rw [Phrase.conditions, Level.conditions_join]
    exact List.forall_mem_append.mpr ⟨ihl, ihr⟩
  case classDecl ihp ihms =>
    refine List.forall_mem_append.mpr ⟨fun c hc => ihms c ?_, fun c hc => ihms c ?_⟩ <;>
      exact memberConditions_membersOf_subset _ _ hc
  case forLoop ihi ihc ihs ihb =>
    rw [Phrase.conditions, conditions_expandFor]
    simp only [List.forall_mem_append]
    exact ⟨ihi, ihc, ihb, ihs⟩
  case ifElse ihc ihy ihn =>
    exact List.forall_mem_append.mpr ⟨ihc, List.forall_mem_append.mpr ⟨ihy, ihn⟩⟩
  case returnValue e _ _ _ _ ih => cases e <;> exact ih
  -- What is made of two parts has the conditions of both.
  case assign _ ih => exact ih
  case set ih ih' | call ih ih' | moreExpressions ih ih' | method ih ih' | staticMember ih ih'
  | ifOnly ih ih' | whileLoop ih ih' | declarations ih ih' =>
    exact List.forall_mem_append.mpr ⟨ih, ih'⟩
  case lastExpression ih => exact List.forall_mem_append.mpr ⟨ih, fun _ h => nomatch h⟩
  -- Whatever is left is made of one part, or of none.
  all_goals first | assumption | exact fun _ h => nomatch h

namespace Expr

def assigned? : Expr → Option Expr
  | .assign _ value _ => some value
  | .set _ _ value _ => some value
  | _ => none

lemma leavesMark_iff {e : Expr} :
    e.leavesMark = true ↔ ∀ value ∈ e.assigned?, value.takesMark = false := by
  cases e <;> simp [leavesMark, assigned?]

theorem marked_of_assigned {e value : Expr} (h : e.assigned? = some value) (mark : Token)
    (yes no : Expr) :
    if value.takesMark then (e.marked mark yes no).assigned? = some (value.marked mark yes no)
    else e.marked mark yes no = .conditional e mark yes no := by
  cases e <;> cases h <;> rw [marked] <;> split <;> rfl

lemma takesMark_of_assigned {e value : Expr} (h : e.assigned? = some value) :
    e.takesMark = true := by
  cases e <;> cases h <;> rfl

lemma admits_of_assigned {e value : Expr} (h : e.assigned? = some value) :
    Level.ternary.Admits e := by
  have hadmits : Level.assignment ∈ Level.ternary.andTighter := by decide
  cases e <;> cases h <;> exact hadmits

end Expr

theorem Spells.ternary_of_admits {e : Expr} {ts : List Token} (h : Spells (.expression .comma e) ts)
    (he : Level.ternary.Admits e) : Spells (.expression .ternary e) ts := by
  cases h with
  | pass _ h => exact h
  | join =>
    have hnot : Level.comma ∉ Level.ternary.andTighter := by decide
    exact absurd he hnot

namespace Grammar

variable {s : Scan} {e yes no : Expr} {mark colon : Token} {ts us vs : List Token}

theorem bareExpression?_marked (hs : s.finish.kind = .finish)
    (htokens : s.tokens = ts ++ mark :: (us ++ colon :: vs)) (hmark : mark.kind = .question)
    (hcolon : colon.kind = .colon) (he : bareExpression? { s with tokens := ts } = some e)
    (hyes : bareExpression? { s with tokens := us } = some yes)
    (hno : bareExpression? { s with tokens := vs } = some no) (hadmits : Level.ternary.Admits e)
    (htakes : e.takesMark = true) (hadmits' : Level.ternary.Admits no) :
    bareExpression? s = some (e.marked mark yes no) := by
  have hread {ws : List Token} {x : Expr} (h : bareExpression? { s with tokens := ws } = some x) :
      s.diagnostics = [] ∧ Spells (.expression .comma x) ws :=
    (bareExpression?_eq_some_iff (s := { s with tokens := ws }) hs).mp h
  obtain ⟨hdiagnostics, hspells⟩ := hread he
  obtain ⟨-, hyes⟩ := hread hyes
  obtain ⟨-, hno⟩ := hread hno
  have hmarked := Spells.absorb_mark hmark hcolon hyes (hno.ternary_of_admits hadmits')
    (hspells.ternary_of_admits hadmits) (.inl rfl) htakes
  refine (bareExpression?_eq_some_iff hs).mpr ⟨hdiagnostics, ?_⟩
  rw [htokens]
  exact hmarked.loosen (by decide)

/-- In what is read without a report, an assignment is a condition only where the assigned value
ends in a lambda. Otherwise a mark that follows an assignment belongs to the value. -/
theorem assigned_takes_conditional (hs : s.finish.kind = .finish) :
    ((program s).2 = [] →
      ∀ c ∈ bodyConditions (program s).1, ∀ value ∈ c.assigned?, value.takesMark = false) ∧
    (∀ e d, expression s = ⟨.ok e, d⟩ → d.reports = [] →
      ∀ c ∈ e.conditions, ∀ value ∈ c.assigned?, value.takesMark = false) ∧
    ∀ e value yes no mark colon ts us vs, e.assigned? = some value →
      mark.kind = .question → colon.kind = .colon → Level.ternary.Admits no →
      s.tokens = ts ++ mark :: (us ++ colon :: vs) →
      bareExpression? { s with tokens := ts } = some e →
      bareExpression? { s with tokens := us } = some yes →
      bareExpression? { s with tokens := vs } = some no →
      ∃ r, bareExpression? s = some r ∧
        if value.takesMark then r.assigned? = some (value.marked mark yes no)
        else r = .conditional e mark yes no := by
  refine ⟨fun h c hc => ?_, fun e d hread hd c hc => ?_, ?_⟩
  · exact Expr.leavesMark_iff.mp ((spells_of_program hs h).leavesMark_of_mem_conditions c hc)
  · obtain ⟨ts, -, hspells⟩ := spells_of_expression hs hread hd
    exact Expr.leavesMark_iff.mp (hspells.leavesMark_of_mem_conditions c hc)
  · intro e value yes no mark colon ts us vs hvalue hmark hcolon hadmits htokens he hyes hno
    exact ⟨_, bareExpression?_marked hs htokens hmark hcolon he hyes hno
      (Expr.admits_of_assigned hvalue) (Expr.takesMark_of_assigned hvalue) hadmits,
      Expr.marked_of_assigned hvalue mark yes no⟩

theorem assigned_takes_conditional_chain :
    let s := Scan.ofString "x = fun () {} ? 1 : 2; y = c ? 1 : 2;"
    let x : Token := ⟨.identifier, "x", 1, 1⟩
    let y : Token := ⟨.identifier, "y", 1, 5⟩
    let c : Token := ⟨.identifier, "c", 1, 9⟩
    let mark : Token := ⟨.question, "?", 1, 11⟩
    let a : Token := ⟨.identifier, "a", 1, 13⟩
    let colon : Token := ⟨.colon, ":", 1, 15⟩
    let b : Token := ⟨.identifier, "b", 1, 17⟩
    let ts : List Token := [x, ⟨.equal, "=", 1, 3⟩, y, ⟨.equal, "=", 1, 7⟩, c]
    let r : Scan := ⟨ts ++ mark :: ([a] ++ colon :: [b]), Scan.finishAt ⟨1, 18⟩, []⟩
    let conditional : Expr := .conditional (.ref ⟨c, none⟩) mark (.ref ⟨a, none⟩) (.ref ⟨b, none⟩)
    ((program s).2 = [] ∧ (bodyConditions (program s).1).length = 2 ∧
      ∀ c ∈ bodyConditions (program s).1, ∀ value ∈ c.assigned?, value.takesMark = false) ∧
    r.tokens = (Scan.ofString "x = y = c ? a : b").tokens ∧
    bareExpression? { r with tokens := ts } =
      some (.assign ⟨x, none⟩ (.assign ⟨y, none⟩ (.ref ⟨c, none⟩) 1) 1) ∧
    ∃ e, bareExpression? r = some e ∧ e.assigned? = some (.assign ⟨y, none⟩ conditional 1) := by
  intro s x y c mark a colon b ts r conditional
  have hs : (program s).2 = [] := by decide +kernel
  have hr : bareExpression? { r with tokens := ts } =
      some (.assign ⟨x, none⟩ (.assign ⟨y, none⟩ (.ref ⟨c, none⟩) 1) 1) := rfl
  refine ⟨⟨hs, by decide +kernel, (assigned_takes_conditional rfl).1 hs⟩, by decide +kernel, hr, ?_⟩
  exact (assigned_takes_conditional (s := r) rfl).2.2 _ _ (.ref ⟨a, none⟩) (.ref ⟨b, none⟩) mark
    colon ts [a] [b] rfl rfl rfl (by decide) rfl hr rfl rfl

theorem lambda_assigned_in_condition :
    let s := Scan.ofString "x = fun () {} ? 1 : 2;"
    (program s).2 = [] ∧ ∃ c ∈ bodyConditions (program s).1, c.assigned?.isSome = true := by
  decide +kernel

end Grammar

end Lox
