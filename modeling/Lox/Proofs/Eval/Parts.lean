import Lox.Proofs.Eval.Placing
import Mathlib.Tactic.Lemma

namespace Lox

namespace Eval

variable {α β : Type} {x : Eval α} {k : α → Eval β} {s s' : Store}

lemma bind_of_ok {a : α} (h : x s = .ok a s') (k : α → Eval β) : (x >>= k) s = k a s' := by
  change EStateM.bind x k s = k a s'
  unfold EStateM.bind
  rw [h]

lemma bind_of_error {e : Abort} (h : x s = .error e s') (k : α → Eval β) :
    (x >>= k) s = .error e s' := by
  change EStateM.bind x k s = .error e s'
  unfold EStateM.bind
  rw [h]

lemma bind_ok {b : β} (h : (x >>= k) s = .ok b s') :
    ∃ a s₁, x s = .ok a s₁ ∧ k a s₁ = .ok b s' := by
  cases hx : x s with
  | ok a s₁ => exact ⟨a, s₁, rfl, (bind_of_ok hx k).symm.trans h⟩
  | error e s₁ => exact nomatch (bind_of_error hx k).symm.trans h

lemma bind_error {e : Abort} (h : (x >>= k) s = .error e s') :
    x s = .error e s' ∨ ∃ a s₁, x s = .ok a s₁ ∧ k a s₁ = .error e s' := by
  cases hx : x s with
  | ok a s₁ => exact .inr ⟨a, s₁, rfl, (bind_of_ok hx k).symm.trans h⟩
  | error e' s₁ =>
    cases (bind_of_error hx k).symm.trans h
    exact .inl rfl

lemma bind_congr {x' : Eval α} {k' : α → Eval β} (hx : x' s = x s)
    (hk : ∀ a s₁, x s = .ok a s₁ → k' a s₁ = k a s₁) : (x' >>= k') s = (x >>= k) s := by
  cases h : x s with
  | ok a s₁ => rw [bind_of_ok h, bind_of_ok (hx.trans h), hk a s₁ h]
  | error e s₁ => rw [bind_of_error h, bind_of_error (hx.trans h)]

lemma pure_ok {a b : α} (h : (pure a : Eval α) s = .ok b s') : a = b := by
  cases h
  rfl

end Eval

inductive Node where
  | expr (e : Expr)
  | stmt (st : Stmt)

def Class.members (isStatic : Bool) (c : Class) : Table Method :=
  if isStatic then (c.metaclass?.map methods).getD .empty else c.methods

def Class.inherited? (parent : Class) (object : Value) (name : String) : Option Method :=
  let owner :=
    match object with
    | .cls _ => parent.metaclass?
    | _ => some parent
  owner.bind (·.findMethod? name)

def Evaluator.accessFound (E : Evaluator) (found : Option Method) (object : Value) (name : Token) :
    Eval Value :=
  match found with
  | some m => E.access m object
  | none => Eval.fail (.undefinedProperty name.lexeme) name

lemma Evaluator.readProperty_eq (E : Evaluator) {object : Value} {id : ObjectId}
    (hid : Eval.fields? object = some id) (name : Token) (s : Store) :
    E.readProperty object name s =
      (match s.field? id name.lexeme with
        | some v => pure v
        | none => E.accessFound (Eval.member? name.lexeme object) object name : Eval Value) s := by
  unfold readProperty
  rw [hid]
  rfl

namespace Eval

lemma ancestor_eq (frame : FrameId) (distance : Nat) (s : Store) :
    ancestor frame distance s =
      (match s.ancestor? frame distance with
        | some holder => pure holder
        | none => defect .depthTooLarge : Eval FrameId) s := rfl

lemma ancestor_of_ancestor? {s : Store} {frame holder : FrameId} {distance : Nat}
    (h : s.ancestor? frame distance = some holder) : ancestor frame distance s = .ok holder s := by
  rw [ancestor_eq, h]
  rfl

def operate (op : Token) (a b : Value) : Eval Value := do
  match ← located op (a.binary op b) with
  | some v => return v
  | none => throw .noRemainder

def proceed (E : Evaluator) (last : Value) (body : List Stmt) : Completion → Eval Value
  | .normal => program E last body
  | .returned v => defect (.escapedReturn v)
  | .broke => defect .escapedBreak

theorem program_cons (st : Stmt) :
    (∃ line value, st = .expression line value) ∨
      ∀ (E : Evaluator) (last : Value) (body : List Stmt), program E last (st :: body) =
        reportingDepth st.firstToken? (E.exec Store.globals st) >>= proceed E last body := by
  cases st with
  | expression line value => exact .inl ⟨line, value, rfl⟩
  | _ => exact .inr fun _ _ _ => rfl

end Eval

end Lox
