import Lox.Proofs.Alike.Variation
import Lox.Eval.Evaluator

namespace Lox

/-- The frames that exist, and what is done to the names around the programs that run in them. -/
structure Naming (V : Variation) where
  known : FrameId → Prop
  names : FrameId → V.Names

def Naming.Later {V : Variation} (W W' : Naming V) : Prop :=
  ∀ id, W.known id → W'.known id ∧ W'.names id = W.names id

structure Closure.Alike {V : Variation} (W : Naming V) (f f' : Closure) : Prop where
  id : f'.id = f.id
  frame : f'.frame = f.frame
  known : W.known f.frame
  function : f.function.Alike V.resolved (W.names f.frame) f'.function
  isInitializer : f'.isInitializer = f.isInitializer

structure Method.Alike {V : Variation} (W : Naming V) (m m' : Method) : Prop where
  frame : m'.frame = m.frame
  known : W.known m.frame
  function : m.function.Alike V.resolved (.cons V.same (W.names m.frame)) m'.function
  isInitializer : m'.isInitializer = m.isInitializer

def Table.Alike {α : Type} (R : α → α → Prop) (t t' : Table α) : Prop :=
  ∀ name, Option.Rel R (t.find? name) (t'.find? name)

inductive Class.Alike {V : Variation} (W : Naming V) : Class → Class → Prop
  | mk {id name parent parent' mc mc' ms ms'} : Option.Rel (Class.Alike W) parent parent' →
      Option.Rel (Class.Alike W) mc mc' → Table.Alike (Method.Alike W) ms ms' →
      Class.Alike W (.mk id name parent mc ms) (.mk id name parent' mc' ms')

mutual

inductive Value.Alike {V : Variation} (W : Naming V) : Value → Value → Prop
  | nil : Value.Alike W .nil .nil
  | bool (b : Bool) : Value.Alike W (.bool b) (.bool b)
  | number (x : Float) : Value.Alike W (.number x) (.number x)
  | string (s : String) : Value.Alike W (.string s) (.string s)
  | list {vs vs'} : AlikeValues W vs vs' → Value.Alike W (.list vs) (.list vs')
  | function {f f'} : f.Alike W f' → Value.Alike W (.function f) (.function f')
  | native (f : Native) : Value.Alike W (.native f) (.native f)
  | cls {c c'} : c.Alike W c' → Value.Alike W (.cls c) (.cls c')
  | object {id c c'} : c.Alike W c' → Value.Alike W (.object ⟨id, c⟩) (.object ⟨id, c'⟩)

inductive AlikeValues {V : Variation} (W : Naming V) : List Value → List Value → Prop
  | nil : AlikeValues W [] []
  | cons {v v' vs vs'} : v.Alike W v' → AlikeValues W vs vs' →
      AlikeValues W (v :: vs) (v' :: vs')

end

variable {V : Variation} {W W' : Naming V}

lemma Naming.Later.refl (W : Naming V) : W.Later W := fun _ h => ⟨h, rfl⟩

lemma Naming.Later.trans {W₁ W₂ W₃ : Naming V} (h : W₁.Later W₂) (h' : W₂.Later W₃) :
    W₁.Later W₃ := fun id hid =>
  have ⟨hknown, hnames⟩ := h id hid
  ⟨(h' id hknown).1, (h' id hknown).2.trans hnames⟩

lemma Closure.Alike.later {f f' : Closure} (h : f.Alike W f') (hl : W.Later W') :
    f.Alike W' f' := by
  refine ⟨h.id, h.frame, (hl _ h.known).1, ?_, h.isInitializer⟩
  rw [(hl _ h.known).2]
  exact h.function

lemma Method.Alike.later {m m' : Method} (h : m.Alike W m') (hl : W.Later W') :
    m.Alike W' m' := by
  refine ⟨h.frame, (hl _ h.known).1, ?_, h.isInitializer⟩
  rw [(hl _ h.known).2]
  exact h.function

mutual

lemma Class.Alike.later (hl : W.Later W') : (c c' : Class) → c.Alike W c' → c.Alike W' c'
  | .mk _ _ parent mc _, _, .mk hp hmc hms =>
    .mk (alikeClass_later hl parent _ hp) (alikeClass_later hl mc _ hmc)
      fun name => optionRel_mono (hms name) fun _ _ hm => hm.later hl

lemma alikeClass_later (hl : W.Later W') : (c c' : Option Class) →
    Option.Rel (Class.Alike W) c c' → Option.Rel (Class.Alike W') c c'
  | none, _, .none => .none
  | some c, _, .some h => .some (h.later hl c _)

end

mutual

lemma Value.Alike.later (hl : W.Later W') : (v v' : Value) → v.Alike W v' → v.Alike W' v'
  | _, _, .nil => .nil
  | _, _, .bool b => .bool b
  | _, _, .number x => .number x
  | _, _, .string s => .string s
  | .list vs, _, .list h => .list (h.later hl vs _)
  | _, _, .function h => .function (h.later hl)
  | _, _, .native f => .native f
  | .cls c, _, .cls h => .cls (h.later hl c _)
  | .object ⟨_, c⟩, _, .object h => .object (h.later hl c _)

lemma AlikeValues.later (hl : W.Later W') :
    (vs vs' : List Value) → AlikeValues W vs vs' → AlikeValues W' vs vs'
  | [], _, .nil => .nil
  | v :: vs, _, .cons h hs => .cons (h.later hl v _) (hs.later hl vs _)

end

lemma Function.Alike.name {ν : V.Names} {f f' : Function} (h : f.Alike V.resolved ν f') :
    f'.name = f.name := h.head.lexeme

lemma Function.Alike.name? {ν : V.Names} {f f' : Function} (h : f.Alike V.resolved ν f') :
    f'.name? = f.name? := by
  rw [Function.name?, Function.name?, h.head.kind, h.name]

lemma Function.Alike.isGetter {ν : V.Names} {f f' : Function} (h : f.Alike V.resolved ν f') :
    f'.isGetter = f.isGetter := by
  cases h with
  | mk _ _ hp _ => cases hp <;> rfl

lemma Function.Alike.arity {ν : V.Names} {f f' : Function} (h : f.Alike V.resolved ν f') :
    f'.arity = f.arity := by
  cases h with
  | mk _ _ hp _ =>
    cases hp with
    | none => rfl
    | some hp => exact hp.length_eq.symm

lemma Closure.Alike.text {f f' : Closure} (h : f.Alike W f') : f'.text = f.text := by
  rw [Closure.text, Closure.text, h.function.name?]

namespace Class.Alike

variable {c c' : Class}

lemma id (h : c.Alike W c') : c'.id = c.id := by
  cases h
  rfl

lemma name (h : c.Alike W c') : c'.name = c.name := by
  cases h
  rfl

lemma superclass? (h : c.Alike W c') :
    Option.Rel (Class.Alike W) c.superclass? c'.superclass? := by
  cases h
  assumption

lemma metaclass? (h : c.Alike W c') :
    Option.Rel (Class.Alike W) c.metaclass? c'.metaclass? := by
  cases h
  assumption

lemma findMethod? (name : String) : (c c' : Class) → c.Alike W c' →
    Option.Rel (Method.Alike W) (c.findMethod? name) (c'.findMethod? name)
  | .mk _ _ none _ _, _, .mk .none _ hms => hms name
  | .mk _ _ (some parent) _ _, _, .mk (.some hp) _ hms =>
    optionRel_or (hms name) (hp.findMethod? name parent _)

lemma arity (h : c.Alike W c') : c'.arity = c.arity := by
  have hm := h.findMethod? "init" c c'
  unfold Class.arity Class.initializer?
  generalize c.findMethod? "init" = m at hm ⊢
  generalize c'.findMethod? "init" = m' at hm ⊢
  cases hm with
  | none => rfl
  | some hm => exact hm.function.arity

end Class.Alike

lemma alikeClass_findMethod? {c c' : Option Class} (h : Option.Rel (Class.Alike W) c c')
    (name : String) : Option.Rel (Method.Alike W) (c.bind (·.findMethod? name))
      (c'.bind (·.findMethod? name)) := by
  cases h with
  | none => exact .none
  | some h => exact h.findMethod? name _ _

namespace Value.Alike

variable {v v' : Value}

lemma isTruthy (h : v.Alike W v') : v'.isTruthy = v.isTruthy := by
  cases h <;> rfl

lemma arity? (h : v.Alike W v') : v'.arity? = v.arity? := by
  cases h with
  | function h => exact congrArg some h.function.arity
  | cls h => exact congrArg some h.arity
  | _ => rfl

lemma fields? (h : v.Alike W v') : Eval.fields? v' = Eval.fields? v := by
  cases h with
  | cls h => exact congrArg some h.id
  | _ => rfl

lemma class? (h : v.Alike W v') :
    Option.Rel (Class.Alike W) (Eval.class? v) (Eval.class? v') := by
  cases h with
  | cls h => exact h.metaclass?
  | object h => exact .some h
  | _ => exact .none

lemma member? (h : v.Alike W v') (name : String) :
    Option.Rel (Method.Alike W) (Eval.member? name v) (Eval.member? name v') :=
  alikeClass_findMethod? h.class? name

end Value.Alike

mutual

lemma Value.Alike.equals : (v v' : Value) → v.Alike W v' → {u u' : Value} → u.Alike W u' →
    v'.equals u' = v.equals u
  | .nil, _, .nil, _, _, hu => by cases hu <;> rfl
  | .bool _, _, .bool _, _, _, hu => by cases hu <;> rfl
  | .number _, _, .number _, _, _, hu => by cases hu <;> rfl
  | .string _, _, .string _, _, _, hu => by cases hu <;> rfl
  | .list vs, _, .list h, _, _, hu => by
    cases hu with
    | list hs => exact h.equalItems vs _ hs
    | _ => rfl
  | .function _, _, .function h, _, _, hu => by
    cases hu with
    | function h' => simp [Value.equals, h.id, h'.id]
    | _ => rfl
  | .native _, _, .native _, _, _, hu => by cases hu <;> rfl
  | .cls _, _, .cls h, _, _, hu => by
    cases hu with
    | cls h' => simp [Value.equals, h.id, h'.id]
    | _ => rfl
  | .object _, _, .object h, _, _, hu => by
    cases hu <;> rfl

lemma AlikeValues.equalItems : (vs vs' : List Value) → AlikeValues W vs vs' →
    {us us' : List Value} → AlikeValues W us us' →
    Value.equalItems vs' us' = Value.equalItems vs us
  | [], _, .nil, _, _, hus => by cases hus <;> rfl
  | v :: vs, _, .cons h hs, _, _, hus => by
    cases hus with
    | nil => rfl
    | cons h' hs' => rw [Value.equalItems, Value.equalItems, h.equals v _ h', hs.equalItems vs _ hs']

end

mutual

lemma Value.Alike.write (quoting : Bool) :
    (v v' : Value) → v.Alike W v' → v'.write quoting = v.write quoting
  | _, _, .nil => rfl
  | _, _, .bool _ => rfl
  | _, _, .number _ => rfl
  | _, _, .string _ => rfl
  | .list vs, _, .list h => by rw [Value.write, Value.write, h.writeItems quoting vs _]
  | _, _, .function h => h.text
  | _, _, .native _ => rfl
  | _, _, .cls h => h.name
  | _, _, .object h => congrArg (· ++ " instance") h.name

lemma AlikeValues.writeItems (quoting : Bool) :
    (vs vs' : List Value) → AlikeValues W vs vs' →
      Value.writeItems quoting vs' = Value.writeItems quoting vs
  | [], _, .nil => rfl
  | v :: vs, _, .cons h hs => by
    rw [Value.writeItems, Value.writeItems, h.write quoting v _, hs.writeItems quoting vs _]

end

mutual

lemma Value.Alike.nestsWithin :
    (v v' : Value) → v.Alike W v' → (levels : Nat) → v'.nestsWithin levels = v.nestsWithin levels
  | _, _, .nil, _ => rfl
  | _, _, .bool _, _ => rfl
  | _, _, .number _, _ => rfl
  | _, _, .string _, _ => rfl
  | .list vs, _, .list h, levels => by
    cases levels with
    | zero => rfl
    | succ levels => exact h.nestItemsWithin vs _ levels
  | _, _, .function _, _ => rfl
  | _, _, .native _, _ => rfl
  | _, _, .cls _, _ => rfl
  | _, _, .object _, _ => rfl

lemma AlikeValues.nestItemsWithin :
    (vs vs' : List Value) → AlikeValues W vs vs' → (levels : Nat) →
      Value.nestItemsWithin levels vs' = Value.nestItemsWithin levels vs
  | [], _, .nil, _ => rfl
  | v :: vs, _, .cons h hs, levels => by
    rw [Value.nestItemsWithin, Value.nestItemsWithin, h.nestsWithin v _ levels,
      hs.nestItemsWithin vs _ levels]

end

end Lox
