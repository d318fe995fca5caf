import Lox.Proofs.Alike.Value

/-! Links between two stores: the frames, functions and classes of the one that stand for those of
the other. Values are linked if they differ in these only, and a program cannot tell them apart. -/

namespace Lox

/-- What stands for what in two stores; the metaclasses stand apart from the other classes. -/
structure Link where
  frames : FrameId → FrameId → Prop
  functions : Nat → Nat → Prop
  classes : (isMeta : Bool) → Class → Class → Prop

structure Closure.Linked (L : Link) (f f' : Closure) : Prop where
  id : L.functions f.id f'.id
  function : f'.function = f.function
  frame : L.frames f.frame f'.frame
  isInitializer : f'.isInitializer = f.isInitializer

structure Method.Linked (L : Link) (m m' : Method) : Prop where
  function : m'.function = m.function
  frame : L.frames m.frame m'.frame
  isInitializer : m'.isInitializer = m.isInitializer

structure Class.Linked (L : Link) (isMeta : Bool) (c c' : Class) : Prop where
  id : c'.id = c.id
  name : c'.name = c.name
  superclass : Option.Rel (L.classes isMeta) c.superclass? c'.superclass?
  metaclass : Option.Rel (L.classes true) c.metaclass? c'.metaclass?
  hasMetaclass : c.metaclass?.isSome = !isMeta
  methods : Table.Alike (Method.Linked L) c.methods c'.methods

inductive Value.Linked (L : Link) : Value → Value → Prop
  | nil : Value.Linked L .nil .nil
  | bool (b : Bool) : Value.Linked L (.bool b) (.bool b)
  | number (x : Float) : Value.Linked L (.number x) (.number x)
  | string (s : String) : Value.Linked L (.string s) (.string s)
  | list {vs vs'} : List.Forall₂ (Value.Linked L) vs vs' → Value.Linked L (.list vs) (.list vs')
  | function {f f'} : f.Linked L f' → Value.Linked L (.function f) (.function f')
  | native (f : Native) : Value.Linked L (.native f) (.native f)
  | cls {c c'} : L.classes false c c' → Value.Linked L (.cls c) (.cls c')
  | object {id c c'} : L.classes false c c' → Value.Linked L (.object ⟨id, c⟩) (.object ⟨id, c'⟩)

structure Link.Sound (L : Link) : Prop where
  frames : ∀ {i i' j j'}, L.frames i i' → L.frames j j' → (i = j ↔ i' = j')
  functions : ∀ {i i' j j'}, L.functions i i' → L.functions j j' → (i = j ↔ i' = j')
  classes : ∀ {isMeta c c'}, L.classes isMeta c c' → c.Linked L isMeta c'

structure Link.Sub (L L' : Link) : Prop where
  frames : ∀ {i i'}, L.frames i i' → L'.frames i i'
  functions : ∀ {i i'}, L.functions i i' → L'.functions i i'
  classes : ∀ {isMeta c c'}, L.classes isMeta c c' → L'.classes isMeta c c'

lemma exists_of_optionRel {α β : Type} {R : α → β → Prop} {x : Option α} {y : Option β} {a : α}
    (h : Option.Rel R x y) (hx : x = some a) : ∃ b, y = some b ∧ R a b := by
  cases h with
  | none => cases hx
  | some h =>
    cases hx
    exact ⟨_, rfl, h⟩

variable {L L' : Link}

lemma Link.Sub.refl (L : Link) : L.Sub L := ⟨id, id, id⟩

lemma Link.Sub.trans {L'' : Link} (h : L.Sub L') (h' : L'.Sub L'') : L.Sub L'' where
  frames hi := h'.frames (h.frames hi)
  functions hi := h'.functions (h.functions hi)
  classes hc := h'.classes (h.classes hc)

lemma Closure.Linked.mono {f f' : Closure} (h : f.Linked L f') (hl : L.Sub L') :
    f.Linked L' f' := ⟨hl.functions h.id, h.function, hl.frames h.frame, h.isInitializer⟩

lemma Method.Linked.mono {m m' : Method} (h : m.Linked L m') (hl : L.Sub L') :
    m.Linked L' m' := ⟨h.function, hl.frames h.frame, h.isInitializer⟩

lemma Class.Linked.mono {isMeta : Bool} {c c' : Class} (h : c.Linked L isMeta c')
    (hl : L.Sub L') : c.Linked L' isMeta c' where
  id := h.id
  name := h.name
  superclass := optionRel_mono h.superclass fun _ _ hc => hl.classes hc
  metaclass := optionRel_mono h.metaclass fun _ _ hc => hl.classes hc
  hasMetaclass := h.hasMetaclass
  methods name := optionRel_mono (h.methods name) fun _ _ hm => hm.mono hl

mutual

lemma Value.Linked.mono (hl : L.Sub L') : (v v' : Value) → v.Linked L v' → v.Linked L' v'
  | _, _, .nil => .nil
  | _, _, .bool b => .bool b
  | _, _, .number x => .number x
  | _, _, .string s => .string s
  | .list vs, _, .list h => .list (linkedValues_mono hl vs _ h)
  | _, _, .function h => .function (h.mono hl)
  | _, _, .native f => .native f
  | _, _, .cls h => .cls (hl.classes h)
  | _, _, .object h => .object (hl.classes h)

lemma linkedValues_mono (hl : L.Sub L') : (vs vs' : List Value) →
    List.Forall₂ (Value.Linked L) vs vs' → List.Forall₂ (Value.Linked L') vs vs'
  | [], _, .nil => .nil
  | v :: vs, _, .cons h hs => .cons (h.mono hl v _) (linkedValues_mono hl vs _ hs)

end

namespace Class.Linked

lemma findMethod? (hL : L.Sound) {isMeta : Bool} (name : String) : (c c' : Class) →
    L.classes isMeta c c' →
    Option.Rel (Method.Linked L) (c.findMethod? name) (c'.findMethod? name)
  | .mk _ _ none _ _, .mk _ _ parent' _ _, hc => by
    have h := hL.classes hc
    have hsuper := h.superclass
    cases parent' with
    | none => exact h.methods name
    | some parent' => cases hsuper
  | .mk _ _ (some parent) _ _, .mk _ _ parent' _ _, hc => by
    have h := hL.classes hc
    have hsuper := h.superclass
    cases parent' with
    | none => cases hsuper
    | some parent' =>
      cases hsuper with
      | some hp => exact optionRel_or (h.methods name) (findMethod? hL name parent parent' hp)

lemma findIn? (hL : L.Sound) {isMeta : Bool} {c c' : Option Class}
    (h : Option.Rel (L.classes isMeta) c c') (name : String) :
    Option.Rel (Method.Linked L) (c.bind (·.findMethod? name)) (c'.bind (·.findMethod? name)) := by
  cases h with
  | none => exact .none
  | some hc => exact findMethod? hL name _ _ hc

lemma arity (hL : L.Sound) {c c' : Class} (hc : L.classes false c c') : c'.arity = c.arity := by
  have hm := findMethod? hL "init" c c' hc
  unfold Class.arity Class.initializer?
  generalize c.findMethod? "init" = m at hm ⊢
  generalize c'.findMethod? "init" = m' at hm ⊢
  cases hm with
  | none => rfl
  | some hm => simp only [Option.map_some, Option.getD_some, hm.function]

end Class.Linked

namespace Value.Linked

variable {v v' : Value}

lemma isTruthy (h : v.Linked L v') : v'.isTruthy = v.isTruthy := by
  cases h <;> rfl

lemma arity? (h : v.Linked L v') (hL : L.Sound) : v'.arity? = v.arity? := by
  cases h with
  | function h => exact congrArg (fun f : Function => some f.arity) h.function
  | cls h => exact congrArg some (Class.Linked.arity hL h)
  | _ => rfl

lemma fields? (h : v.Linked L v') (hL : L.Sound) : Eval.fields? v' = Eval.fields? v := by
  cases h with
  | cls h => exact congrArg some (hL.classes h).id
  | _ => rfl

lemma member? (h : v.Linked L v') (hL : L.Sound) (name : String) :
    Option.Rel (Method.Linked L) (Eval.member? name v) (Eval.member? name v') := by
  cases h with
  | cls h => exact Class.Linked.findIn? hL (hL.classes h).metaclass name
  | object h => exact Class.Linked.findIn? hL (.some h) name
  | _ => exact .none

end Value.Linked

lemma Closure.Linked.text {f f' : Closure} (h : f.Linked L f') : f'.text = f.text := by
  rw [Closure.text, Closure.text, h.function]

mutual

lemma Value.Linked.equals (hL : L.Sound) : (v v' : Value) → v.Linked L v' → {u u' : Value} →
    u.Linked L u' → v'.equals u' = v.equals u
  | .nil, _, .nil, _, _, hu => by cases hu <;> rfl
  | .bool _, _, .bool _, _, _, hu => by cases hu <;> rfl
  | .number _, _, .number _, _, _, hu => by cases hu <;> rfl
  | .string _, _, .string _, _, _, hu => by cases hu <;> rfl
  | .list vs, _, .list h, _, _, hu => by
    cases hu with
    | list hs => exact linkedValues_equalItems hL vs _ h hs
    | _ => rfl
  | .function f, .function f', .function h, _, _, hu => by
    cases hu with
    | @function g g' h' =>
      simp only [Value.equals, Bool.beq_eq_decide_eq, decide_eq_decide]
      exact (hL.functions h.id h'.id).symm
    | _ => rfl
  | .native _, _, .native _, _, _, hu => by cases hu <;> rfl
  | .cls _, _, .cls h, _, _, hu => by
    cases hu with
    | cls h' => simp only [Value.equals, (hL.classes h).id, (hL.classes h').id]
    | _ => rfl
  | .object _, _, .object h, _, _, hu => by cases hu <;> rfl

lemma linkedValues_equalItems (hL : L.Sound) : (vs vs' : List Value) →
    List.Forall₂ (Value.Linked L) vs vs' → {us us' : List Value} →
    List.Forall₂ (Value.Linked L) us us' →
    Value.equalItems vs' us' = Value.equalItems vs us
  | [], _, .nil, _, _, hus => by cases hus <;> rfl
  | v :: vs, _, .cons h hs, _, _, hus => by
    cases hus with
    | nil => rfl
    | cons h' hs' =>
      rw [Value.equalItems, Value.equalItems, h.equals hL v _ h',
        linkedValues_equalItems hL vs _ hs hs']

end

mutual

lemma Value.Linked.write (hL : L.Sound) (quoting : Bool) :
    (v v' : Value) → v.Linked L v' → v'.write quoting = v.write quoting
  | _, _, .nil => rfl
  | _, _, .bool _ => rfl
  | _, _, .number _ => rfl
  | _, _, .string _ => rfl
  | .list vs, _, .list h => by
    rw [Value.write, Value.write, linkedValues_writeItems hL quoting vs _ h]
  | _, _, .function h => h.text
  | _, _, .native _ => rfl
  | _, _, .cls h => (hL.classes h).name
  | _, _, .object h => congrArg (· ++ " instance") (hL.classes h).name

lemma linkedValues_writeItems (hL : L.Sound) (quoting : Bool) : (vs vs' : List Value) →
    List.Forall₂ (Value.Linked L) vs vs' →
    Value.writeItems quoting vs' = Value.writeItems quoting vs
  | [], _, .nil => rfl
  | v :: vs, _, .cons h hs => by
    rw [Value.writeItems, Value.writeItems, h.write hL quoting v _,
      linkedValues_writeItems hL quoting vs _ hs]

end

mutual

lemma Value.Linked.nestsWithin : (v v' : Value) → v.Linked L v' → (levels : Nat) →
    v'.nestsWithin levels = v.nestsWithin levels
  | _, _, .nil, _ => rfl
  | _, _, .bool _, _ => rfl
  | _, _, .number _, _ => rfl
  | _, _, .string _, _ => rfl
  | .list _, _, .list _, 0 => rfl
  | .list vs, _, .list h, levels + 1 => linkedValues_nestWithin vs _ h levels
  | _, _, .function _, _ => rfl
  | _, _, .native _, _ => rfl
  | _, _, .cls _, _ => rfl
  | _, _, .object _, _ => rfl

lemma linkedValues_nestWithin : (vs vs' : List Value) → List.Forall₂ (Value.Linked L) vs vs' →
    (levels : Nat) → Value.nestItemsWithin levels vs' = Value.nestItemsWithin levels vs
  | [], _, .nil, _ => rfl
  | v :: vs, _, .cons h hs, levels => by
    rw [Value.nestItemsWithin, Value.nestItemsWithin, h.nestsWithin v _ levels,
      linkedValues_nestWithin vs _ hs levels]

end

end Lox
