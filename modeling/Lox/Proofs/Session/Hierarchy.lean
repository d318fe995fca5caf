import Lox.Proofs.Eval.Parts
import Lox.Proofs.Link.Session

/-! Hierarchies of classes: every class stands below older ones, the class of a class stands in the
same place as it does, and members are taken from the nearest class that declares them. -/

namespace Lox

namespace Class

def ancestry : Class → List Class
  | c@(mk _ _ none _ _) => [c]
  | c@(mk _ _ (some parent) _ _) => c :: parent.ancestry

def nearest? (isStatic : Bool) (name : String) (c : Class) : Option Method :=
  c.ancestry.findSome? fun d => (d.members isStatic).find? name

lemma findMethod?_eq_nearest? (name : String) :
    (c : Class) → c.findMethod? name = c.nearest? false name
  | mk id own none mc ms => by
    change ms.find? name = List.findSome? _ [_]
    simp [members, methods]
  | mk id own (some parent) mc ms => by
    change (ms.find? name).or (parent.findMethod? name) = List.findSome? _ (_ :: parent.ancestry)
    rw [findMethod?_eq_nearest? name parent, List.findSome?_cons, nearest?]
    cases h : ms.find? name <;> simp [members, methods, h]

variable {c mc parent pmc : Class}

lemma ancestry_metaclass (hmeta : c.metaclass? = some mc) (hparent : c.superclass? = some parent)
    (hpmc : mc.superclass? = some pmc)
    (h : pmc.ancestry.map some = parent.ancestry.map metaclass?) :
    mc.ancestry.map some = c.ancestry.map metaclass? := by
  obtain ⟨_, _, _, _, _⟩ := c
  obtain ⟨_, _, _, _, _⟩ := mc
  cases hparent
  cases hpmc
  cases hmeta
  exact congrArg (List.cons _) h

lemma ancestry_metaclass_root (hmeta : c.metaclass? = some mc) (hparent : c.superclass? = none)
    (hpmc : mc.superclass? = none) : mc.ancestry.map some = c.ancestry.map metaclass? := by
  obtain ⟨_, _, _, _, _⟩ := c
  obtain ⟨_, _, _, _, _⟩ := mc
  cases hparent
  cases hpmc
  cases hmeta
  rfl

lemma findMethod?_of_ancestry (h : mc.ancestry.map some = c.ancestry.map metaclass?)
    (name : String) : mc.findMethod? name = c.nearest? true name := by
  have hfind : ∀ (ms cs : List Class), ms.map some = cs.map metaclass? →
      ms.findSome? (fun d => (d.members false).find? name) =
        cs.findSome? fun d => (d.members true).find? name := by
    intro ms
    induction ms with
    | nil =>
      intro cs hcs
      rw [List.map_eq_nil_iff.mp hcs.symm]
      rfl
    | cons m ms ih =>
      intro cs hcs
      obtain ⟨d, ds, rfl, hd, hds⟩ := List.map_eq_cons_iff.mp hcs.symm
      have hmembers : d.members true = m.members false := by simp [members, hd]
      rw [List.findSome?_cons, List.findSome?_cons, ih ds hds.symm, hmembers]
  rw [findMethod?_eq_nearest?, nearest?, nearest?]
  exact hfind _ _ h

structure HasMetaclass (c mc : Class) : Prop where
  metaclass : c.metaclass? = some mc
  superclass : mc.superclass? = c.superclass?.bind metaclass?
  root : mc.superclass? = none ↔ c.superclass? = none
  ancestry : mc.ancestry.map some = c.ancestry.map metaclass?
  declared : ∃ inside methods statics, c.methods = Evaluator.memberTable inside false methods ∧
    mc.methods = Evaluator.memberTable inside true statics
  last : mc.metaclass? = none

lemma HasMetaclass.findMethod?_eq (h : c.HasMetaclass mc) (name : String) :
    mc.findMethod? name = c.nearest? true name :=
  findMethod?_of_ancestry h.ancestry name

end Class

inductive Value.Holds (c : Class) : Value → Prop where
  | cls : Value.Holds c (.cls c)
  | object (id : ObjectId) : Value.Holds c (.object ⟨id, c⟩)
  | item {items : List Value} {v : Value} (hv : v ∈ items) (h : v.Holds c) :
    Value.Holds c (.list items)

/-- The classes that a value or the store holds, and those that they extend. -/
inductive Store.Knows (s : Store) (v : Value) : Class → Prop where
  | value {c : Class} (h : v.Holds c) : s.Knows v c
  | binding {c : Class} {id : FrameId} {name : String} {x : Variable}
      (hx : s.lookup? id name = some x) (h : x.value.Holds c) : s.Knows v c
  | field {c : Class} {id : ObjectId} {name : String} {u : Value}
      (hu : s.field? id name = some u) (h : u.Holds c) : s.Knows v c
  | superclass {c parent : Class} (h : s.Knows v c) (hparent : c.superclass? = some parent) :
    s.Knows v parent

/-- The classes that are known in a store and their metaclasses. From each of them the way upward
leads to older and older ones, and so it ends. Classes with the same place are one, and no metaclass
is known itself. -/
structure Store.Parallel (v : Value) (s : Store) : Prop where
  descends : ∀ c mc, s.Knows v c → c.metaclass? = some mc →
    mc.id < c.id ∧ c.id < s.fields.size ∧
    (c.ancestry.map Class.id).Pairwise (· > ·) ∧ c.ancestry.length ≤ s.fields.size ∧
    (mc.ancestry.map Class.id).Pairwise (· > ·) ∧ mc.ancestry.length ≤ s.fields.size
  single : ∀ c d, s.Knows v c → s.Knows v d → c.id = d.id → c = d
  apart : ∀ c d mc, s.Knows v c → s.Knows v d → d.metaclass? = some mc → c.id ≠ mc.id
  metaclass : ∀ c, s.Knows v c → ∃ mc, c.HasMetaclass mc

variable {K : Link.Terms} {L : Link} {s t : Store} {v v' : Value} {c : Class}

lemma linkedValues_mem {vs vs' : List Value} (h : List.Forall₂ (Value.Linked L) vs vs')
    (hv : v ∈ vs) : ∃ v', v.Linked L v' := by
  induction h with
  | nil => cases hv
  | cons hu _ ih =>
    rcases List.mem_cons.mp hv with rfl | hv
    · exact ⟨_, hu⟩
    · exact ih hv

lemma Value.Holds.linked (h : v.Holds c) (hv : v.Linked L v') : ∃ c', L.classes false c c' := by
  induction h generalizing v' with
  | cls =>
    cases hv with
    | cls hc => exact ⟨_, hc⟩
  | object id =>
    cases hv with
    | object hc => exact ⟨_, hc⟩
  | item hmem _ ih =>
    cases hv with
    | list hs =>
      obtain ⟨u', hu⟩ := linkedValues_mem hs hmem
      exact ih hu

lemma Store.Knows.linked (h : s.Knows v c) (hs : s.Linked K L t) (hv : v.Linked L v') :
    ∃ c', L.classes false c c' := by
  induction h with
  | value h => exact h.linked hv
  | @binding c id name x hx h =>
    have hbinds : s.binds id name := by
      rw [binds_eq, hx]
      rfl
    obtain ⟨id', hid'⟩ := hs.total id (lt_of_binds hbinds)
    obtain ⟨_, -, hx'⟩ := exists_of_optionRel (Store.Linked.lookup? hs hid' name) hx
    exact h.linked hx'.value
  | @field c id name u hu h =>
    obtain ⟨_, -, hu'⟩ := exists_of_optionRel (hs.field? id name) hu
    exact h.linked hu'
  | superclass _ hparent ih =>
    obtain ⟨c', hc⟩ := ih
    obtain ⟨parent', -, hp⟩ := exists_of_optionRel (hs.sound.classes hc).superclass hparent
    exact ⟨parent', hp⟩

lemma Store.Linked.ancestry_descends (hs : s.Linked K L t) {isMeta : Bool} :
    (c : Class) → (c' : Class) → L.classes isMeta c c' →
      (c.ancestry.map Class.id).Pairwise (· > ·) ∧
        (∀ d ∈ c.ancestry, d.id ≤ c.id) ∧ c.ancestry.length ≤ c.id + 1
  | .mk id name none mc ms, _, _ => by
    refine ⟨List.pairwise_singleton _ _, fun d hd => ?_, ?_⟩
    · exact Nat.le_of_eq (congrArg Class.id (List.mem_singleton.mp hd))
    · exact Nat.le_add_left 1 id
  | .mk id name (some parent) mc ms, c', hc => by
    have holder : parent.id < id := hs.older hc parent (.inl rfl)
    obtain ⟨parent', -, hp⟩ := exists_of_optionRel (hs.sound.classes hc).superclass rfl
    obtain ⟨hpairwise, hbelow, hlength⟩ := ancestry_descends hs parent parent' hp
    refine ⟨List.pairwise_cons.mpr ⟨fun i hi => ?_, hpairwise⟩, fun d hd => ?_, ?_⟩
    · obtain ⟨d, hd, rfl⟩ := List.mem_map.mp hi
      exact Nat.lt_of_le_of_lt (hbelow d hd) holder
    · rcases List.mem_cons.mp hd with rfl | hd
      · exact Nat.le_refl _
      · exact Nat.le_of_lt (Nat.lt_of_le_of_lt (hbelow d hd) holder)
    · exact Nat.succ_le_succ (Nat.le_trans hlength holder)

lemma Store.Linked.exists_metaclass (hs : s.Linked K L t) {c c' : Class}
    (hc : L.classes false c c') : ∃ mc mc', c.metaclass? = some mc ∧ L.classes true mc mc' := by
  have hsome := (hs.sound.classes hc).hasMetaclass
  obtain ⟨mc, hmc⟩ := Option.isSome_iff_exists.mp hsome
  obtain ⟨mc', -, hlink⟩ := exists_of_optionRel (hs.sound.classes hc).metaclass hmc
  exact ⟨mc, mc', hmc, hlink⟩

lemma Store.Linked.metaclass?_eq_none (hs : s.Linked K L t) {mc mc' : Class}
    (hmc : L.classes true mc mc') : mc.metaclass? = none := by
  have hnone := (hs.sound.classes hmc).hasMetaclass
  simpa using hnone

lemma Store.Linked.hasMetaclass (hs : s.Linked K L t) : (c : Class) → (c' : Class) →
    L.classes false c c' → ∃ mc, c.HasMetaclass mc
  | .mk id name none own ms, c', hc => by
    obtain ⟨mc, mc', hmeta, hmc⟩ := hs.exists_metaclass hc
    obtain ⟨hsuper, hdeclared⟩ := hs.parallel hc mc hmeta
    exact ⟨mc, hmeta, hsuper, iff_of_true hsuper rfl,
      Class.ancestry_metaclass_root hmeta rfl hsuper, hdeclared, hs.metaclass?_eq_none hmc⟩
  | .mk id name (some parent) own ms, c', hc => by
    obtain ⟨mc, mc', hmeta, hmc⟩ := hs.exists_metaclass hc
    obtain ⟨hsuper, hdeclared⟩ := hs.parallel hc mc hmeta
    obtain ⟨parent', -, hp⟩ := exists_of_optionRel (hs.sound.classes hc).superclass rfl
    obtain ⟨pmc, hpmc⟩ := hasMetaclass hs parent parent' hp
    have habove : mc.superclass? = some pmc := hsuper.trans hpmc.metaclass
    refine ⟨mc, hmeta, hsuper, iff_of_false (fun h => ?_) (fun h => ?_),
      Class.ancestry_metaclass hmeta rfl habove hpmc.ancestry, hdeclared, hs.metaclass?_eq_none hmc⟩
    · cases habove.symm.trans h
    · cases h

lemma Store.Linked.parallel (hs : s.Linked K L t) (hv : v.Linked L v') : s.Parallel v where
  descends c mc hc hmeta := by
    obtain ⟨c', hc'⟩ := hc.linked hs hv
    obtain ⟨mc', -, hmc'⟩ := exists_of_optionRel (hs.sound.classes hc').metaclass hmeta
    have hbefore : mc.id < c.id := hs.older hc' mc (.inr hmeta)
    have hplace : c.id < s.fields.size := hs.classes hc'
    obtain ⟨hpairwise, -, hlength⟩ := ancestry_descends hs c c' hc'
    obtain ⟨hpairwise', -, hlength'⟩ := ancestry_descends hs mc mc' hmc'
    refine ⟨hbefore, hplace, hpairwise, ?_, hpairwise', ?_⟩
    · exact Nat.le_trans hlength hplace
    · exact Nat.le_trans hlength' (Nat.lt_trans hbefore hplace)
  single c d hc hd hid := by
    obtain ⟨c', hc'⟩ := hc.linked hs hv
    obtain ⟨d', hd'⟩ := hd.linked hs hv
    exact (hs.unique hc' hd' hid).1
  apart c d mc hc hd hmeta hid := by
    obtain ⟨c', hc'⟩ := hc.linked hs hv
    obtain ⟨d', hd'⟩ := hd.linked hs hv
    obtain ⟨mc', -, hmc'⟩ := exists_of_optionRel (hs.sound.classes hd').metaclass hmeta
    obtain ⟨rfl, -⟩ := hs.unique hc' hmc' hid
    obtain ⟨_, _, hown, -⟩ := hs.exists_metaclass hc'
    cases hown.symm.trans (hs.metaclass?_eq_none hmc')
  metaclass c hc := by
    obtain ⟨c', hc'⟩ := hc.linked hs hv
    exact hs.hasMetaclass c c' hc'

def Value.superclass? : Value → Option Class
  | .cls c => c.superclass?
  | _ => none

/-- Reads the nearest member of a name, with its receiver. -/
def Evaluator.accessNearest (E : Evaluator) (isStatic : Bool) (c : Class) (receiver : Value)
    (name : Token) : Eval Value :=
  E.accessFound (c.nearest? isStatic name.lexeme) receiver name

lemma Evaluator.readProperty_cls (E : Evaluator) {mc : Class} (hmc : c.HasMetaclass mc)
    {name : Token} (hfield : s.field? c.id name.lexeme = none) :
    E.readProperty (.cls c) name s = E.accessNearest true c (.cls c) name s := by
  have hmember : Eval.member? name.lexeme (.cls c) = c.nearest? true name.lexeme := by
    rw [← hmc.findMethod?_eq, Eval.member?, Eval.class?, hmc.metaclass, Option.bind_some]
  rw [accessNearest, ← hmember, E.readProperty_eq rfl, hfield]

lemma Evaluator.readProperty_object (E : Evaluator) {id : ObjectId} {name : Token}
    (hfield : s.field? id name.lexeme = none) :
    E.readProperty (.object ⟨id, c⟩) name s =
      E.accessNearest false c (.object ⟨id, c⟩) name s := by
  rw [accessNearest, ← Class.findMethod?_eq_nearest?, E.readProperty_eq rfl, hfield]
  rfl

end Lox
