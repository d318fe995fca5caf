import Lox.Proofs.Alike.Store
import Lox.Proofs.Link.Value

namespace Lox

structure Variable.Linked (L : Link) (x x' : Variable) : Prop where
  value : x.value.Linked L x'.value
  assigned : x'.assigned = x.assigned

structure Class.IsParallel (c mc : Class) : Prop where
  superclass : mc.superclass? = c.superclass?.bind metaclass?
  declared : ∃ inside methods statics, c.methods = Evaluator.memberTable inside false methods ∧
    mc.methods = Evaluator.memberTable inside true statics

structure Link.Terms where
  hidden : FrameId → Frame → Prop
  -- Whether everything stands for itself.
  same : Prop

structure Link.Diagonal (L : Link) : Prop where
  frames : ∀ {i i'}, L.frames i i' → i' = i
  functions : ∀ {i i'}, L.functions i i' → i' = i
  classes : ∀ {isMeta c c'}, L.classes isMeta c c' → c' = c

structure Store.LinkedBut (stale : List String) (K : Link.Terms) (L : Link) (s t : Store) : Prop where
  sound : L.Sound
  globals : L.frames Store.globals Store.globals
  total : ∀ i < s.frames.size, ∃ i', L.frames i i'
  frames : ∀ {i i'}, L.frames i i' → i < s.frames.size ∧ i' < t.frames.size
  parent? : ∀ {i i'}, L.frames i i' → Option.Rel L.frames (s.parent? i) (t.parent? i')
  lookup? : ∀ {i i'}, L.frames i i' → ∀ name, (i = Store.globals → name ∉ stale) →
    Option.Rel (Variable.Linked L) (s.lookup? i name) (t.lookup? i' name)
  hidden : ∀ {i f}, K.hidden i f → t.frames[i]? = some f ∧ ∀ j, ¬ L.frames j i
  functions : ∀ {i i'}, L.functions i i' → i < s.functions ∧ i' < t.functions
  sizeFields : t.fields.size = s.fields.size
  field? : ∀ id name, Option.Rel (Value.Linked L) (s.field? id name) (t.field? id name)
  classes : ∀ {isMeta c c'}, L.classes isMeta c c' → c.id < s.fields.size
  older : ∀ {isMeta c c'}, L.classes isMeta c c' → ∀ d,
    c.superclass? = some d ∨ c.metaclass? = some d → d.id < c.id
  parallel : ∀ {isMeta c c'}, L.classes isMeta c c' → ∀ mc, c.metaclass? = some mc → c.IsParallel mc
  unique : ∀ {isMeta isMeta' c c' d d'}, L.classes isMeta c c' → L.classes isMeta' d d' →
    c.id = d.id → c = d ∧ c' = d'
  same : K.same → t.frames.size = s.frames.size ∧ t.functions = s.functions ∧ L.Diagonal
  time : t.time = s.time
  output : t.output = s.output

abbrev Store.Linked (K : Link.Terms) (L : Link) (s t : Store) : Prop := s.LinkedBut [] K L t

variable {stale : List String} {K : Link.Terms} {L L' : Link} {s t : Store}

lemma Variable.Linked.mono {x x' : Variable} (h : x.Linked L x') (hl : L.Sub L') :
    x.Linked L' x' := ⟨h.value.mono hl _ _, h.assigned⟩

theorem oneToOne_insert {R : Nat → Nat → Prop} {n n' : Nat}
    (hlt : ∀ {i i'}, R i i' → i < n ∧ i' < n')
    (h : ∀ {i i' j j'}, R i i' → R j j' → (i = j ↔ i' = j')) {i i' j j' : Nat}
    (hi : R i i' ∨ i = n ∧ i' = n') (hj : R j j' ∨ j = n ∧ j' = n') : i = j ↔ i' = j' := by
  rcases hi with hi | ⟨rfl, rfl⟩ <;> rcases hj with hj | ⟨rfl, rfl⟩
  · exact h hi hj
  · exact iff_of_false (Nat.ne_of_lt (hlt hi).1) (Nat.ne_of_lt (hlt hi).2)
  · exact iff_of_false (Nat.ne_of_gt (hlt hj).1) (Nat.ne_of_gt (hlt hj).2)
  · exact iff_of_true rfl rfl

namespace Store

lemma getElem?_define (s : Store) {id other : FrameId} (h : other ≠ id) (name : String)
    (x : Variable) : (s.define id name x).frames[other]? = s.frames[other]? := by
  unfold define
  rw [Array.getElem?_modify, if_neg h.symm]

lemma field?_newFields (s : Store) (id : ObjectId) (name : String) :
    s.newFields.2.field? id name = s.field? id name := by
  unfold field? newFields
  rw [Array.getElem?_push]
  split
  · next heq =>
    subst heq
    rw [Array.getElem?_eq_none (Nat.le_refl _)]
    rfl
  · rfl

lemma field?_setField (s : Store) (id other : ObjectId) (name name' : String) (v : Value) :
    (s.setField id name v).field? other name' =
      if id = other ∧ name = name' ∧ id < s.fields.size then some v else s.field? other name' := by
  unfold field? setField
  rw [Array.getElem?_modify]
  by_cases hid : id = other
  · subst hid
    by_cases hlt : id < s.fields.size
    · rw [Array.getElem?_eq_getElem hlt]
      simp only [hlt, if_pos, Option.map_some, Option.bind_some, Table.find?_put, true_and,
        and_true]
    · simp [hlt]
  · simp [hid]

end Store

namespace Store.LinkedBut

theorem mono {stale' : List String} (h : s.LinkedBut stale K L t) (hsub : stale ⊆ stale') :
    s.LinkedBut stale' K L t :=
  { h with lookup? := fun hi name hname => h.lookup? hi name fun hg hmem => hname hg (hsub hmem) }

theorem define {stale' : List String} (h : s.LinkedBut stale K L t) {i i' : FrameId}
    (hi : L.frames i i') {x x' : Variable} (hx : x.Linked L x') {name : String}
    (hstale : ∀ n ∈ stale, n ∈ stale' ∨ i = Store.globals ∧ n = name) :
    (s.define i name x).LinkedBut stale' K L (t.define i' name x') :=
  { h with
    total := fun j hj => h.total j (by rwa [size_define] at hj)
    frames := fun hj => by
      rw [size_define, size_define]
      exact h.frames hj
    parent? := fun hj => by
      rw [parent?_define, parent?_define]
      exact h.parent? hj
    lookup? := fun {j j'} hj name' hname' => by
      have hij := h.sound.frames hi hj
      rw [lookup?_define, lookup?_define]
      by_cases heq : i = j ∧ name = name'
      · rw [if_pos ⟨heq.1, heq.2, (h.frames hi).1⟩,
          if_pos ⟨hij.mp heq.1, heq.2, (h.frames hi).2⟩]
        exact .some hx
      · rw [if_neg fun hc => heq ⟨hc.1, hc.2.1⟩, if_neg fun hc => heq ⟨hij.mpr hc.1, hc.2.1⟩]
        refine h.lookup? hj name' fun hg hmem => ?_
        rcases hstale name' hmem with hmem | ⟨hig, hn⟩
        · exact hname' hg hmem
        · exact heq ⟨hig.trans hg.symm, hn.symm⟩
    hidden := fun {j f} hj => by
      obtain ⟨hframe, hnone⟩ := h.hidden hj
      have hne : j ≠ i' := fun heq => hnone i (heq ▸ hi)
      exact ⟨(getElem?_define t hne name x').trans hframe, hnone⟩
    same := fun hs => by
      rw [size_define, size_define]
      exact h.same hs }

theorem define_left (h : s.LinkedBut stale K L t) {name : String} (hname : name ∈ stale)
    (x : Variable) : (s.define Store.globals name x).LinkedBut stale K L t :=
  { h with
    total := fun j hj => h.total j (by rwa [size_define] at hj)
    frames := fun hj => by
      rw [size_define]
      exact h.frames hj
    parent? := fun hj => by
      rw [parent?_define]
      exact h.parent? hj
    lookup? := fun {j j'} hj name' hname' => by
      have hne : ¬ (Store.globals = j ∧ name = name' ∧ Store.globals < s.frames.size) :=
        fun hc => hname' hc.1.symm (hc.2.1 ▸ hname)
      rw [lookup?_define, if_neg hne]
      exact h.lookup? hj name' hname'
    same := fun hs => by
      rw [size_define]
      exact h.same hs }

lemma printLine (h : s.LinkedBut stale K L t) (text : String) :
    (s.printLine text).LinkedBut stale K L (t.printLine text) :=
  { h with output := by rw [Store.printLine, Store.printLine, h.output] }

theorem newFunction (h : s.LinkedBut stale K L t) :
    ∃ L', L.Sub L' ∧ L'.functions s.functions t.functions ∧ L'.frames = L.frames ∧
      s.newFunction.2.LinkedBut stale K L' t.newFunction.2 := by
  let L' : Link :=
    { L with functions := fun i i' => L.functions i i' ∨ i = s.functions ∧ i' = t.functions }
  have hl : L.Sub L' := ⟨id, .inl, id⟩
  have hsound : L'.Sound :=
    { frames := h.sound.frames
      functions := oneToOne_insert h.functions h.sound.functions
      classes := fun hc => (h.sound.classes hc).mono hl }
  refine ⟨L', hl, .inr ⟨rfl, rfl⟩, rfl, { h with
    sound := hsound
    lookup? := fun hi name hname => optionRel_mono (h.lookup? hi name hname) fun _ _ hx => hx.mono hl
    functions := fun {i i'} hi => ?_
    field? := fun id name => optionRel_mono (h.field? id name) fun _ _ hv => hv.mono hl _ _
    same := fun hs => ?_ }⟩
  · rcases hi with hi | ⟨rfl, rfl⟩
    · have hlt := h.functions hi
      exact ⟨Nat.lt_succ_of_lt hlt.1, Nat.lt_succ_of_lt hlt.2⟩
    · exact ⟨Nat.lt_succ_self _, Nat.lt_succ_self _⟩
  · obtain ⟨hframes, hfunctions, hL⟩ := h.same hs
    refine ⟨hframes, congrArg Nat.succ hfunctions, hL.frames, fun {i i'} hi => ?_, hL.classes⟩
    rcases hi with hi | ⟨rfl, rfl⟩
    · exact hL.functions hi
    · exact hfunctions

theorem newFunction_left (h : s.LinkedBut stale K L t) (hs : ¬ K.same) :
    s.newFunction.2.LinkedBut stale K L t :=
  { h with
    functions := fun hi => ⟨Nat.lt_succ_of_lt (h.functions hi).1, (h.functions hi).2⟩
    same := fun hsame => absurd hsame hs }

lemma newFunction_right (h : s.LinkedBut stale K L t) (hs : ¬ K.same) :
    s.LinkedBut stale K L t.newFunction.2 :=
  { h with
    functions := fun hi => ⟨(h.functions hi).1, Nat.lt_succ_of_lt (h.functions hi).2⟩
    same := fun hsame => absurd hsame hs }

end Store.LinkedBut

namespace Store.Linked

variable (h : s.Linked K L t)

include h

lemma lookup? {i i' : FrameId} (hi : L.frames i i') (name : String) :
    Option.Rel (Variable.Linked L) (s.lookup? i name) (t.lookup? i' name) :=
  LinkedBut.lookup? h hi name fun _ => List.not_mem_nil

theorem define {i i' : FrameId} (hi : L.frames i i') {x x' : Variable} (hx : x.Linked L x')
    (name : String) : (s.define i name x).Linked K L (t.define i' name x') :=
  LinkedBut.define h hi hx fun _ hmem => absurd hmem List.not_mem_nil

theorem newFrame {p p' : FrameId} (hp : L.frames p p') :
    ∃ L', L.Sub L' ∧ L'.frames s.frames.size t.frames.size ∧
      (s.newFrame (.empty p)).2.Linked K L' (t.newFrame (.empty p')).2 := by
  let L' : Link :=
    { L with frames := fun i i' => L.frames i i' ∨ i = s.frames.size ∧ i' = t.frames.size }
  have hl : L.Sub L' := ⟨.inl, id, id⟩
  have hsound : L'.Sound :=
    { frames := oneToOne_insert h.frames h.sound.frames
      functions := h.sound.functions
      classes := fun hc => (h.sound.classes hc).mono hl }
  refine ⟨L', hl, .inr ⟨rfl, rfl⟩, { h with
    sound := hsound
    globals := .inl h.globals
    total := fun j hj => ?_
    frames := fun {j j'} hj => ?_
    parent? := fun {j j'} hj => ?_
    lookup? := fun {j j'} hj name _ => ?_
    hidden := fun {j f} hj => ?_
    field? := fun id name => optionRel_mono (h.field? id name) fun _ _ hv => hv.mono hl _ _
    same := fun hs => ?_ }⟩
  · rw [size_newFrame] at hj
    rcases Nat.lt_succ_iff_lt_or_eq.mp hj with hj | rfl
    · obtain ⟨j', hj'⟩ := h.total j hj
      exact ⟨j', .inl hj'⟩
    · exact ⟨_, .inr ⟨rfl, rfl⟩⟩
  · rw [size_newFrame, size_newFrame]
    rcases hj with hj | ⟨rfl, rfl⟩
    · have hlt := h.frames hj
      exact ⟨Nat.lt_succ_of_lt hlt.1, Nat.lt_succ_of_lt hlt.2⟩
    · exact ⟨Nat.lt_succ_self _, Nat.lt_succ_self _⟩
  · rw [parent?_newFrame, parent?_newFrame]
    rcases hj with hj | ⟨rfl, rfl⟩
    · have hlt := h.frames hj
      rw [if_neg (Nat.ne_of_lt hlt.1), if_neg (Nat.ne_of_lt hlt.2)]
      exact optionRel_mono (h.parent? hj) fun _ _ => .inl
    · rw [if_pos rfl, if_pos rfl]
      exact .some (.inl hp)
  · rw [lookup?_newFrame, lookup?_newFrame]
    rcases hj with hj | ⟨rfl, rfl⟩
    · have hlt := h.frames hj
      rw [if_neg (Nat.ne_of_lt hlt.1), if_neg (Nat.ne_of_lt hlt.2)]
      exact optionRel_mono (lookup? h hj name) fun _ _ hx => hx.mono hl
    · rw [if_pos rfl, if_pos rfl]
      exact .none
  · obtain ⟨hframe, hnone⟩ := h.hidden hj
    obtain ⟨hlt, -⟩ := Array.getElem?_eq_some_iff.mp hframe
    refine ⟨?_, fun i hi => ?_⟩
    · change (t.frames.push _)[j]? = some f
      rw [Array.getElem?_push, if_neg (Nat.ne_of_lt hlt), hframe]
    · rcases hi with hi | ⟨-, rfl⟩
      · exact hnone i hi
      · exact absurd hlt (Nat.lt_irrefl _)
  · obtain ⟨hframes, hfunctions, hL⟩ := h.same hs
    rw [size_newFrame, size_newFrame, hframes]
    refine ⟨rfl, hfunctions, fun {i i'} hi => ?_, hL.functions, hL.classes⟩
    rcases hi with hi | ⟨rfl, rfl⟩
    · exact hL.frames hi
    · exact hframes

lemma newFields : s.newFields.2.Linked K L t.newFields.2 :=
  { h with
    sizeFields := by simp [Store.newFields, h.sizeFields]
    field? := fun id name => by
      rw [field?_newFields, field?_newFields]
      exact h.field? id name
    classes := fun hc => by
      simpa [Store.newFields] using Nat.lt_succ_of_lt (h.classes hc) }

lemma setField {v v' : Value} (hv : v.Linked L v') (id : ObjectId) (name : String) :
    (s.setField id name v).Linked K L (t.setField id name v') :=
  { h with
    sizeFields := by simp [Store.setField, h.sizeFields]
    field? := fun other name' => by
      rw [field?_setField, field?_setField, h.sizeFields]
      split
      · exact .some hv
      · exact h.field? other name'
    classes := fun hc => by simpa [Store.setField] using h.classes hc }

theorem newClass {isMeta : Bool} {c c' : Class} (hid : c.id = s.fields.size)
    (hparallel : ∀ mc, c.metaclass? = some mc → c.IsParallel mc) (hc : c.Linked L isMeta c')
    (hsame : L.Diagonal → c' = c) :
    ∃ L', L.Sub L' ∧ L'.classes isMeta c c' ∧ s.newFields.2.Linked K L' t.newFields.2 := by
  let L' : Link :=
    { L with classes := fun b d d' => L.classes b d d' ∨ b = isMeta ∧ d = c ∧ d' = c' }
  have hl : L.Sub L' := ⟨id, id, .inl⟩
  have hsound : L'.Sound :=
    { frames := h.sound.frames
      functions := h.sound.functions
      classes := fun {b d d'} hd => by
        rcases hd with hd | ⟨rfl, rfl, rfl⟩
        · exact (h.sound.classes hd).mono hl
        · exact hc.mono hl }
  refine ⟨L', hl, .inr ⟨rfl, rfl, rfl⟩, { newFields h with
    sound := hsound
    lookup? := fun hi name _ => optionRel_mono (lookup? h hi name) fun _ _ hx => hx.mono hl
    field? := fun id name => optionRel_mono ((newFields h).field? id name) fun _ _ hv => hv.mono hl _ _
    classes := fun {b d d'} hd => ?_
    older := fun {b d d'} hd e he => ?_
    parallel := fun {b d d'} hd => ?_
    unique := fun {b b' d d' e e'} hd he heq => ?_
    same := fun hs => ?_ }⟩
  · rcases hd with hd | ⟨rfl, rfl, rfl⟩
    · exact (newFields h).classes hd
    · simp [hid, Store.newFields]
  · rcases hd with hd | ⟨rfl, rfl, rfl⟩
    · exact h.older hd e he
    · rcases he with he | he
      · obtain ⟨_, -, hlink⟩ := exists_of_optionRel hc.superclass he
        exact hid ▸ h.classes hlink
      · obtain ⟨_, -, hlink⟩ := exists_of_optionRel hc.metaclass he
        exact hid ▸ h.classes hlink
  · rcases hd with hd | ⟨rfl, rfl, rfl⟩
    · exact h.parallel hd
    · exact hparallel
  · rcases hd with hd | ⟨rfl, rfl, rfl⟩ <;> rcases he with he | ⟨rfl, rfl, rfl⟩
    · exact h.unique hd he heq
    · exact absurd (heq.trans hid) (Nat.ne_of_lt (h.classes hd))
    · exact absurd (heq.symm.trans hid) (Nat.ne_of_lt (h.classes he))
    · exact ⟨rfl, rfl⟩
  · obtain ⟨hframes, hfunctions, hL⟩ := h.same hs
    refine ⟨hframes, hfunctions, hL.frames, hL.functions, fun {b d d'} hd => ?_⟩
    rcases hd with hd | ⟨rfl, rfl, rfl⟩
    · exact hL.classes hd
    · exact hsame hL

lemma ancestor? {i i' : FrameId} (hi : L.frames i i') (distance : Nat) :
    Option.Rel L.frames (s.ancestor? i distance) (t.ancestor? i' distance) := by
  induction distance generalizing i i' with
  | zero => exact .some hi
  | succ distance ih =>
    have hparent := h.parent? hi
    unfold Store.ancestor?
    generalize s.parent? i = p at hparent ⊢
    generalize t.parent? i' = p' at hparent ⊢
    cases hparent with
    | none => exact .none
    | some hp => exact ih hp

lemma binds_globals (name : String) :
    t.binds Store.globals name = s.binds Store.globals name := by
  have hvariable := lookup? h h.globals name
  rw [binds_eq, binds_eq]
  generalize s.lookup? Store.globals name = x at hvariable ⊢
  generalize t.lookup? Store.globals name = x' at hvariable ⊢
  cases hvariable <;> rfl

end Store.Linked

mutual

lemma Value.Linked.single (h : s.LinkedBut stale K L t) : (v u u' : Value) →
    v.Linked L u → v.Linked L u' → u' = u
  | .nil, _, _, .nil, .nil => rfl
  | .bool _, _, _, .bool _, .bool _ => rfl
  | .number _, _, _, .number _, .number _ => rfl
  | .string _, _, _, .string _, .string _ => rfl
  | .list vs, _, _, .list hu, .list hu' =>
    congrArg Value.list (linkedValues_single h vs _ _ hu hu')
  | .function f, .function ⟨_, _, _, _⟩, .function ⟨_, _, _, _⟩, .function hu, .function hu' => by
    obtain ⟨hid, rfl, hframe, rfl⟩ := hu
    obtain ⟨hid', rfl, hframe', rfl⟩ := hu'
    obtain rfl := (h.sound.functions hid hid').mp rfl
    obtain rfl := (h.sound.frames hframe hframe').mp rfl
    rfl
  | .native _, _, _, .native _, .native _ => rfl
  | .cls _, _, _, .cls hu, .cls hu' => congrArg Value.cls (h.unique hu' hu rfl).2
  | .object ⟨id, _⟩, _, _, .object hu, .object hu' =>
    congrArg (fun c => Value.object ⟨id, c⟩) (h.unique hu' hu rfl).2

lemma linkedValues_single (h : s.LinkedBut stale K L t) : (vs us us' : List Value) →
    List.Forall₂ (Value.Linked L) vs us → List.Forall₂ (Value.Linked L) vs us' → us' = us
  | [], _, _, .nil, .nil => rfl
  | v :: vs, _, _, .cons hu hus, .cons hu' hus' =>
    congr (congrArg List.cons (hu.single h v _ _ hu')) (linkedValues_single h vs _ _ hus hus')

end

end Lox
