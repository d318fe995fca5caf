import Lox.Proofs.Eval.Parts
import Lox.Proofs.Store.Variable
import Mathlib.Tactic.WLOG

/-! Chains of frames: to go so many links outward and to look for the nearest frame that binds a
name lead to the same variable. -/

namespace Lox

namespace Store

/-- Every frame is younger than the one around it. -/
def Descends (s : Store) : Prop := ∀ id parent, s.parent? id = some parent → parent < id

def lookupAt? (s : Store) (frame : FrameId) (distance : Nat) (name : String) : Option Variable :=
  (s.ancestor? frame distance).bind (s.lookup? · name)

/-- The nearest frame that binds a name, and how many links away it is. -/
structure Nearest (s : Store) (frame : FrameId) (name : String) (distance : Nat)
    (holder : FrameId) : Prop where
  ancestor : s.ancestor? frame distance = some holder
  binds : s.binds holder name
  first : ∀ d < distance, s.lookupAt? frame d name = none

/-- One variable has got a value, and nothing else is different. -/
structure Assigned (s : Store) (holder : FrameId) (name : String) (v : Value) (t : Store) :
    Prop where
  size : t.frames.size = s.frames.size
  parent? : ∀ id, t.parent? id = s.parent? id
  assigned : t.lookup? holder name = some ⟨v, true⟩
  kept : ∀ id other, id ≠ holder ∨ other ≠ name → t.lookup? id other = s.lookup? id other
  fields : t.fields = s.fields
  functions : t.functions = s.functions
  time : t.time = s.time
  output : t.output = s.output

variable {s t : Store} {frame holder : FrameId} {name : String} {v : Value}

lemma descends_initial (time : Float) : (initial time).Descends := by
  intro id parent h
  cases id with
  | zero => cases h
  | succ id => cases h

namespace Descends

lemma newFrame (h : s.Descends) {f : Frame}
    (hf : ∀ parent, f.parent = some parent → parent < s.frames.size) :
    (s.newFrame f).2.Descends := by
  intro id parent hp
  rw [parent?_newFrame] at hp
  split at hp
  · next heq => exact heq ▸ hf parent hp
  · exact h id parent hp

lemma newFrame_empty (h : s.Descends) {parent : FrameId} (hparent : parent < s.frames.size) :
    (s.newFrame (.empty parent)).2.Descends :=
  h.newFrame fun _ hp => Option.some.inj hp ▸ hparent

lemma define (h : s.Descends) (id : FrameId) (name : String) (x : Variable) :
    (s.define id name x).Descends := by
  intro other parent hp
  exact h other parent (by rwa [parent?_define] at hp)

theorem ancestor?_le (h : s.Descends) {distance : Nat}
    (ha : s.ancestor? frame distance = some holder) : (holder + distance : Nat) ≤ frame := by
  induction distance generalizing frame with
  | zero =>
    cases ha
    exact Nat.le_refl _
  | succ distance ih =>
    obtain ⟨parent, hp, ha⟩ := Option.bind_eq_some_iff.mp ha
    exact Nat.succ_le_of_lt (Nat.lt_of_le_of_lt (ih ha) (h frame parent hp))

end Descends

lemma lookupAt?_succ (s : Store) (frame : FrameId) (distance : Nat) (name : String) :
    s.lookupAt? frame (distance + 1) name =
      (s.parent? frame).bind (s.lookupAt? · distance name) :=
  Option.bind_assoc ..

lemma lookupAt?_newFrame (hs : s.Descends) (hlt : frame < s.frames.size) (f : Frame)
    (distance : Nat) (name : String) :
    (s.newFrame f).2.lookupAt? frame distance name = s.lookupAt? frame distance name := by
  induction distance generalizing frame with
  | zero =>
    change Store.lookup? _ _ _ = Store.lookup? _ _ _
    rw [lookup?_newFrame, if_neg (Nat.ne_of_lt hlt)]
  | succ distance ih =>
    rw [lookupAt?_succ, lookupAt?_succ, parent?_newFrame, if_neg (Nat.ne_of_lt hlt)]
    cases hp : s.parent? frame with
    | none => rfl
    | some parent => exact ih (Nat.lt_trans (hs frame parent hp) hlt)

/-- Any variables can stand in the frames of a chain, from the innermost frame outward. -/
theorem exists_chain (inner : Table Variable) (more : List (Table Variable)) :
    ∃ s : Store, ∃ frame, s.Descends ∧ frame < s.frames.size ∧ ∀ distance name,
      s.lookupAt? frame distance name = (inner :: more)[distance]?.bind (·.find? name) := by
  induction more generalizing inner with
  | nil =>
    refine ⟨⟨#[⟨none, inner⟩], #[], 0, 0, ""⟩, 0, fun id parent hp => ?_, Nat.one_pos,
      fun distance name => ?_⟩
    · cases id <;> cases hp
    · cases distance <;> rfl
  | cons outer more ih =>
    obtain ⟨s, frame, hs, hlt, hchain⟩ := ih outer
    refine ⟨(s.newFrame ⟨some frame, inner⟩).2, s.frames.size,
      hs.newFrame fun parent hp => Option.some.inj hp ▸ hlt, ?_, fun distance name => ?_⟩
    · rw [size_newFrame]
      exact Nat.lt_succ_self _
    · cases distance with
      | zero =>
        change Store.lookup? _ _ _ = _
        rw [lookup?_newFrame, if_pos rfl]
        rfl
      | succ distance =>
        rw [lookupAt?_succ, parent?_newFrame, if_pos rfl, Option.bind_some,
          lookupAt?_newFrame hs hlt, hchain]
        rfl

lemma ancestor?_add (s : Store) (frame : FrameId) (d e : Nat) :
    s.ancestor? frame (d + e) = (s.ancestor? frame d).bind (s.ancestor? · e) := by
  induction d generalizing frame with
  | zero =>
    rw [Nat.zero_add]
    rfl
  | succ d ih => rw [Nat.succ_add, ancestor?, ancestor?, Option.bind_assoc, funext ih]

theorem Descends.eq_of_ancestor? (h : s.Descends) {d e : Nat}
    (hd : s.ancestor? frame d = some holder) (he : s.ancestor? frame e = some holder) : d = e := by
  wlog hle : d ≤ e generalizing d e
  · exact (this he hd (Nat.le_of_not_le hle)).symm
  obtain ⟨k, rfl⟩ := Nat.exists_eq_add_of_le hle
  rw [ancestor?_add, hd] at he
  have hk : (holder + k : Nat) ≤ holder + 0 := h.ancestor?_le he
  rw [Nat.le_zero.mp (Nat.le_of_add_le_add_left hk), Nat.add_zero]

lemma lookup?_eq_none_iff : s.lookup? frame name = none ↔ ¬ s.binds frame name := by
  rw [binds_eq, Option.not_isSome_iff_eq_none]

lemma Nearest.lookupAt?_ne_none {distance : Nat} (h : s.Nearest frame name distance holder) :
    s.lookupAt? frame distance name ≠ none := by
  rw [lookupAt?, h.ancestor, Option.bind_some, Ne, lookup?_eq_none_iff, not_not]
  exact h.binds

lemma Nearest.unique {d e : Nat} {other : FrameId} (h : s.Nearest frame name d holder)
    (h' : s.Nearest frame name e other) : holder = other := by
  obtain hlt | rfl | hlt := Nat.lt_trichotomy d e
  · exact absurd (h'.first d hlt) h.lookupAt?_ne_none
  · exact Option.some.inj (h.ancestor.symm.trans h'.ancestor)
  · exact absurd (h.first e hlt) h'.lookupAt?_ne_none

theorem Nearest.inside {parent : FrameId} {distance : Nat} (hname : ¬ s.binds frame name)
    (hp : s.parent? frame = some parent) (h : s.Nearest parent name distance holder) :
    s.Nearest frame name (distance + 1) holder where
  ancestor := by rw [ancestor?, hp, Option.bind_some, h.ancestor]
  binds := h.binds
  first d hd := by
    cases d with
    | zero => exact lookup?_eq_none_iff.mpr hname
    | succ d =>
      rw [lookupAt?_succ, hp, Option.bind_some]
      exact h.first d (Nat.lt_of_succ_lt_succ hd)

theorem holderWithin_spec (hs : s.Descends) (name : String) {count : Nat} (hlt : frame < count) :
    match s.holderWithin name count frame with
    | some holder => ∃ distance, s.Nearest frame name distance holder
    | none => ∀ distance, s.lookupAt? frame distance name = none := by
  induction count generalizing frame with
  | zero => exact absurd hlt (Nat.not_lt_zero _)
  | succ count ih =>
    rw [holderWithin]
    by_cases hname : s.binds frame name
    · rw [if_pos hname]
      exact ⟨0, rfl, hname, fun d hd => absurd hd (Nat.not_lt_zero d)⟩
    have hzero : s.lookupAt? frame 0 name = none := lookup?_eq_none_iff.mpr hname
    rw [if_neg hname]
    cases hp : s.parent? frame with
    | none =>
      intro distance
      cases distance with
      | zero => exact hzero
      | succ distance => rw [lookupAt?_succ, hp, Option.bind_none]
    | some parent =>
      specialize ih (Nat.lt_of_lt_of_le (hs frame parent hp) (Nat.le_of_lt_succ hlt))
      rw [Option.bind_some]
      cases hw : s.holderWithin name count parent with
      | some holder =>
        rw [hw] at ih
        obtain ⟨distance, h⟩ := ih
        exact ⟨distance + 1, h.inside hname hp⟩
      | none =>
        rw [hw] at ih
        intro distance
        cases distance with
        | zero => exact hzero
        | succ distance => rw [lookupAt?_succ, hp, Option.bind_some, ih]

lemma holder?_spec (hs : s.Descends) (frame : FrameId) (name : String) :
    match s.holder? frame name with
    | some holder => ∃ distance, s.Nearest frame name distance holder
    | none => ∀ distance, s.lookupAt? frame distance name = none :=
  holderWithin_spec hs name (Nat.lt_succ_self frame)

lemma Nearest.holder?_eq (hs : s.Descends) {distance : Nat}
    (h : s.Nearest frame name distance holder) : s.holder? frame name = some holder := by
  have spec := holder?_spec hs frame name
  cases hh : s.holder? frame name with
  | some other =>
    rw [hh] at spec
    obtain ⟨d, h'⟩ := spec
    rw [h.unique h']
  | none =>
    rw [hh] at spec
    exact absurd (spec distance) h.lookupAt?_ne_none

lemma assigned_assign (h : s.binds holder name) (v : Value) :
    s.Assigned holder name v (s.assign holder name v) where
  size := size_define ..
  parent? id := parent?_define ..
  assigned := by rw [assign, lookup?_define, if_pos ⟨rfl, rfl, lt_of_binds h⟩]
  kept id other hne := by
    rw [assign, lookup?_define, if_neg]
    rintro ⟨rfl, rfl, -⟩
    exact hne.elim (absurd rfl) (absurd rfl)
  fields := rfl
  functions := rfl
  time := rfl
  output := rfl

namespace Assigned

variable (h : s.Assigned holder name v t)

include h

lemma ancestor? (frame : FrameId) (distance : Nat) :
    t.ancestor? frame distance = s.ancestor? frame distance := by
  induction distance generalizing frame with
  | zero => rfl
  | succ distance ih => rw [Store.ancestor?, Store.ancestor?, h.parent?, funext ih]

lemma readIn : t.readIn holder name = .ok v := readIn_of_lookup? h.assigned

lemma readIn_of_ne {id : FrameId} {other : String} (hne : id ≠ holder ∨ other ≠ name) :
    t.readIn id other = s.readIn id other := by
  rw [readIn_eq, readIn_eq, h.kept id other hne]

lemma binds (hb : s.binds holder name) (id : FrameId) (other : String) :
    t.binds id other = s.binds id other := by
  by_cases hne : id ≠ holder ∨ other ≠ name
  · rw [binds_eq, binds_eq, h.kept id other hne]
  · obtain ⟨rfl, rfl⟩ := not_or.mp hne |>.imp not_not.mp not_not.mp
    rw [hb, binds_of_lookup? h.assigned]

lemma holder? (hb : s.binds holder name) (frame : FrameId) (other : String) :
    t.holder? frame other = s.holder? frame other := by
  unfold Store.holder?
  generalize frame + 1 = count
  induction count generalizing frame with
  | zero => rfl
  | succ count ih => rw [holderWithin, holderWithin, h.binds hb, h.parent?, funext ih]

end Assigned

end Store

namespace Eval

def outcome {α : Type} (act : Eval α) (s : Store) : Except Abort α :=
  match act s with
  | .ok x _ => .ok x
  | .error e _ => .error e

variable {s t : Store} {frame holder : FrameId} {v : Value}

lemma outcome_located (t : Token) (r : Except Fault Value) (s s' : Store) :
    outcome (located t r) s = outcome (located t r) s' := by
  cases r <;> rfl

lemma readAt_of_ancestor? {distance : Nat} (h : s.ancestor? frame distance = some holder)
    (name : Token) :
    readAt frame distance name s = located name (s.readIn holder name.lexeme) s :=
  bind_of_ok (ancestor_of_ancestor? h) _

lemma readAt_of_no_ancestor {distance : Nat} (h : s.ancestor? frame distance = none)
    (name : Token) : readAt frame distance name s = .error (.defect .depthTooLarge) s :=
  bind_of_error (by rw [ancestor_eq, h]; rfl) _

lemma readNearest_of_holder? {name : Token} (h : s.holder? frame name.lexeme = some holder) :
    readNearest frame name s = located name (s.readIn holder name.lexeme) s := by
  change located name (s.readNearest frame name.lexeme) s = _
  rw [Store.readNearest, h]

lemma readNearest_of_no_holder {name : Token} (h : s.holder? frame name.lexeme = none) :
    readNearest frame name s =
      .error (.failure ⟨.undefinedVariable name.lexeme, some name⟩) s := by
  change located name (s.readNearest frame name.lexeme) s = _
  rw [Store.readNearest, h]
  rfl

lemma assignAt_of_ancestor? {distance : Nat} (h : s.ancestor? frame distance = some holder)
    (name : Token) (v : Value) :
    assignAt frame distance name v s = .ok () (s.assign holder name.lexeme v) :=
  bind_of_ok (ancestor_of_ancestor? h) _

lemma assignNearest_eq (frame : FrameId) (name : Token) (v : Value) (s : Store) :
    assignNearest frame name v s =
      (match s.holder? frame name.lexeme with
        | some holder => modify (·.assign holder name.lexeme v)
        | none => fail (.undefinedVariable name.lexeme) name : Eval Unit) s := rfl

lemma assignNearest_of_holder? {name : Token} (h : s.holder? frame name.lexeme = some holder)
    (v : Value) : assignNearest frame name v s = .ok () (s.assign holder name.lexeme v) := by
  rw [assignNearest_eq, h]
  rfl

lemma assignNearest_of_no_holder {name : Token} (h : s.holder? frame name.lexeme = none)
    (v : Value) : assignNearest frame name v s =
      .error (.failure ⟨.undefinedVariable name.lexeme, some name⟩) s := by
  rw [assignNearest_eq, h]
  rfl

variable {name : Token}

lemma outcome_readAt_of_ne (ht : s.Assigned holder name.lexeme v t) {d : Nat} {other : Token}
    (hne : s.ancestor? frame d ≠ some holder ∨ other.lexeme ≠ name.lexeme) :
    outcome (readAt frame d other) t = outcome (readAt frame d other) s := by
  have hanc := ht.ancestor? frame d
  cases ha : s.ancestor? frame d with
  | none =>
    rw [ha] at hanc
    rw [outcome, outcome, readAt_of_no_ancestor ha, readAt_of_no_ancestor hanc]
  | some place =>
    rw [ha] at hanc hne
    rw [outcome, outcome, readAt_of_ancestor? ha, readAt_of_ancestor? hanc,
      ht.readIn_of_ne (hne.imp_left (mt (congrArg some)))]
    exact outcome_located ..

lemma outcome_readNearest_of_ne (ht : s.Assigned holder name.lexeme v t)
    (hb : s.binds holder name.lexeme) {other : Token} (hne : other.lexeme ≠ name.lexeme) :
    outcome (readNearest frame other) t = outcome (readNearest frame other) s := by
  have hholder := ht.holder? hb frame other.lexeme
  cases hh : s.holder? frame other.lexeme with
  | none =>
    rw [hh] at hholder
    rw [outcome, outcome, readNearest_of_no_holder hh, readNearest_of_no_holder hholder]
  | some place =>
    rw [hh] at hholder
    rw [outcome, outcome, readNearest_of_holder? hh, readNearest_of_holder? hholder,
      ht.readIn_of_ne (.inr hne)]
    exact outcome_located ..

/-- To read and to assign a variable so many links away is the same as to look for the nearest
frame that binds its name. An assignment changes this variable alone, which then has the value for
both ways to read it. A name that no frame of the chain binds is undefined for the search, and
nothing changes. -/
theorem distance_agrees_with_search (hs : s.Descends) (frame : FrameId) (name : Token)
    (v : Value) :
    (∀ distance holder, s.Nearest frame name.lexeme distance holder →
      readAt frame distance name s = readNearest frame name s ∧
      (∃ x, s.lookup? holder name.lexeme = some x ∧
        readNearest frame name s =
          if x.assigned then .ok x.value s
          else .error (.failure ⟨.unassignedVariable name.lexeme, some name⟩) s) ∧
      ∃ t, s.Assigned holder name.lexeme v t ∧
        assignAt frame distance name v s = .ok () t ∧ assignNearest frame name v s = .ok () t ∧
        readAt frame distance name t = .ok v t ∧ readNearest frame name t = .ok v t ∧
        (∀ (d : Nat) (other : Token), d ≠ distance ∨ other.lexeme ≠ name.lexeme →
          outcome (readAt frame d other) t = outcome (readAt frame d other) s) ∧
        ∀ other : Token, other.lexeme ≠ name.lexeme →
          outcome (readNearest frame other) t = outcome (readNearest frame other) s) ∧
    ((∃ distance, s.lookupAt? frame distance name.lexeme ≠ none) →
      ∃ distance holder, s.Nearest frame name.lexeme distance holder) ∧
    ((∀ distance, s.lookupAt? frame distance name.lexeme = none) →
      readNearest frame name s =
        .error (.failure ⟨.undefinedVariable name.lexeme, some name⟩) s ∧
      assignNearest frame name v s =
        .error (.failure ⟨.undefinedVariable name.lexeme, some name⟩) s) := by
  refine ⟨fun distance holder h => ?_, fun ⟨distance, h⟩ => ?_, fun h => ?_⟩
  · have hholder := h.holder?_eq hs
    have ht := Store.assigned_assign h.binds v
    have hancestor := (ht.ancestor? frame distance).trans h.ancestor
    refine ⟨?_, ?_, _, ht, assignAt_of_ancestor? h.ancestor name v,
      assignNearest_of_holder? hholder v, ?_, ?_, fun d other hne => ?_, fun other hne => ?_⟩
    · rw [readAt_of_ancestor? h.ancestor, readNearest_of_holder? hholder]
    · have hbinds := h.binds
      rw [Store.binds_eq] at hbinds
      obtain ⟨x, hx⟩ := Option.isSome_iff_exists.mp hbinds
      refine ⟨x, hx, ?_⟩
      rw [readNearest_of_holder? hholder, Store.readIn_eq, hx]
      cases hassigned : x.assigned <;> simp [hassigned] <;> rfl
    · rw [readAt_of_ancestor? hancestor, ht.readIn]
      rfl
    · rw [readNearest_of_holder? ((ht.holder? h.binds frame name.lexeme).trans hholder),
        ht.readIn]
      rfl
    · exact outcome_readAt_of_ne ht
        (hne.imp_left fun hd ha => hd (hs.eq_of_ancestor? ha h.ancestor))
    · exact outcome_readNearest_of_ne ht h.binds hne
  · have spec := Store.holder?_spec hs frame name.lexeme
    cases hh : s.holder? frame name.lexeme with
    | some holder =>
      rw [hh] at spec
      exact spec.imp fun d h => ⟨holder, h⟩
    | none =>
      rw [hh] at spec
      exact absurd (spec distance) h
  · have spec := Store.holder?_spec hs frame name.lexeme
    cases hh : s.holder? frame name.lexeme with
    | some holder =>
      rw [hh] at spec
      obtain ⟨distance, hnearest⟩ := spec
      exact absurd (h distance) hnearest.lookupAt?_ne_none
    | none => exact ⟨readNearest_of_no_holder hh, assignNearest_of_no_holder hh v⟩

theorem distance_agrees_with_search_hiding :
    let s : Store := ⟨#[⟨none, ⟨[("a", ⟨.bool true, true⟩)]⟩⟩, ⟨some 0, ⟨[("a", ⟨.nil, false⟩)]⟩⟩,
      ⟨some 1, .empty⟩], #[], 0, 0, ""⟩
    let a : Token := ⟨.identifier, "a", 1, 1⟩
    let b : Token := ⟨.identifier, "b", 1, 1⟩
    readNearest 2 a s = .error (.failure ⟨.unassignedVariable "a", some a⟩) s ∧
      (∃ t, assignAt 2 1 a (.bool false) s = .ok () t ∧ readNearest 2 a t = .ok (.bool false) t ∧
        outcome (readAt 2 2 a) t = .ok (.bool true)) ∧
      assignNearest 2 b .nil s = .error (.failure ⟨.undefinedVariable "b", some b⟩) s := by
  intro s a b
  have hs : s.Descends := by
    intro id parent hp
    match id with
    | 0 => cases hp
    | 1 => cases hp; exact Nat.one_pos
    | 2 => cases hp; exact Nat.one_lt_two
    | id + 3 => cases hp
  have ha : s.Nearest 2 a.lexeme 1 1 := by
    refine ⟨rfl, rfl, fun d hd => ?_⟩
    rw [Nat.lt_one_iff.mp hd]
    rfl
  have hb : ∀ distance, s.lookupAt? 2 distance b.lexeme = none
    | 0 | 1 | 2 | _ + 3 => rfl
  obtain ⟨hread, ⟨x, hx, hnearest⟩, t, ht, hassign, -, -, hagain, hkept, -⟩ :=
    (distance_agrees_with_search hs 2 a (.bool false)).1 1 1 ha
  cases hx
  exact ⟨hnearest, ⟨t, hassign, hagain, (hkept 2 a (.inl (by decide))).trans rfl⟩,
    ((distance_agrees_with_search hs 2 b .nil).2.2 hb).2⟩

end Eval

end Lox
