import Lox.Proofs.Receiver.Owned

namespace Lox

variable {s s' : Store}

namespace Store

theorem Owned.of_extends (hs : s.Owned) (hl : s.Extends s')
    (hdescends : s'.Descends)
    (hvariables : ∀ id name x, s'.lookup? id name = some x →
      s.lookup? id name = some x ∨ x.value.Owned s')
    (hfields : ∀ id name v, s'.field? id name = some v →
      s.field? id name = some v ∨ v.Owned s') : s'.Owned where
  rooted := Nat.lt_of_lt_of_le hs.rooted hl.size
  outermost := (hl.parent? _ hs.rooted).trans hs.outermost
  unreserved name hname := (hl.lookup? _ hs.rooted name hname).trans (hs.unreserved name hname)
  descends := hdescends
  «variables» id name x hx := by
    rcases hvariables id name x hx with hold | hnew
    · exact (hs.variables id name x hold).mono hl
    · exact hnew
  fields id name v hv := by
    rcases hfields id name v hv with hold | hnew
    · exact (hs.fields id name v hold).mono hl
    · exact hnew

lemma Owned.congr (hs : s.Owned) (hframes : s'.frames = s.frames)
    (hfields : s'.fields = s.fields) : s.Extends s' ∧ s'.Owned := by
  have hparent : ∀ id, s'.parent? id = s.parent? id := fun id => by
    rw [Store.parent?, Store.parent?, hframes]
  have hlookup : ∀ id name, s'.lookup? id name = s.lookup? id name := fun id name => by
    rw [Store.lookup?, Store.lookup?, hframes]
  have hl : s.Extends s' :=
    hs.extends (Nat.le_of_eq (by rw [hframes])) (fun id _ => hparent id) fun id _ name _ =>
      hlookup id name
  refine ⟨hl, hs.of_extends hl (fun id parent hp => ?_) (fun id name x hx => .inl ?_)
    fun id name v hv => .inl ?_⟩
  · rw [hparent] at hp
    exact hs.descends id parent hp
  · rwa [← hlookup]
  · rwa [Store.field?, ← hfields]

lemma Owned.define (hs : s.Owned) {name : String} (hname : name ∉ reservedNames) {x : Variable}
    (hx : x.value.Owned s) (id : FrameId) :
    s.Extends (s.define id name x) ∧ (s.define id name x).Owned := by
  have hl : s.Extends (s.define id name x) := by
    refine hs.extends (Nat.le_of_eq (size_define s id name x).symm)
      (fun other _ => parent?_define s id other name x) fun other _ name' hname' => ?_
    have hne : name ≠ name' := fun heq => hname (heq ▸ hname')
    rw [lookup?_define, if_neg fun hc => hne hc.2.1]
  refine ⟨hl, hs.of_extends hl (hs.descends.define id name x) (fun other name' y hy => ?_)
    fun other name' v hv => .inl hv⟩
  rw [lookup?_define] at hy
  split at hy
  · cases hy
    exact .inr (hx.mono hl)
  · exact .inl hy

lemma Owned.newFrame (hs : s.Owned) {parent : FrameId} (hparent : parent < s.frames.size) :
    let s' := (s.newFrame (.empty parent)).2
    s.Extends s' ∧ s'.Owned ∧ s.frames.size < s'.frames.size ∧
      s'.parent? s.frames.size = some parent ∧ ∀ name, s'.lookup? s.frames.size name = none := by
  have hsize := size_newFrame s (.empty parent)
  have hparents := fun id => parent?_newFrame s id (.empty parent)
  have hlookups := fun id name => lookup?_newFrame s id name (.empty parent)
  have hl : s.Extends (s.newFrame (.empty parent)).2 := by
    refine hs.extends (hsize ▸ Nat.le_succ _) (fun id hid => ?_) fun id hid name _ => ?_
    · rw [hparents, if_neg (Nat.ne_of_lt hid)]
    · rw [hlookups, if_neg (Nat.ne_of_lt hid)]
  refine ⟨hl, hs.of_extends hl (hs.descends.newFrame_empty hparent) (fun id name x hx => .inl ?_)
    (fun id name v hv => .inl hv), hsize ▸ Nat.lt_succ_self _, ?_, fun name => ?_⟩
  · rw [hlookups] at hx
    split at hx
    · cases hx
    · exact hx
  · rw [hparents, if_pos rfl]
    rfl
  · rw [hlookups, if_pos rfl]
    rfl

def enclose (s : Store) (parent : FrameId) (name : String) (v : Value) : Store :=
  (s.newFrame (.empty parent)).2.assign s.frames.size name v

lemma size_enclose (s : Store) (parent : FrameId) (name : String) (v : Value) :
    (s.enclose parent name v).frames.size = s.frames.size + 1 := by
  rw [enclose, assign, size_define, size_newFrame]

lemma parent?_enclose (s : Store) (parent id : FrameId) (name : String) (v : Value) :
    (s.enclose parent name v).parent? id =
      if id = s.frames.size then some parent else s.parent? id := by
  rw [enclose, assign, parent?_define, parent?_newFrame]
  rfl

lemma lookup?_enclose (s : Store) (parent id : FrameId) (name other : String) (v : Value) :
    (s.enclose parent name v).lookup? id other =
      if id = s.frames.size then (if name = other then some ⟨v, true⟩ else none)
      else s.lookup? id other := by
  have hlt : s.frames.size < (s.newFrame (.empty parent)).2.frames.size := by
    rw [size_newFrame]
    exact Nat.lt_succ_self _
  rw [enclose, assign, lookup?_define, lookup?_newFrame]
  by_cases hid : id = s.frames.size
  · subst hid
    simp only [true_and, hlt, and_true, if_true]
    rfl
  · rw [if_neg fun hc => hid hc.1.symm, if_neg hid, if_neg hid]

lemma Owned.enclose (hs : s.Owned) {parent : FrameId} (hparent : parent < s.frames.size)
    {v : Value} (hv : v.Owned s) (name : String) :
    s.Extends (s.enclose parent name v) ∧ (s.enclose parent name v).Owned := by
  have hsize := size_enclose s parent name v
  have hl : s.Extends (s.enclose parent name v) := by
    refine hs.extends (hsize ▸ Nat.le_succ _) (fun id hid => ?_) fun id hid other _ => ?_
    · rw [parent?_enclose, if_neg (Nat.ne_of_lt hid)]
    · rw [lookup?_enclose, if_neg (Nat.ne_of_lt hid)]
  have hdescends := (hs.descends.newFrame_empty hparent).define s.frames.size name ⟨v, true⟩
  refine ⟨hl, hs.of_extends hl hdescends (fun id other x hx => ?_) fun id other u hu => .inl hu⟩
  rw [lookup?_enclose] at hx
  split at hx
  · split at hx <;> cases hx
    exact .inr (hv.mono hl)
  · exact .inl hx

lemma Owned.newFields (hs : s.Owned) : s.Extends s.newFields.2 ∧ s.newFields.2.Owned := by
  have hl : s.Extends s.newFields.2 :=
    hs.extends (Nat.le_refl _) (fun _ _ => rfl) fun _ _ _ _ => rfl
  refine ⟨hl, hs.of_extends hl hs.descends (fun _ _ _ hx => .inl hx) fun id name v hv => .inl ?_⟩
  rwa [field?_newFields] at hv

lemma Owned.setField (hs : s.Owned) {v : Value} (hv : v.Owned s) (id : ObjectId)
    (name : String) : s.Extends (s.setField id name v) ∧ (s.setField id name v).Owned := by
  have hl : s.Extends (s.setField id name v) :=
    hs.extends (Nat.le_refl _) (fun _ _ => rfl) fun _ _ _ _ => rfl
  refine ⟨hl, hs.of_extends hl hs.descends (fun _ _ _ hx => .inl hx) fun other name' u hu => ?_⟩
  rw [field?_setField] at hu
  split at hu
  · cases hu
    exact .inr (hv.mono hl)
  · exact .inl hu

theorem Within.enter {frame parent : FrameId} {n : Node} (h : s.Within parent n)
    (hthis : s.lookup? frame Eval.thisName = none) (hparent : s.parent? frame = some parent) :
    s.Within frame n := by
  intro holder haround
  cases haround with
  | here hbinds =>
    rw [binds_eq, hthis] at hbinds
    cases hbinds
  | outer _ hp houter =>
    rw [hparent] at hp
    cases hp
    exact h holder houter

theorem Owned.situates_globals (hs : s.Owned) (n : Node) : s.Situates Store.globals n := by
  refine ⟨hs.rooted, hs.unreserved _ (by decide), fun holder haround => ?_⟩
  cases haround with
  | here hbinds =>
    rw [binds_eq, hs.unreserved _ (by decide)] at hbinds
    cases hbinds
  | outer _ hparent _ =>
    rw [hs.outermost] at hparent
    cases hparent

end Store

lemma Method.Suits.owned_closure {m : Method} {v : Value} (h : m.Suits s v) (hs : s.Owned)
    (hv : v.Owned s) (id : Nat) :
    Closure.Owned (s.enclose m.frame Eval.thisName v)
      ⟨id, m.function, s.frames.size, m.isInitializer⟩ := by
  obtain ⟨b, rfl, howned, hdeclared, hadmits⟩ := h
  obtain ⟨hnamed, hlt, -⟩ := Member.method_of_owned howned hdeclared
  obtain ⟨hl, -⟩ := hs.enclose hlt hv Eval.thisName
  have hparent := Store.parent?_enclose s b.method.frame s.frames.size Eval.thisName v
  have hthis := Store.lookup?_enclose s b.method.frame s.frames.size Eval.thisName Eval.thisName v
  rw [if_pos rfl] at hparent
  rw [if_pos rfl, if_pos rfl] at hthis
  refine ⟨hnamed, ?_, fun st hst holder haround => ?_⟩
  · rw [Store.size_enclose]
    exact Nat.lt_succ_self _
  · have hreceives : b.Receives (s.enclose b.method.frame Eval.thisName v) s.frames.size :=
      ⟨howned.mono hl, hdeclared, hparent, v, hthis, hadmits⟩
    cases haround with
    | here => exact ⟨b, hreceives, .body hst⟩
    | outer hbinds =>
      rw [Store.binds_eq, hthis] at hbinds
      exact absurd rfl hbinds

end Lox
