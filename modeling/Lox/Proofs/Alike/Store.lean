import Lox.Proofs.Alike.Value
import Lox.Proofs.Store.Variable

namespace Lox

structure Variable.Alike {V : Variation} (W : Naming V) (x x' : Variable) : Prop where
  value : x.value.Alike W x'.value
  assigned : x'.assigned = x.assigned

def Naming.HasRoom {V : Variation} (W : Naming V) (size : Nat) : Prop :=
  (∀ id, W.known id → id < size) ∨ (∀ r, V.Renames r → r = id) ∧ ∀ id, W.known id

structure Store.Alike {V : Variation} (W : Naming V) (earlier : String) (s s' : Store) : Prop where
  size : s'.frames.size = s.frames.size
  parent? : ∀ id, s'.parent? id = s.parent? id
  lookup? : ∀ id name,
    Option.Rel (Variable.Alike W) (s.lookup? id name) (s'.lookup? id ((W.names id 0).val name))
  sizeFields : s'.fields.size = s.fields.size
  fields : ∀ id name, Option.Rel (Value.Alike W) (s.field? id name) (s'.field? id name)
  functions : s'.functions = s.functions
  time : s'.time = s.time
  output : s'.output = earlier ++ s.output
  known : ∀ id < s.frames.size, W.known id
  chain : ∀ id parent, s.parent? id = some parent →
    W.known parent ∧ ∀ depth, W.names id (depth + 1) = W.names parent depth
  globals : W.known Store.globals ∧ W.names Store.globals = V.plain
  room : W.HasRoom s.frames.size

variable {V : Variation} {W : Naming V} {earlier : String} {s s' : Store}

namespace Variable.Alike

variable {W' : Naming V} {x x' : Variable}

lemma later (h : x.Alike W x') (hl : W.Later W') : x.Alike W' x' :=
  ⟨h.value.later hl _ _, h.assigned⟩

lemma optionRel_later {x x' : Option Variable} (h : Option.Rel (Variable.Alike W) x x')
    (hl : W.Later W') : Option.Rel (Variable.Alike W') x x' :=
  optionRel_mono h fun _ _ hx => hx.later hl

end Variable.Alike

namespace Store.Alike

theorem define (h : s.Alike W earlier s') {id : FrameId} {x x' : Variable} (hx : x.Alike W x')
    (name : String) :
    (s.define id name x).Alike W earlier (s'.define id ((W.names id 0).val name) x') where
  size := by rw [size_define, size_define, h.size]
  parent? other := by rw [parent?_define, parent?_define, h.parent?]
  lookup? other name' := by
    rw [lookup?_define, lookup?_define, h.size]
    by_cases hid : id = other
    · subst hid
      have hname := (V.injective (W.names id 0).property).eq_iff (a := name) (b := name')
      simp only [hname]
      split
      · exact .some hx
      · exact h.lookup? id name'
    · rw [if_neg fun hc => hid hc.1, if_neg fun hc => hid hc.1]
      exact h.lookup? other name'
  sizeFields := h.sizeFields
  fields := h.fields
  functions := h.functions
  time := h.time
  output := h.output
  known other hlt := h.known other (by rwa [size_define] at hlt)
  chain other parent hp := h.chain other parent (by rwa [parent?_define] at hp)
  globals := h.globals
  room := by
    rw [size_define]
    exact h.room

theorem extend (h : s.Alike W earlier s') (parent : FrameId) (r : V.Renaming) :
    ∃ W' : Naming V, W.Later W' ∧ W'.known s.frames.size ∧
      W'.names s.frames.size = .cons r (W.names parent) ∧ W'.HasRoom (s.frames.size + 1) := by
  rcases h.room with hroom | ⟨hid, hall⟩
  · let W' : Naming V :=
      ⟨fun id => id = s.frames.size ∨ W.known id,
        fun id => if id = s.frames.size then .cons r (W.names parent) else W.names id⟩
    refine ⟨W', fun id hknown => ⟨.inr hknown, if_neg (Nat.ne_of_lt (hroom id hknown))⟩, .inl rfl,
      if_pos rfl, .inl fun id hknown => ?_⟩
    rcases hknown with rfl | hknown
    · exact Nat.lt_succ_self _
    · exact Nat.lt_succ_of_lt (hroom id hknown)
  · have hsame : ∀ q q' : V.Renaming, q = q' := fun q q' =>
      Subtype.ext ((hid _ q.property).trans (hid _ q'.property).symm)
    exact ⟨W, .refl W, hall _, funext fun _ => hsame _ _, .inr ⟨hid, hall⟩⟩

lemma newFrame (h : s.Alike W earlier s') {parent : FrameId} (hp : W.known parent)
    (r : V.Renaming) :
    ∃ W' : Naming V, W.Later W' ∧ W'.known s.frames.size ∧
      W'.names s.frames.size = .cons r (W.names parent) ∧
      (s.newFrame (.empty parent)).2.Alike W' earlier (s'.newFrame (.empty parent)).2 := by
  obtain ⟨W', hl, hknown, hnames, hroom⟩ := h.extend parent r
  refine ⟨W', hl, hknown, hnames, ?_⟩
  have hparent := fun other => parent?_newFrame s other (.empty parent)
  refine
    { size := by rw [size_newFrame, size_newFrame, h.size]
      parent? := fun id => by rw [parent?_newFrame, hparent, h.size, h.parent?]
      lookup? := fun id name => ?_
      sizeFields := h.sizeFields
      fields := fun id name => optionRel_mono (h.fields id name) fun _ _ hv => hv.later hl _ _
      functions := h.functions
      time := h.time
      output := h.output
      known := fun id hlt => ?_
      chain := fun id up hup => ?_
      globals := ⟨(hl _ h.globals.1).1, (hl _ h.globals.1).2.trans h.globals.2⟩
      room := by
        rw [size_newFrame]
        exact hroom }
  · rw [lookup?_newFrame, lookup?_newFrame, h.size]
    split
    · exact .none
    · next hne =>
      by_cases hlt : id < s.frames.size
      · rw [(hl id (h.known id hlt)).2]
        exact Variable.Alike.optionRel_later (h.lookup? id name) hl
      · have hnone : ∀ name, s.lookup? id name = none := fun name => by
          rw [Store.lookup?, Array.getElem?_eq_none (Nat.le_of_not_lt hlt)]
          rfl
        have hnone' : ∀ name, s'.lookup? id name = none := fun name => by
          rw [Store.lookup?, Array.getElem?_eq_none (by rw [h.size]; exact Nat.le_of_not_lt hlt)]
          rfl
        rw [hnone, hnone']
        exact .none
  · rw [size_newFrame] at hlt
    rcases Nat.lt_succ_iff_lt_or_eq.mp hlt with hlt | rfl
    · exact (hl id (h.known id hlt)).1
    · exact hknown
  · rw [hparent] at hup
    split at hup
    · next heq =>
      cases hup
      subst heq
      rw [hnames, (hl _ hp).2]
      exact ⟨(hl _ hp).1, fun _ => rfl⟩
    · obtain ⟨hknown, hchain⟩ := h.chain id up hup
      have hid := h.known id (lt_of_parent? hup)
      rw [(hl _ hid).2, (hl _ hknown).2]
      exact ⟨(hl _ hknown).1, hchain⟩

theorem congr (h : s.Alike W earlier s') (t r : Store) (hframes : t.frames = s.frames)
    (hframes' : r.frames = s'.frames) (hfields : t.fields = s.fields)
    (hfields' : r.fields = s'.fields) (hfunctions : r.functions = t.functions)
    (htime : r.time = t.time) {earlier' : String} (houtput : r.output = earlier' ++ t.output) :
    t.Alike W earlier' r where
  size := by rw [hframes, hframes', h.size]
  parent? id := by rw [Store.parent?, Store.parent?, hframes, hframes']; exact h.parent? id
  lookup? id name := by rw [Store.lookup?, Store.lookup?, hframes, hframes']; exact h.lookup? id name
  sizeFields := by rw [hfields, hfields', h.sizeFields]
  fields id name := by rw [Store.field?, Store.field?, hfields, hfields']; exact h.fields id name
  functions := hfunctions
  time := htime
  output := houtput
  known id hlt := h.known id (by rwa [hframes] at hlt)
  chain id parent hp := h.chain id parent (by rwa [Store.parent?, hframes] at hp)
  globals := h.globals
  room := by
    rw [hframes]
    exact h.room

lemma newFunction (h : s.Alike W earlier s') :
    s.newFunction.2.Alike W earlier s'.newFunction.2 :=
  h.congr s.newFunction.2 s'.newFunction.2 rfl rfl rfl rfl (congrArg Nat.succ h.functions) h.time
    h.output

lemma printLine (h : s.Alike W earlier s') (text : String) :
    (s.printLine text).Alike W earlier (s'.printLine text) := by
  refine h.congr (s.printLine text) (s'.printLine text) rfl rfl rfl rfl h.functions h.time ?_
  simp only [Store.printLine, h.output, String.append_assoc]

lemma newFields (h : s.Alike W earlier s') :
    s.newFields.2.Alike W earlier s'.newFields.2 where
  size := h.size
  parent? := h.parent?
  lookup? := h.lookup?
  sizeFields := by simp [Store.newFields, h.sizeFields]
  fields id name := by
    have hfields := h.fields id name
    unfold Store.field? Store.newFields at *
    rw [Array.getElem?_push, Array.getElem?_push, h.sizeFields]
    split
    · exact .none
    · exact hfields
  functions := h.functions
  time := h.time
  output := h.output
  known := h.known
  chain := h.chain
  globals := h.globals
  room := h.room

lemma setField (h : s.Alike W earlier s') {v v' : Value} (hv : v.Alike W v') (id : ObjectId)
    (name : String) : (s.setField id name v).Alike W earlier (s'.setField id name v') where
  size := h.size
  parent? := h.parent?
  lookup? := h.lookup?
  sizeFields := by simp [Store.setField, h.sizeFields]
  fields other name' := by
    have hfields := h.fields other name'
    have hsize := h.sizeFields
    unfold Store.field? Store.setField at *
    rw [Array.getElem?_modify, Array.getElem?_modify]
    split
    · next heq =>
      subst heq
      by_cases hlt : id < s.fields.size
      · have hlt' : id < s'.fields.size := by rwa [hsize]
        rw [Array.getElem?_eq_getElem hlt, Array.getElem?_eq_getElem hlt'] at hfields ⊢
        simp only [Option.map_some, Option.bind_some, Table.find?_put] at hfields ⊢
        split
        · exact .some hv
        · exact hfields
      · have hge := Nat.le_of_not_lt hlt
        rw [Array.getElem?_eq_none hge, Array.getElem?_eq_none (by rwa [hsize])]
        exact .none
    · exact hfields
  functions := h.functions
  time := h.time
  output := h.output
  known := h.known
  chain := h.chain
  globals := h.globals
  room := h.room

lemma ancestor? (h : s.Alike W earlier s') (id : FrameId) (distance : Nat) :
    s'.ancestor? id distance = s.ancestor? id distance := by
  induction distance generalizing id with
  | zero => rfl
  | succ distance ih => simp only [Store.ancestor?, h.parent?, ih]

lemma names_ancestor? (h : s.Alike W earlier s') {id holder : FrameId} {distance : Nat}
    (hid : W.known id) (ha : s.ancestor? id distance = some holder) :
    W.known holder ∧ W.names holder 0 = W.names id distance := by
  induction distance generalizing id with
  | zero =>
    cases ha
    exact ⟨hid, rfl⟩
  | succ distance ih =>
    obtain ⟨parent, hparent, hup⟩ := Option.bind_eq_some_iff.mp ha
    obtain ⟨hknown, hchain⟩ := h.chain id parent hparent
    rw [hchain]
    exact ih hknown hup

theorem holder?_globals (s : Store) (name : String) :
    s.holder? Store.globals name =
      if s.binds Store.globals name then some Store.globals else none := by
  change s.holderWithin name 1 Store.globals = _
  unfold Store.holderWithin
  split
  · rfl
  · cases s.parent? Store.globals <;> rfl

lemma binds_globals (h : s.Alike W earlier s') (name : String) :
    s'.binds Store.globals name = s.binds Store.globals name := by
  have hvariable := h.lookup? Store.globals name
  rw [h.globals.2] at hvariable
  change Option.Rel _ _ (s'.lookup? Store.globals name) at hvariable
  rw [binds_eq, binds_eq]
  generalize s.lookup? Store.globals name = x at hvariable ⊢
  generalize s'.lookup? Store.globals name = x' at hvariable ⊢
  cases hvariable <;> rfl

end Store.Alike

end Lox
