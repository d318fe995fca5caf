import Mathlib.Data.List.Forall2
import Mathlib.Order.Defs.Unbundled
import Lox.Proofs.Scope.Visitor
import Mathlib.Tactic.Lemma

namespace Lox

def Binding.Marked (b c : Binding) : Prop := c = b ∨ c = { b with used := true }

def Scope.Marked (s t : Scope) : Prop :=
  List.Forall₂ (fun e f => f.1 = e.1 ∧ e.2.Marked f.2) s.entries t.entries

def Scope.Named (s : Scope) : Prop := ∀ b ∈ s.values, b.tracked = true → b.token.isSome = true

abbrev Steady : List Scope → List Scope → Prop := List.Forall₂ Scope.Marked

inductive Grown : List Scope → List Scope → Prop where
  | nil : Grown [] []
  | cons {s t : Scope} {outer outer' : List Scope} (h : s.Named → t.Named)
    (h' : Steady outer outer') : Grown (s :: outer) (t :: outer')

def Reportable (before later : List Binding) : Prop :=
  ∃ left, later = before ++ left ∧ ∀ b ∈ left, b.token.isSome = true

lemma forall₂_trans {α : Type} {R : α → α → Prop} (hR : ∀ {a b c}, R a b → R b c → R a c)
    {l m n : List α} (h : List.Forall₂ R l m) (h' : List.Forall₂ R m n) : List.Forall₂ R l n := by
  induction h generalizing n with
  | nil => exact h'
  | cons hab _ ih =>
    cases h' with
    | cons hbc h' => exact .cons (hR hab hbc) (ih h')

namespace Table

variable {α : Type} {name : String}

lemma mem_values_put {t : Table α} {x y : α} (h : y ∈ (t.put name x).values) :
    y = x ∨ y ∈ t.values := by
  obtain ⟨entries⟩ := t
  unfold values put at h
  unfold values
  induction entries with
  | nil => exact .inl (List.mem_singleton.mp h)
  | cons e more ih =>
    unfold putIn at h
    split at h
    · exact (List.mem_cons.mp h).imp_right (List.mem_cons_of_mem _)
    · obtain rfl | h := List.mem_cons.mp h
      · exact .inr List.mem_cons_self
      · exact (ih h).imp_right (List.mem_cons_of_mem _)

lemma mem_values_of_find? {t : Table α} {x : α} (h : t.find? name = some x) : x ∈ t.values := by
  obtain ⟨entries⟩ := t
  unfold find? at h
  unfold values
  induction entries with
  | nil => cases h
  | cons e more ih =>
    unfold findIn at h
    split at h
    · exact Option.some.inj h ▸ List.mem_cons_self
    · exact List.mem_cons_of_mem _ (ih h)

theorem forall₂_update {R : String × α → String × α → Prop} (hR : ∀ e, R e e) (t : Table α)
    {f : α → α} (hf : ∀ x, R (name, x) (name, f x)) :
    List.Forall₂ R t.entries (t.update name f).entries := by
  obtain ⟨entries⟩ := t
  have hsame : ∀ entries, List.Forall₂ R entries entries :=
    fun _ => List.forall₂_same.mpr fun e _ => hR e
  have hput : ∀ x, findIn name entries = some x →
      List.Forall₂ R entries (putIn name (f x) entries) := by
    intro x hx
    induction entries with
    | nil => cases hx
    | cons e more ih =>
      obtain ⟨key, y⟩ := e
      unfold findIn at hx
      unfold putIn
      by_cases hkey : key = name
      · rw [if_pos hkey] at hx ⊢
        cases hkey
        cases hx
        exact .cons (hf x) (hsame more)
      · rw [if_neg hkey] at hx ⊢
        exact .cons (hR _) (ih hx)
  unfold update find?
  cases hx : findIn name entries with
  | none => exact hsame entries
  | some x => exact hput x hx

end Table

namespace Binding.Marked

variable {b c d : Binding}

lemma refl (b : Binding) : b.Marked b := .inl rfl

lemma trans (h : b.Marked c) (h' : c.Marked d) : b.Marked d := by
  obtain rfl | rfl := h
  · exact h'
  · obtain rfl | rfl := h'
    · exact .inr rfl
    · exact .inr rfl

lemma tracked (h : b.Marked c) : c.tracked = b.tracked := by obtain rfl | rfl := h <;> rfl

lemma token (h : b.Marked c) : c.token = b.token := by obtain rfl | rfl := h <;> rfl

end Binding.Marked

namespace Scope

variable {s t u : Scope}

namespace Marked

lemma refl (s : Scope) : s.Marked s := List.forall₂_same.mpr fun e _ => ⟨rfl, .refl e.2⟩

lemma trans (h : s.Marked t) (h' : t.Marked u) : s.Marked u :=
  forall₂_trans (fun h h' => ⟨h'.1.trans h.1, h.2.trans h'.2⟩) h h'

lemma named (h : s.Marked t) (hs : s.Named) : t.Named := by
  unfold Marked at h
  unfold Named Table.values at hs ⊢
  generalize s.entries = l, t.entries = l' at h hs
  induction h with
  | nil => exact hs
  | cons he _ ih =>
    rw [List.map_cons, List.forall_mem_cons] at hs ⊢
    rw [he.2.tracked, he.2.token]
    exact ⟨hs.1, ih hs.2⟩

lemma binds (h : s.Marked t) (name : String) : t.binds name = s.binds name := by
  unfold Marked at h
  unfold Table.binds Table.find?
  generalize s.entries = l, t.entries = l' at h
  induction h with
  | nil => rfl
  | cons he _ ih =>
    simp only [Table.findIn, he.1]
    split
    · rfl
    · exact ih

end Marked

lemma marked_used (s : Scope) (name : String) :
    s.Marked (s.update name fun b => { b with used := true }) :=
  Table.forall₂_update (fun e => ⟨rfl, .refl e.2⟩) s fun _ => ⟨rfl, .inr rfl⟩

lemma binds_put_self (s : Scope) (name : String) (b : Binding) :
    (s.put name b).binds name = true := by
  rw [Table.binds, Table.find?_put_self, Option.isSome_some]

lemma named_empty : Named .empty := nofun

lemma Named.put (h : s.Named) (name : String) {b : Binding}
    (hb : b.tracked = true → b.token.isSome = true) : Named (s.put name b) := by
  intro c hc
  obtain rfl | hc := Table.mem_values_put hc
  · exact hb
  · exact h c hc

lemma Named.ready (h : s.Named) (name : String) :
    Named (s.update name fun b => { b with ready := true }) := by
  unfold Table.update
  cases hb : s.find? name with
  | none => exact h
  | some b => exact h.put name (h b (Table.mem_values_of_find? hb))

theorem unused_eq_unread (s : Scope) : s.unused = s.unread.filterMap Binding.token := by
  rw [Scope.unused, unread, List.filterMap_filter]

lemma Named.isSome_unread (h : s.Named) : ∀ b ∈ s.unread, b.token.isSome = true := by
  intro b hb
  obtain ⟨hmem, hunread⟩ := List.mem_filter.mp hb
  exact h b hmem (Bool.and_eq_true_iff.mp hunread).1

end Scope

namespace Reportable

variable {l m n : List Binding}

lemma refl (l : List Binding) : Reportable l l :=
  ⟨[], (List.append_nil l).symm, fun _ hb => absurd hb List.not_mem_nil⟩

lemma append (h : Reportable l m) (hn : ∀ b ∈ n, b.token.isSome = true) :
    Reportable l (m ++ n) := by
  obtain ⟨left, rfl, hleft⟩ := h
  refine ⟨left ++ n, List.append_assoc .., fun b hb => ?_⟩
  exact (List.mem_append.mp hb).elim (hleft b) (hn b)

lemma trans (h : Reportable l m) (h' : Reportable m n) : Reportable l n := by
  obtain ⟨left, rfl, hleft⟩ := h'
  exact h.append hleft

end Reportable

lemma Steady.trans {l m n : List Scope} (h : Steady l m) (h' : Steady m n) : Steady l n :=
  forall₂_trans (fun h h' => h.trans h') h h'

lemma Steady.refl (l : List Scope) : Steady l l := List.forall₂_same.mpr fun s _ => .refl s

lemma Steady.grown {l m : List Scope} (h : Steady l m) : Grown l m := by
  cases h with
  | nil => exact .nil
  | cons h h' => exact .cons h.named h'

lemma Grown.trans {l m n : List Scope} (h : Grown l m) (h' : Grown m n) : Grown l n := by
  cases h with
  | nil => exact h'
  | cons h hl =>
    cases h' with
    | cons h' hl' => exact .cons (h' ∘ h) (hl.trans hl')

instance : IsPreorder (List Scope) Steady where
  refl := Steady.refl
  trans _ _ _ := Steady.trans

instance : IsPreorder (List Scope) Grown where
  refl l := (Steady.refl l).grown
  trans _ _ _ := Grown.trans

theorem grown_modifyHead {f : Scope → Scope} (hf : ∀ s, Scope.Named s → Scope.Named (f s))
    (l : List Scope) : Grown l (l.modifyHead f) := by
  cases l with
  | nil => exact .nil
  | cons s outer => exact .cons (hf s) (.refl outer)

theorem steady_modify (l : List Scope) (depth : Nat) (name : String) :
    Steady l (l.modify depth (·.update name fun b => { b with used := true })) := by
  induction l generalizing depth with
  | nil =>
    rw [List.modify_nil]
    exact .nil
  | cons s outer ih =>
    cases depth with
    | zero => exact .cons (s.marked_used name) (Steady.refl outer)
    | succ depth => exact .cons (.refl s) (ih depth)

end Lox
