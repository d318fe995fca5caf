import Lox.Proofs.Alike.Variation
import Lox.Scope

namespace Lox

structure Binding.Alike (T : Token → Token → Prop) (b b' : Binding) : Prop where
  token : Option.Rel T b.token b'.token
  ready : b'.ready = b.ready
  used : b'.used = b.used
  tracked : b'.tracked = b.tracked

structure Variation.Entry (V : Variation) (T : Token → Token → Prop) (r : V.Renaming)
    (e e' : String × Binding) : Prop where
  name : e'.1 = r.val e.1
  occurs : V.Occurs e.1
  binding : e.2.Alike T e'.2

def Scope.Alike (V : Variation) (T : Token → Token → Prop) (r : V.Renaming) (s s' : Scope) : Prop :=
  List.Forall₂ (V.Entry T r) s.entries s'.entries

inductive AlikeStack (V : Variation) (T : Token → Token → Prop) :
    V.Names → List Scope → List Scope → Prop
  | nil {ν} : AlikeStack V T ν [] []
  | cons {ν s s' outer outer'} : Scope.Alike V T (ν 0) s s' →
      AlikeStack V T (fun depth => ν (depth + 1)) outer outer' →
      AlikeStack V T ν (s :: outer) (s' :: outer')

structure Scopes.Alike (V : Variation) (T : Token → Token → Prop) (earlier : List Token)
    (ν : V.Names) (σ σ' : Scopes) : Prop where
  stack : AlikeStack V T ν σ.stack σ'.stack
  reports : σ.reports = []
  reports' : σ'.reports = []
  unused : ∃ us, σ'.unused = earlier ++ us ∧ List.Forall₂ T σ.unused us

variable {V : Variation} {T : Token → Token → Prop} {earlier : List Token} {ν : V.Names}
  {r : V.Renaming}

namespace Scope.Alike

variable {s s' : Scope}

lemma find? (h : Scope.Alike V T r s s') (name : String) :
    Option.Rel (Binding.Alike T) (s.find? name) (s'.find? (r.val name)) := by
  obtain ⟨entries⟩ := s
  obtain ⟨entries'⟩ := s'
  change List.Forall₂ _ entries entries' at h
  change Option.Rel _ (Table.findIn _ entries) (Table.findIn _ entries')
  induction h with
  | nil => exact .none
  | @cons e e' _ _ he _ ih =>
    obtain ⟨key, b⟩ := e
    obtain ⟨key', b'⟩ := e'
    obtain ⟨hname, -, hb⟩ := he
    cases hname
    simp only [Table.findIn, (V.injective r.property).eq_iff]
    split
    · exact .some hb
    · exact ih

theorem find?_eq_none (h : Scope.Alike V T r s s') {name name' : String} (hoccurs : V.Occurs name)
    {r' : String → String} (hr' : V.Renames r') (hname : name' = r' name)
    (hnone : s.find? name = none) : s'.find? name' = none := by
  obtain ⟨entries⟩ := s
  obtain ⟨entries'⟩ := s'
  change List.Forall₂ _ entries entries' at h
  change Table.findIn _ entries = none at hnone
  change Table.findIn _ entries' = none
  induction h with
  | nil => rfl
  | @cons e e' _ _ he _ ih =>
    obtain ⟨key, b⟩ := e
    obtain ⟨key', b'⟩ := e'
    rw [Table.findIn] at hnone ⊢
    split at hnone
    · cases hnone
    · next hne =>
      rw [if_neg, ih hnone]
      intro heq
      exact hne (V.apart r.property hr' he.occurs hoccurs (he.name.symm.trans (heq.trans hname)))

lemma put (h : Scope.Alike V T r s s') {name : String} (hname : V.Occurs name) {b b' : Binding}
    (hb : b.Alike T b') : Scope.Alike V T r (s.put name b) (s'.put (r.val name) b') := by
  obtain ⟨entries⟩ := s
  obtain ⟨entries'⟩ := s'
  change List.Forall₂ _ entries entries' at h
  change List.Forall₂ _ (Table.putIn _ _ entries) (Table.putIn _ _ entries')
  induction h with
  | nil => exact .cons ⟨rfl, hname, hb⟩ .nil
  | @cons e e' _ _ he hmore ih =>
    obtain ⟨key, old⟩ := e
    obtain ⟨key', old'⟩ := e'
    obtain ⟨hkey, hoccurs, hold⟩ := he
    cases hkey
    simp only [Table.putIn, (V.injective r.property).eq_iff]
    split
    · exact .cons ⟨rfl, hoccurs, hb⟩ hmore
    · exact .cons ⟨rfl, hoccurs, hold⟩ ih

lemma update (h : Scope.Alike V T r s s') {name : String} (hname : V.Occurs name)
    {f : Binding → Binding} (hf : ∀ {b b' : Binding}, b.Alike T b' → (f b).Alike T (f b')) :
    Scope.Alike V T r (s.update name f) (s'.update (r.val name) f) := by
  have hb := h.find? name
  unfold Table.update
  generalize s.find? name = b at hb ⊢
  generalize s'.find? (r.val name) = b' at hb ⊢
  cases hb with
  | none => exact h
  | some hb => exact h.put hname (hf hb)

lemma unused (h : Scope.Alike V T r s s') : List.Forall₂ T (Scope.unused s) (Scope.unused s') := by
  obtain ⟨entries⟩ := s
  obtain ⟨entries'⟩ := s'
  change List.Forall₂ _ entries entries' at h
  unfold Scope.unused Table.values
  dsimp only
  induction h with
  | nil => exact .nil
  | @cons e e' _ _ he _ ih =>
    obtain ⟨key, token, ready, used, tracked⟩ := e
    obtain ⟨key', token', ready', used', tracked'⟩ := e'
    obtain ⟨-, -, htoken, -, hused, htracked⟩ := he
    cases hused
    cases htracked
    simp only [List.map_cons, List.filterMap_cons]
    cases tracked && !used with
    | false => exact ih
    | true =>
      cases htoken with
      | none => exact ih
      | some ht => exact .cons ht ih

end Scope.Alike

lemma Variation.Names.renames_under (ν : V.Names) (depth : Option Nat) :
    V.Renames (under ν depth) := by
  cases depth with
  | none => exact V.renames_id
  | some depth => exact (ν depth).property

namespace AlikeStack

variable {ss ss' : List Scope}

theorem findIdx? (h : AlikeStack V T ν ss ss') {name name' : String} (hoccurs : V.Occurs name)
    (hname : name' = Variation.Names.under ν (ss.findIdx? (·.binds name)) name) :
    ss'.findIdx? (·.binds name') = ss.findIdx? (·.binds name) := by
  induction h with
  | nil => rfl
  | @cons ν s s' outer outer' hs _ ih =>
    have hrenames := Variation.Names.renames_under ν
      ((s :: outer).findIdx? (·.binds name))
    rw [List.findIdx?_cons] at hname hrenames ⊢
    rw [List.findIdx?_cons]
    cases hb : s.find? name with
    | some b =>
      have hbinds : s.binds name = true := by rw [Table.binds, hb]; rfl
      rw [if_pos hbinds] at hname ⊢
      have hfind := hs.find? name
      rw [hb] at hfind
      have hbinds' : s'.binds name' = true := by
        have hkey : name' = (ν 0).val name := hname
        rw [Table.binds, hkey]
        generalize s'.find? _ = b' at hfind ⊢
        cases hfind
        rfl
      rw [if_pos hbinds']
    | none =>
      have hbinds : s.binds name = false := by rw [Table.binds, hb]; rfl
      have hbinds' : s'.binds name' = false := by
        rw [Table.binds, hs.find?_eq_none hoccurs hrenames hname hb]
        rfl
      simp only [hbinds, Bool.false_eq_true, if_false] at hname
      simp only [hbinds, hbinds', Bool.false_eq_true, if_false]
      rw [ih]
      rw [hname]
      cases outer.findIdx? (·.binds name) <;> rfl

lemma modify (h : AlikeStack V T ν ss ss') {f f' : Scope → Scope} {depth : Nat}
    (hf : ∀ {s s'}, Scope.Alike V T (ν depth) s s' → Scope.Alike V T (ν depth) (f s) (f' s')) :
    AlikeStack V T ν (ss.modify depth f) (ss'.modify depth f') := by
  induction h generalizing depth with
  | nil => simpa using AlikeStack.nil
  | cons hs houter ih =>
    cases depth with
    | zero => simpa using AlikeStack.cons (hf hs) houter
    | succ depth => simpa using AlikeStack.cons hs (ih hf)

end AlikeStack

namespace Scopes.Alike

variable {σ σ' : Scopes}

lemma depth? (h : σ.Alike V T earlier ν σ') {name name' : String} (hoccurs : V.Occurs name)
    (hname : name' = Variation.Names.under ν (σ.depth? name) name) :
    σ'.depth? name' = σ.depth? name := h.stack.findIdx? hoccurs hname

lemma innermost? (h : σ.Alike V T earlier ν σ') {name name' : String}
    (hoccurs : V.Occurs name) (hname : name' = Variation.Names.under ν (σ.depth? name) name) :
    Option.Rel (Binding.Alike T) (σ.innermost? name) (σ'.innermost? name') := by
  have hrenames := Variation.Names.renames_under ν (σ.depth? name)
  unfold Scopes.innermost?
  unfold Scopes.depth? at hname hrenames
  have hstack := h.stack
  generalize σ.stack = ss at hstack hname hrenames ⊢
  generalize σ'.stack = ss' at hstack ⊢
  cases hstack with
  | nil => exact .none
  | @cons _ s s' _ _ hs _ =>
    change Option.Rel _ (s.find? name) (s'.find? name')
    cases hb : s.find? name with
    | none =>
      rw [hs.find?_eq_none hoccurs hrenames hname hb]
      exact .none
    | some b =>
      have hbinds : s.binds name = true := by rw [Table.binds, hb]; rfl
      rw [List.findIdx?_cons, if_pos hbinds] at hname
      rw [← hb, hname]
      exact hs.find? name

lemma innermost?_self (h : σ.Alike V T earlier ν σ') (name : String) :
    Option.Rel (Binding.Alike T) (σ.innermost? name) (σ'.innermost? ((ν 0).val name)) := by
  unfold Scopes.innermost?
  have hstack := h.stack
  generalize σ.stack = ss at hstack ⊢
  generalize σ'.stack = ss' at hstack ⊢
  cases hstack with
  | nil => exact .none
  | cons hs _ => exact hs.find? name

lemma updateInnermost (h : σ.Alike V T earlier ν σ') {f f' : Scope → Scope}
    (hf : ∀ {s s'}, Scope.Alike V T (ν 0) s s' → Scope.Alike V T (ν 0) (f s) (f' s')) :
    (σ.updateInnermost f).Alike V T earlier ν (σ'.updateInnermost f') := by
  obtain ⟨hstack, hreports, hreports', hunused⟩ := h
  obtain ⟨stack, reports, unused⟩ := σ
  obtain ⟨stack', reports', unused'⟩ := σ'
  change AlikeStack V T ν stack stack' at hstack
  cases hstack with
  | nil => exact ⟨.nil, hreports, hreports', hunused⟩
  | cons hs houter => exact ⟨.cons (hf hs) houter, hreports, hreports', hunused⟩

lemma define (h : σ.Alike V T earlier ν σ') {t t' : Token} (hoccurs : V.Occurs t.lexeme)
    (ht : t'.lexeme = (ν 0).val t.lexeme) :
    (σ.define t).Alike V T earlier ν (σ'.define t') := by
  unfold Scopes.define
  rw [ht]
  refine h.updateInnermost fun hs => hs.update hoccurs fun hb => ?_
  exact ⟨hb.token, rfl, hb.used, hb.tracked⟩

lemma declareImplicit (h : σ.Alike V T earlier ν σ') {name : String} (hoccurs : V.Occurs name)
    (hname : (ν 0).val name = name) :
    (σ.declareImplicit name).Alike V T earlier ν (σ'.declareImplicit name) := by
  refine h.updateInnermost fun {s s'} hs => ?_
  have hb : Binding.Alike T ⟨none, true, false, false⟩ ⟨none, true, false, false⟩ :=
    ⟨.none, rfl, rfl, rfl⟩
  have hput := hs.put hoccurs hb
  rwa [hname] at hput

theorem declare (h : σ.Alike V T earlier ν σ') {t t' : Token} (hoccurs : V.Occurs t.lexeme)
    (ht : t'.lexeme = (ν 0).val t.lexeme) (htoken : T t t')
    (hnew : σ.innermost? t.lexeme = none) (tracked : Bool) :
    (σ.declare t tracked).Alike V T earlier ν (σ'.declare t' tracked) := by
  have hnew' := h.innermost?_self t.lexeme
  rw [hnew, ← ht] at hnew'
  generalize hb : σ'.innermost? t'.lexeme = b at hnew'
  cases hnew'
  unfold Scopes.declare
  rw [hnew, hb, ht]
  exact h.updateInnermost fun hs => hs.put hoccurs ⟨.some htoken, rfl, rfl, rfl⟩

lemma markUsed (h : σ.Alike V T earlier ν σ') {depth : Nat} {name : String}
    (hoccurs : V.Occurs name) :
    (σ.markUsed depth name).Alike V T earlier ν (σ'.markUsed depth ((ν depth).val name)) :=
  ⟨h.stack.modify fun hs => hs.update hoccurs fun hb => ⟨hb.token, hb.ready, rfl, hb.tracked⟩,
    h.reports, h.reports', h.unused⟩

lemma enter (h : σ.Alike V T earlier ν σ') (r : V.Renaming) :
    σ.enter.Alike V T earlier (.cons r ν) σ'.enter :=
  ⟨.cons .nil h.stack, h.reports, h.reports', h.unused⟩

lemma leave {r : V.Renaming} (h : σ.Alike V T earlier (.cons r ν) σ') :
    σ.leave.Alike V T earlier ν σ'.leave := by
  obtain ⟨hstack, hreports, hreports', us, hus, hunused⟩ := h
  obtain ⟨stack, reports, unused⟩ := σ
  obtain ⟨stack', reports', unused'⟩ := σ'
  change AlikeStack V T _ stack stack' at hstack
  cases hstack with
  | nil => exact ⟨.nil, hreports, hreports', us, hus, hunused⟩
  | @cons _ s s' _ _ hs houter =>
    refine ⟨houter, hreports, hreports', us ++ Scope.unused s', ?_, List.rel_append hunused hs.unused⟩
    change unused' ++ _ = _
    rw [show unused' = earlier ++ us from hus, List.append_assoc]

end Scopes.Alike

end Lox
