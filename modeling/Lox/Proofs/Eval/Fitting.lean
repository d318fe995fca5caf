import Lox.Proofs.Eval.Follow

namespace Lox

variable {sources : List String} {w : World} {s s' : Store}

theorem Store.Fits.congr (h : s.Fits sources w) (hframes : s'.frames = s.frames)
    (hfields : s'.fields = s.fields) : Later w s w s' ∧ s'.Fits sources w := by
  have hparent : ∀ id, s'.parent? id = s.parent? id := fun id => by
    rw [Store.parent?, Store.parent?, hframes]
  have hbinds : ∀ id name, s'.binds id name = s.binds id name := fun id name => by
    rw [Store.binds, Store.binds, hframes]
  have hlookup : ∀ id name, s'.lookup? id name = s.lookup? id name := fun id name => by
    rw [Store.lookup?, Store.lookup?, hframes]
  have hl : Later w s w s' := by
    refine ⟨List.prefix_refl _, List.prefix_refl _, fun id parent hp => ?_, fun id name hb => ?_,
      fun id x hx => ?_⟩
    · rwa [hparent]
    · rwa [hbinds]
    · rwa [hlookup]
  refine ⟨hl, ?_, ?_, ?_, ?_, ?_, ?_, ?_⟩
  · rw [hframes, h.size]
  · rw [hfields, h.places]
  · rw [hparent, h.root]
  · rw [hframes]
    exact h.rooted
  · intro id name hid hb
    rw [hbinds] at hb
    exact h.names id name hid hb
  · intro id name x hx
    rw [hlookup] at hx
    exact (h.variables id name x hx).later hl
  · intro id name v hv
    rw [Store.field?, hfields] at hv
    exact (h.fields id name v hv).later hl

theorem Store.later_define (w : World) (s : Store) {id : FrameId} {name : String} {x : Variable}
    (hid : id < s.frames.size) (hfresh : name = Eval.thisName → s.lookup? id name = none) :
    Later w s w (s.define id name x) ∧ (s.define id name x).lookup? id name = some x := by
  refine ⟨⟨List.prefix_refl _, List.prefix_refl _, fun other parent hp => ?_,
    fun other name' hb => ?_, fun other y hy => ?_⟩, ?_⟩
  · rw [parent?_define, hp]
  · rw [binds_eq] at hb ⊢
    rw [lookup?_define]
    split
    · rfl
    · exact hb
  · rw [lookup?_define]
    split
    · next heq =>
      obtain ⟨rfl, rfl, -⟩ := heq
      rw [hfresh rfl] at hy
      cases hy
    · exact hy
  · rw [lookup?_define, if_pos ⟨rfl, rfl, hid⟩]

theorem Store.Fits.define (h : s.Fits sources w) {id : FrameId} {name : String} {x : Variable}
    (hid : id < s.frames.size) (hfresh : name = Eval.thisName → s.lookup? id name = none)
    (hname : id ≠ globals → ∃ scope, w.scopes[id]? = some scope ∧ scope.binds name)
    (hx : x.Fits sources w (s.define id name x) name) :
    (s.define id name x).Fits sources w := by
  have hl : Later w s w (s.define id name x) := (later_define w s hid hfresh).1
  refine ⟨?_, h.places, ?_, ?_, ?_, ?_, ?_⟩
  · rw [size_define, h.size]
  · rw [parent?_define, h.root]
  · rw [size_define]
    exact h.rooted
  · intro other name' hother hb
    rw [binds_eq, lookup?_define] at hb
    split at hb
    · next heq =>
      obtain ⟨rfl, rfl, -⟩ := heq
      exact hname hother
    · rw [← binds_eq] at hb
      exact h.names other name' hother hb
  · intro other name' y hy
    rw [lookup?_define] at hy
    split at hy
    · next heq =>
      obtain ⟨rfl, rfl, -⟩ := heq
      cases hy
      exact hx
    · exact (h.variables other name' y hy).later hl
  · intro other name' v hv
    exact (h.fields other name' v hv).later hl

theorem Store.Fits.newFrame (h : s.Fits sources w) (parent : FrameId) (scope : Scope) :
    let w' : World := { w with scopes := w.scopes ++ [scope] }
    let s' := (s.newFrame (.empty parent)).2
    Later w s w' s' ∧ s'.Fits sources w' ∧
      w'.scopes[s.frames.size]? = some scope ∧ s'.parent? s.frames.size = some parent ∧
      s.frames.size < s'.frames.size ∧ ∀ name, s'.lookup? s.frames.size name = none := by
  intro w' s'
  have hvariable := fun other name => lookup?_newFrame s other name (.empty parent)
  have hparent := fun other => parent?_newFrame s other (.empty parent)
  have hsize := size_newFrame s (.empty parent)
  have hl : Later w s w' s' := by
    refine ⟨List.prefix_append w.scopes [scope], List.prefix_refl _, fun other p hp => ?_,
      fun other name hb => ?_, fun other x hx => ?_⟩
    · rw [hparent, if_neg (Nat.ne_of_lt (lt_of_parent? hp)), hp]
    · have hlt := Nat.ne_of_lt (lt_of_binds hb)
      rw [binds_eq] at hb ⊢
      rwa [hvariable, if_neg hlt]
    · have hlt := Nat.ne_of_lt (lt_of_lookup? hx)
      rwa [hvariable, if_neg hlt]
  have hold : ∀ other name x, s'.lookup? other name = some x →
      s.lookup? other name = some x := by
    intro other name x hx
    rw [hvariable] at hx
    split at hx
    · cases hx
    · exact hx
  refine ⟨hl, ⟨?_, h.places, ?_, ?_, ?_, ?_, ?_⟩, ?_, ?_, ?_, fun name => ?_⟩
  · rw [hsize, h.size, List.length_append, List.length_singleton]
  · have hne : globals ≠ s.frames.size := Nat.ne_of_lt h.rooted
    rw [hparent, if_neg hne, h.root]
  · rw [hsize]
    exact Nat.succ_pos _
  · intro other name hother hb
    rw [binds_eq, Option.isSome_iff_exists] at hb
    obtain ⟨x, hx⟩ := hb
    have hb : s.binds other name := by
      rw [binds_eq, hold other name x hx]
      rfl
    obtain ⟨c, hc, hbinds⟩ := h.names other name hother hb
    exact ⟨c, getElem?_mono hl.world hc, hbinds⟩
  · intro other name x hx
    exact (h.variables other name x (hold other name x hx)).later hl
  · intro other name v hv
    exact (h.fields other name v hv).later hl
  · rw [h.size, List.getElem?_append_right (Nat.le_refl _), Nat.sub_self]
    rfl
  · rw [hparent, if_pos rfl]
    rfl
  · rw [hsize]
    exact Nat.lt_succ_self _
  · rw [hvariable, if_pos rfl]
    rfl

theorem Store.Fits.newFields (h : s.Fits sources w) (owner : Value) :
    let w' : World := { w with owners := w.owners ++ [owner] }
    Later w s w' s.newFields.2 ∧ s.newFields.2.Fits sources w' ∧
      w'.owners[s.fields.size]? = some owner := by
  intro w'
  have hl : Later w s w' s.newFields.2 :=
    ⟨List.prefix_refl _, List.prefix_append w.owners [owner], fun _ _ h => h, fun _ _ h => h,
      fun _ _ h => h⟩
  refine ⟨hl, ⟨h.size, ?_, h.root, h.rooted, h.names, fun id name x hx => ?_,
    fun id name v hv => ?_⟩, ?_⟩
  · rw [Store.newFields, Array.size_push, h.places, List.length_append, List.length_singleton]
  · exact (h.variables id name x hx).later hl
  · have hold : s.field? id name = some v := by
      unfold Store.field? Store.newFields at *
      rw [Array.getElem?_push] at hv
      split at hv
      · cases hv
      · exact hv
    exact (h.fields id name v hold).later hl
  · rw [h.places, List.getElem?_append_right (Nat.le_refl _), Nat.sub_self]
    rfl

lemma Store.Fits.setField (h : s.Fits sources w) {id : ObjectId} {name : String} {v : Value}
    (hv : v.Fits sources w s) :
    Later w s w (s.setField id name v) ∧ (s.setField id name v).Fits sources w := by
  have hl : Later w s w (s.setField id name v) :=
    ⟨List.prefix_refl _, List.prefix_refl _, fun _ _ h => h, fun _ _ h => h, fun _ _ h => h⟩
  refine ⟨hl, h.size, ?_, h.root, h.rooted, h.names, fun id name x hx => ?_, ?_⟩
  · rw [← h.places]
    exact Array.size_modify
  · exact (h.variables id name x hx).later hl
  · intro other name' u hu
    have hold : u = v ∨ s.field? other name' = some u := by
      unfold Store.field? Store.setField at *
      rw [Array.getElem?_modify] at hu
      split at hu
      · cases hf : s.fields[other]? with
        | none =>
          rw [hf] at hu
          cases hu
        | some fields =>
          rw [hf] at hu
          simp only [Option.map_some, Option.bind_some, Table.find?_put] at hu
          split at hu
          · exact .inl (Option.some.inj hu).symm
          · exact .inr hu
      · exact .inr hu
    rcases hold with rfl | hold
    · exact hv.later hl
    · exact (h.fields other name' u hold).later hl

end Lox
