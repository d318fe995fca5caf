import Lox.Proofs.Link.Run

/-! Frames put aside: the second of two linked stores takes steps of its own, in frames that
nothing stands for. It knows what it left in them, whatever else runs meanwhile. -/

namespace Lox

namespace Link.Terms

def aside (K : Terms) (id : FrameId) (f : Frame) : Terms :=
  { K with hidden := fun i g => K.hidden i g ∨ i = id ∧ g = f }

structure Sub (K K' : Terms) : Prop where
  hidden : ∀ {i f}, K.hidden i f → K'.hidden i f
  same : K'.same ↔ K.same

lemma Sub.refl (K : Terms) : K.Sub K := ⟨id, .rfl⟩

lemma Sub.trans {K K' K'' : Terms} (h : K.Sub K') (h' : K'.Sub K'') : K.Sub K'' :=
  ⟨fun hi => h'.hidden (h.hidden hi), h'.same.trans h.same⟩

lemma sub_aside (K : Terms) (id : FrameId) (f : Frame) : K.Sub (K.aside id f) := ⟨.inl, .rfl⟩

theorem sub_aside_aside (K : Terms) (id : FrameId) (f : Frame) (other : FrameId) (g : Frame) :
    (K.aside id f).Sub ((K.aside other g).aside id f) where
  hidden hi := hi.imp_left .inl
  same := .rfl

lemma sub_swap (K : Terms) (id : FrameId) (f : Frame) (other : FrameId) (g : Frame) :
    ((K.aside id f).aside other g).Sub ((K.aside other g).aside id f) where
  hidden hi := by
    rcases hi with (hi | hi) | hi
    · exact .inl (.inl hi)
    · exact .inr hi
    · exact .inl (.inr hi)
  same := .rfl

end Link.Terms

variable {K K' : Link.Terms} {L : Link} {s t : Store} {id : FrameId} {f : Frame}

namespace Store.Linked

theorem forget (h : s.Linked K' L t) (hK : K.Sub K') : s.Linked K L t :=
  { h with
    hidden := fun hi => h.hidden (hK.hidden hi)
    same := fun hs => h.same (hK.same.mpr hs) }

lemma frame (h : s.Linked (K.aside id f) L t) : t.frames[id]? = some f :=
  (h.hidden (.inr ⟨rfl, rfl⟩)).1

lemma not_hidden (h : s.Linked K L t) (f : Frame) : ¬ K.hidden t.frames.size f := by
  intro hf
  obtain ⟨hlt, -⟩ := Array.getElem?_eq_some_iff.mp (h.hidden hf).1
  exact absurd hlt (Nat.lt_irrefl _)

theorem newFrame_right (h : s.Linked K L t) (hK : ¬ K.same) (f : Frame) :
    s.Linked (K.aside t.frames.size f) L (t.newFrame f).2 :=
  { h with
    frames := fun hi => by
      rw [size_newFrame]
      exact ⟨(h.frames hi).1, Nat.lt_succ_of_lt (h.frames hi).2⟩
    parent? := fun hi => by
      rw [parent?_newFrame, if_neg (Nat.ne_of_lt (h.frames hi).2)]
      exact h.parent? hi
    lookup? := fun hi name _ => by
      rw [lookup?_newFrame, if_neg (Nat.ne_of_lt (h.frames hi).2)]
      exact Linked.lookup? h hi name
    hidden := fun {i g} hi => by
      change (t.frames.push f)[i]? = some g ∧ _
      rw [Array.getElem?_push]
      rcases hi with hi | ⟨rfl, rfl⟩
      · have hne : i ≠ t.frames.size := fun heq => not_hidden h g (heq ▸ hi)
        rw [if_neg hne]
        exact h.hidden hi
      · rw [if_pos rfl]
        exact ⟨rfl, fun j hj => absurd (h.frames hj).2 (Nat.lt_irrefl _)⟩
    same := fun hs => absurd hs hK }

theorem define_right (h : s.Linked (K.aside id f) L t)
    (hid : ∀ g, ¬ K.hidden id g) (name : String) (x : Variable) :
    s.Linked (K.aside id (f.define name x)) L (t.define id name x) := by
  obtain ⟨hframe, hnone⟩ := h.hidden (.inr ⟨rfl, rfl⟩)
  have hne : ∀ {i i'}, L.frames i i' → i' ≠ id := fun hi heq => hnone _ (heq ▸ hi)
  exact { h with
    frames := fun hi => by
      rw [size_define]
      exact h.frames hi
    parent? := fun hi => by
      rw [parent?_define]
      exact h.parent? hi
    lookup? := fun hi name' _ => by
      rw [lookup?_define, if_neg fun hc => hne hi hc.1.symm]
      exact Linked.lookup? h hi name'
    hidden := fun {i g} hi => by
      rcases hi with hi | ⟨rfl, rfl⟩
      · have hother : i ≠ id := fun heq => hid g (heq ▸ hi)
        rw [getElem?_define t hother]
        exact h.hidden (.inl hi)
      · refine ⟨?_, hnone⟩
        unfold Store.define
        rw [Array.getElem?_modify, if_pos rfl, hframe]
        rfl
    same := fun hs => by
      rw [size_define]
      exact h.same hs }

end Store.Linked

namespace Link

inductive Leads {α β : Type} (L : Link) (K : Terms) (Q : Link → α → Store → β → Store → Prop) :
    EStateM.Result Abort Store α → EStateM.Result Abort Store β → Prop
  | ok {x x' s t} (L' : Link) : L.Sub L' → Q L' x s x' t → Leads L K Q (.ok x s) (.ok x' t)
  | error {e e' s t} (L' : Link) : L.Sub L' → s.Linked K L' t → e.Linked L' e' →
    Leads L K Q (.error e s) (.error e' t)

variable {α β γ δ : Type} {Q : Link → α → Store → β → Store → Prop}
  {r : EStateM.Result Abort Store α} {r' : EStateM.Result Abort Store β}

lemma Ends.leads {R : Link → α → β → Prop} (h : L.Ends K' R r r') (hK : K.Sub K') :
    L.Leads K (fun L' x s x' t => s.Linked K' L' t ∧ R L' x x') r r' := by
  cases h with
  | ok L' hl hs hx => exact .ok L' hl ⟨hs, hx⟩
  | error L' hl hs he => exact .error L' hl (hs.forget hK) he

theorem Ends.forget {R : Link → α → β → Prop} (h : L.Ends K' R r r') (hK : K.Sub K') :
    L.Ends K R r r' := by
  cases h with
  | ok L' hl hs hx => exact .ok L' hl (hs.forget hK) hx
  | error L' hl hs he => exact .error L' hl (hs.forget hK) he

theorem Ends.of_ok {R : Link → α → β → Prop} {x : α} (h : L.Ends K R (.ok x s) r') :
    ∃ L' x' t, r' = .ok x' t ∧ L.Sub L' ∧ s.Linked K L' t ∧ R L' x x' := by
  cases h with
  | ok L' hl hs hx => exact ⟨L', _, _, rfl, hl, hs, hx⟩

namespace Leads

lemma ends {R : Link → α → β → Prop}
    (h : L.Leads K (fun L' x s x' t => s.Linked K L' t ∧ R L' x x') r r') : L.Ends K R r r' := by
  cases h with
  | ok L' hl hx => exact .ok L' hl hx.1 hx.2
  | error L' hl hs he => exact .error L' hl hs he

lemma before {L₀ : Link} (h : L.Leads K Q r r') (hl : L₀.Sub L) : L₀.Leads K Q r r' := by
  cases h with
  | ok L' hl' hx => exact .ok L' (hl.trans hl') hx
  | error L' hl' hs he => exact .error L' (hl.trans hl') hs he

theorem bind {R : Link → γ → Store → δ → Store → Prop} {x : Eval α} {x' : Eval β}
    {f : α → Eval γ} {f' : β → Eval δ} (h : L.Leads K Q (x s) (x' t))
    (h' : ∀ L' a s' a' t', L.Sub L' → Q L' a s' a' t' → x s = .ok a s' →
      L'.Leads K R (f a s') (f' a' t')) :
    L.Leads K R ((x >>= f) s) ((x' >>= f') t) := by
  change L.Leads K R ((EStateM.bind x f) s) ((EStateM.bind x' f') t)
  unfold EStateM.bind
  generalize hr : x s = r at h ⊢
  generalize x' t = r' at h ⊢
  cases h with
  | ok L' hl hx => exact (h' L' _ _ _ _ hl hx hr).before hl
  | error L' hl hs he => exact .error L' hl hs he

theorem andThen {R : Link → α → Store → δ → Store → Prop} {x' : Eval β} {f' : β → Eval δ}
    (h : L.Leads K Q r (x' t))
    (h' : ∀ L' a s' a' t', L.Sub L' → Q L' a s' a' t' → r = .ok a s' →
      ∃ b t'', f' a' t' = .ok b t'' ∧ R L' a s' b t'') :
    L.Leads K R r ((x' >>= f') t) := by
  change L.Leads K R r ((EStateM.bind x' f') t)
  unfold EStateM.bind
  generalize x' t = r' at h ⊢
  cases h with
  | ok L' hl hx =>
    obtain ⟨b, t'', hrun, hb⟩ := h' L' _ _ _ _ hl hx rfl
    dsimp only
    rw [hrun]
    exact .ok L' hl hb
  | error L' hl hs he => exact .error L' hl hs he

end Leads

end Link

end Lox
