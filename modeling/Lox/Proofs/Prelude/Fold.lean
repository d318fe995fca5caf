import Lox.Proofs.Link.Execute
import Lox.Proofs.Prelude.Piece

namespace Lox

def Store.KeepsPrelude {α : Type} (s : Store) (run : List Value → Eval α) (items : List Value) :
    Prop :=
  ∀ before, before <+: items → ∀ a s', run before s = .ok a s' → s'.HasPrelude

lemma Store.KeepsPrelude.step {α : Type} {s s' : Store} {step : α → Value → Eval α} {a b : α}
    {x : Value} {items : List Value}
    (h : s.KeepsPrelude (fun before => before.foldlM step a) (x :: items))
    (hx : step a x s = .ok b s') : s'.KeepsPrelude (fun before => before.foldlM step b) items := by
  intro before hbefore c s'' hrun
  have hmore : (x :: before).foldlM step a s = .ok c s'' := by
    rw [List.foldlM_cons]
    exact (Eval.bind_of_ok hx _).trans hrun
  exact h (x :: before) ((List.prefix_cons_inj x).mpr hbefore) c s'' hmore

lemma Store.KeepsPrelude.of_map {α β : Type} {s : Store} {run : List Value → Eval β}
    {run' : List Value → Eval α} {f : α → β} {items : List Value} (h : s.KeepsPrelude run items)
    (hrun : ∀ before, run before = f <$> run' before) : s.KeepsPrelude run' items := by
  intro before hbefore a s' hbegun
  refine h before hbefore (f a) s' ?_
  rw [hrun, map_eq_pure_bind]
  exact Eval.bind_of_ok hbegun _

namespace Prelude

open Evaluator Eval

def foldlFrame (g acc xs : Value) : Frame := .given Store.globals foldl.paramNames [g, acc, xs]

variable {α : Type} {turns levels n : Nat} {K : Link.Terms} {L : Link} {s t : Store} {F : FrameId}
  {g a' xs' x' : Value} {items items' : List Value} {R : Link → α → Value → Prop}

lemma foldlCondition_eq (ht : t.HasPrelude) (hF : t.frames[F]? = some (foldlFrame g a' xs'))
    (hxs : xs'.elements? = some items) :
    (Value.isTruthy <$> (deep turns (n + 3)).eval F foldlCondition) t = .ok (!items.isEmpty) t := by
  have hargs : (deep turns (n + 1)).evalAll F [bound 0 "xs" 7 17] t = .ok [xs'] t :=
    evalAll_cons (eval_here hF rfl) evalAll_nil
  have hcall : (deep turns (n + 2)).eval F
      (.call (global "empty" 7 11) (paren 7 19) [bound 0 "xs" 7 17]) t =
        .ok (.bool items.isEmpty) t :=
    eval_native .empty ht (by simp) hargs rfl (Native.apply_empty hxs t.time)
  have hcondition : (deep turns (n + 3)).eval F foldlCondition t = .ok (.bool (!items.isEmpty)) t :=
    bind_of_ok hcall _
  exact bind_of_ok hcondition _

section

variable {G : FrameId} (ht : t.HasPrelude) (hF : t.frames[F]? = some (foldlFrame g a' xs'))
  (hG : t.frames[G]? = some (.empty F))

include ht hF hG

theorem foldlCall_eq (hxs : xs'.elements? = some (x' :: items')) :
    (deep turns (n + 3)).eval G foldlCall t =
      (deep turns (n + 2)).call (name "f" 8 11) (paren 8 27) g [a', x'] t := by
  have hvalue : (deep turns (n + 1)).eval G (bound 1 "xs" 8 24) t = .ok xs' t :=
    eval_outside hG rfl hF rfl
  have helement : (deep turns (n + 2)).eval G foldlElement t = .ok x' t :=
    eval_native .first ht (by simp) (evalAll_cons hvalue evalAll_nil) rfl
      (Native.apply_first hxs t.time rfl)
  have hf : (deep turns (n + 2)).eval G (bound 1 "f" 8 11) t = .ok g t := eval_outside hG rfl hF rfl
  have hacc : (deep turns (n + 2)).eval G (bound 1 "acc" 8 13) t = .ok a' t :=
    eval_outside hG rfl hF rfl
  exact evalExpr_call hf (evalAll_cons hacc (evalAll_cons helement evalAll_nil))

theorem foldlRest_eq (hxs : xs'.elements? = some (x' :: items')) :
    ∃ xs'', xs''.elements? = some items' ∧
      (deep turns (n + 4)).execAll G [setOutside "xs" 9 5 foldlRest] t =
        .ok .normal (t.assign F "xs" xs'') := by
  obtain ⟨xs'', hrest, hxs''⟩ := Native.apply_rest hxs t.time
  have hvalue : (deep turns (n + 1)).eval G (bound 1 "xs" 9 15) t = .ok xs' t :=
    eval_outside hG rfl hF rfl
  have heval : (deep turns (n + 2)).eval G foldlRest t = .ok xs'' t :=
    eval_native .rest ht (by simp) (evalAll_cons hvalue evalAll_nil) rfl hrest
  have hset : (deep turns (n + 3)).eval G (.assign ⟨name "xs" 9 5, some 1⟩ foldlRest 9) t =
      .ok xs'' (t.assign F "xs" xs'') :=
    (bind_of_ok heval _).trans (bind_of_ok (assignName_outside hG rfl) _)
  have hexec : (deep turns (n + 4)).exec G (setOutside "xs" 9 5 foldlRest) t =
      .ok .normal (t.assign F "xs" xs'') := bind_of_ok hset _
  exact ⟨xs'', hxs'', bind_of_ok hexec _⟩

end

theorem foldlBody_leads {r : EStateM.Result Abort Store α} (hK : ¬ K.same)
    (hF : ∀ f, ¬ K.hidden F f) (hs : s.Linked (K.aside F (foldlFrame g a' xs')) L t)
    (hprelude : s.HasPrelude) (hxs : xs'.elements? = some (x' :: items'))
    (hcall : ∀ K' t', K.Sub K' → s.Linked K' L t' →
      L.Ends K' R r
        ((deep turns (levels + 2)).call (name "f" 8 11) (paren 8 27) g [a', x'] t'))
    (hafter : ∀ b s', r = .ok b s' → s'.HasPrelude) :
    L.Leads K
      (fun L' b s' outcome t' => outcome = .normal ∧ ∃ b' xs'', R L' b b' ∧
        xs''.elements? = some items' ∧ s'.Linked (K.aside F (foldlFrame g b' xs'')) L' t')
      r ((deep turns (levels + 6)).exec F foldlBody t) := by
  let G := t.frames.size
  let t₁ := (t.newFrame (.empty F)).2
  let K₁ := K.aside G (.empty F)
  have hFG : ∀ f, ¬ K₁.hidden F f := by
    rintro f (hf | ⟨hFG, -⟩)
    · exact hF f hf
    · exact hs.not_hidden (foldlFrame g a' xs') (.inr ⟨hFG.symm, rfl⟩)
  -- The frame of the block stays inside that of the function as long as the turn takes.
  have hG : ∀ {f L'} {s' t' : Store}, s'.Linked (K₁.aside F f) L' t' →
      t'.frames[G]? = some (.empty F) := fun h => (h.hidden (.inl (.inr ⟨rfl, rfl⟩))).1
  have hs₁ : s.Linked (K₁.aside F (foldlFrame g a' xs')) L t₁ :=
    (hs.newFrame_right hK (.empty F)).forget (Link.Terms.sub_swap ..)
  have hvalue : L.Leads K
      (fun L' b s' b' t' => s'.Linked (K₁.aside F (foldlFrame g a' xs')) L' t' ∧ R L' b b')
      r ((deep turns (levels + 3)).eval G foldlCall t₁) := by
    rw [foldlCall_eq (hprelude.linked hs₁) hs₁.frame (hG hs₁) hxs]
    have hsub : K.Sub (K₁.aside F (foldlFrame g a' xs')) :=
      (Link.Terms.sub_aside ..).trans (Link.Terms.sub_aside ..)
    exact (hcall _ t₁ hsub hs₁).leads hsub
  have hassign : L.Leads K
      (fun L' b s' _ t' => ∃ b', s'.Linked (K₁.aside F (foldlFrame g b' xs')) L' t' ∧ R L' b b')
      r ((deep turns (levels + 4)).eval G (.assign ⟨name "acc" 8 5, some 1⟩ foldlCall 8) t₁) := by
    refine hvalue.andThen fun L' b s' b' t' _ h _ => ?_
    exact ⟨b', _, bind_of_ok (assignName_outside (hG h.1) rfl) _, b',
      h.1.define_right hFG "acc" ⟨b', true⟩, h.2⟩
  have hfirst : L.Leads K
      (fun L' b s' outcome t' => outcome = .normal ∧
        ∃ b', s'.Linked (K₁.aside F (foldlFrame g b' xs')) L' t' ∧ R L' b b')
      r ((deep turns (levels + 5)).exec G (setOutside "acc" 8 5 foldlCall) t₁) :=
    hassign.andThen fun L' b s' _ t' _ h _ => ⟨.normal, t', rfl, rfl, h⟩
  refine hfirst.andThen fun L' b s' outcome t' _ h hr => ?_
  obtain ⟨rfl, b', hs', hb⟩ := h
  obtain ⟨xs'', hxs'', hrest⟩ :=
    foldlRest_eq ((hafter b s' hr).linked hs') hs'.frame (hG hs') hxs
  have hdone := hs'.define_right hFG "xs" ⟨xs'', true⟩
  exact ⟨.normal, _, hrest, rfl, b', xs'', hb, hxs'', hdone.forget (Link.Terms.sub_aside_aside ..)⟩

structure Steps (turns levels : Nat) (K : Link.Terms) (L : Link) (R : Link → α → Value → Prop)
    (step : α → Value → Eval α) (g : Value) : Prop where
  ends : ∀ {K' L' s t a a' x x'}, K.Sub K' → L.Sub L' → s.Linked K' L' t → s.HasPrelude →
    (∀ b s', step a x s = .ok b s' → s'.HasPrelude) → R L' a a' → x.Linked L' x' →
    L'.Ends K' R (step a x s)
      ((deep turns (levels + 2)).call (name "f" 8 11) (paren 8 27) g [a', x'] t)

variable {step : α → Value → Eval α} {a : α}

theorem foldlRounds_leads (hK : ¬ K.same) (hF : ∀ f, ¬ K.hidden F f)
    (hstep : Steps turns levels K L R step g) (hitems : List.Forall₂ (Value.Linked L) items items')
    (hxs : xs'.elements? = some items') (ha : R L a a')
    (hs : s.Linked (K.aside F (foldlFrame g a' xs')) L t)
    (hkeeps : s.KeepsPrelude (fun before => before.foldlM step a) items) {rounds : Nat}
    (hrounds : items.length < rounds) :
    L.Leads K
      (fun L' b s' outcome t' => outcome = .normal ∧ ∃ b' xs'', R L' b b' ∧
        s'.Linked (K.aside F (foldlFrame g b' xs'')) L' t')
      (items.foldlM step a s)
      (loop (Value.isTruthy <$> (deep turns (levels + 6)).eval F foldlCondition)
        ((deep turns (levels + 6)).exec F foldlBody) rounds t) := by
  induction items generalizing L items' xs' a a' s t rounds with
  | nil =>
    cases hitems
    obtain ⟨rounds, rfl⟩ := Nat.exists_eq_succ_of_ne_zero (Nat.ne_of_gt hrounds)
    have hprelude : s.HasPrelude := hkeeps [] List.nil_prefix a s rfl
    rw [loop_stop (foldlCondition_eq (hprelude.linked hs) hs.frame hxs)]
    exact .ok L (.refl L) ⟨rfl, a', xs', ha, hs⟩
  | cons x items ih =>
    obtain ⟨x', items', rfl⟩ : ∃ x' more, items' = x' :: more := by
      cases hitems
      exact ⟨_, _, rfl⟩
    obtain ⟨hx, hitems⟩ := List.forall₂_cons.mp hitems
    obtain ⟨rounds, rfl⟩ := Nat.exists_eq_succ_of_ne_zero (Nat.ne_of_gt (Nat.zero_lt_of_lt hrounds))
    have hprelude : s.HasPrelude := hkeeps [] List.nil_prefix a s rfl
    have hafter : ∀ b s', step a x s = .ok b s' → s'.HasPrelude := fun b s' hrun =>
      hkeeps.step hrun [] List.nil_prefix b s' rfl
    have hcall : ∀ K' t', K.Sub K' → s.Linked K' L t' →
        L.Ends K' R (step a x s)
          ((deep turns (levels + 2)).call (name "f" 8 11) (paren 8 27) g [a', x'] t') :=
      fun K' t' hsub hs' => hstep.ends hsub (.refl L) hs' hprelude hafter ha hx
    rw [loop_turn (foldlCondition_eq (hprelude.linked hs) hs.frame hxs), List.foldlM_cons]
    have hbody := foldlBody_leads hK hF hs hprelude hxs hcall hafter
    refine hbody.bind fun L₁ b s₁ outcome t₁ h₁ h hrun => ?_
    obtain ⟨rfl, b', xs'', hb, hxs'', hs₁⟩ := h
    have hstep₁ : Steps turns levels K L₁ R step g :=
      ⟨fun hsub hl => hstep.ends hsub (h₁.trans hl)⟩
    exact ih hstep₁ (linkedValues_mono h₁ _ _ hitems) hxs'' hb hs₁ (hkeeps.step hrun)
      (Nat.lt_of_succ_lt_succ hrounds)

theorem foldl_ends (hK : ¬ K.same) (hstep : Steps turns levels K L R step g)
    (hitems : List.Forall₂ (Value.Linked L) items items') (hxs : xs'.elements? = some items')
    (ha : R L a a') (hs : s.Linked K L t)
    (hkeeps : s.KeepsPrelude (fun before => before.foldlM step a) items)
    (hturns : items.length < turns) (first paren : Token) (id : Nat) :
    L.Ends K R (items.foldlM step a s)
      ((deep turns (levels + 7)).call first paren (.function ⟨id, foldl, Store.globals, false⟩)
        [g, a', xs'] t) := by
  let F := t.frames.size
  let t₁ := (t.newFrame (foldlFrame g a' xs')).2
  have hs₁ : s.Linked (K.aside F (foldlFrame g a' xs')) L t₁ := hs.newFrame_right hK _
  have hloop : L.Leads K
      (fun L' b s' outcome t' => outcome = .normal ∧ ∃ b' xs'', R L' b b' ∧
        s'.Linked (K.aside F (foldlFrame g b' xs'')) L' t')
      (items.foldlM step a s) ((deep turns (levels + 7)).exec F foldlLoop t₁) := by
    change L.Leads K _ _ (loop _ _ (deep turns (levels + 6)).turns t₁)
    rw [turns_deep]
    exact foldlRounds_leads hK hs.not_hidden hstep hitems hxs ha hs₁ hkeeps hturns
  have hbody : L.Leads K
      (fun L' b s' outcome t' => ∃ b', outcome = .returned b' ∧ s'.Linked K L' t' ∧ R L' b b')
      (items.foldlM step a s) ((deep turns (levels + 7)).execAll F foldl.body t₁) := by
    refine hloop.andThen fun L' b s' outcome t' _ h _ => ?_
    obtain ⟨rfl, b', xs'', hb, hs'⟩ := h
    have hacc : (deep turns (levels + 6)).eval F (bound 0 "acc" 11 10) t' = .ok b' t' :=
      eval_here hs'.frame rfl
    have hreturn : (deep turns (levels + 7)).exec F (giveBack 11 3 (bound 0 "acc" 11 10)) t' =
        .ok (.returned b') t' := bind_of_ok hacc _
    exact ⟨.returned b', t', bind_of_ok hreturn _, b', rfl, hs'.forget (Link.Terms.sub_aside ..), hb⟩
  rw [call_function rfl, invoke_eq rfl]
  refine (hbody.andThen fun L' b s' outcome t' _ h _ => ?_).ends
  obtain ⟨b', rfl, h⟩ := h
  exact ⟨b', t', rfl, h⟩

end Prelude

end Lox
