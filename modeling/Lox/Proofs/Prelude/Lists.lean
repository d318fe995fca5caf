import Lox.Proofs.Prelude.Fold
import Lox.Proofs.Session.Completion

/-! The list functions of the prelude: each of them computes what its name says, and calls what it
is given once for each element, from left to right. -/

namespace Lox

namespace Prelude

open Evaluator Eval

variable {turns levels n : Nat} {K : Link.Terms} {L : Link} {s t : Store} {frame : FrameId}
  {f f' xs' ys' : Value} {items items' ys : List Value}

def IsList (L : Link) (vs : List Value) (v' : Value) : Prop := (Value.list vs).Linked L v'

def stepFrame (parent : FrameId) (acc x : Value) : Frame :=
  ((Frame.empty parent).define "acc" ⟨acc, true⟩).define "x" ⟨x, true⟩

lemma step_eq (first paren : Token) (id line column : Nat) (value : Expr) (acc x : Value) :
    (deep turns (n + 1)).call first paren (.function ⟨id, step line column value, frame, false⟩)
        [acc, x] t =
      (deep turns n).eval t.frames.size value (t.newFrame (stepFrame frame acc x)).2 :=
  call_giveBack rfl

theorem consCall_eq (ht : t.HasPrelude) {parent : FrameId} {x' : Value} {vs' : List Value}
    (hframe : t.frames[frame]? = some (stepFrame parent (.list vs') x')) (row column : Nat) :
    (deep turns (n + 2)).eval frame (consCall row column) t = .ok (.list (x' :: vs')) t := by
  have hx : (deep turns (n + 1)).eval frame (bound 0 "x" row (column + 5)) t = .ok x' t :=
    eval_here hframe rfl
  have hacc : (deep turns (n + 1)).eval frame (bound 0 "acc" row (column + 8)) t =
      .ok (.list vs') t := eval_here hframe rfl
  exact eval_native .cons ht (by simp) (evalAll_cons hx (evalAll_cons hacc evalAll_nil)) rfl rfl

lemma consStep_steps (hK : ¬ K.same) (id line column row place : Nat) :
    Steps turns (levels + 1) K L IsList (fun acc x => pure (x :: acc))
      (.function ⟨id, step line column (consCall row place), frame, false⟩) := by
  refine ⟨fun {K' L' s t acc acc' x x'} hsub _ hs hprelude _ hacc hx => ?_⟩
  cases hacc with
  | @list _ vs' hvs =>
    have hs₁ := hs.newFrame_right (fun h => hK (hsub.same.mp h)) (stepFrame frame (.list vs') x')
    rw [step_eq, consCall_eq (n := levels) (hprelude.linked hs₁) hs₁.frame]
    exact .ok L' (.refl L') (hs₁.forget (Link.Terms.sub_aside ..)) (.list (.cons hx hvs))

section

variable {M : FrameId} {fr : Frame}

theorem callback_ends {lexeme : String} {acc' x x' : Value} (hs : s.Linked K L t)
    (hframe : t.frames[frame]? = some (stepFrame M acc' x')) (hM : t.frames[M]? = some fr)
    (hfr : fr.variables.find? lexeme = some ⟨f', true⟩) (hf : f.Linked L f') (hx : x.Linked L x')
    (paren : Token) (row column place : Nat) :
    L.Ends K Value.Linked ((deep turns (n + 1)).call (name lexeme row column) paren f [x] s)
      ((deep turns (n + 2)).eval frame
        (.call (bound 1 lexeme row column) paren [bound 0 "x" row place]) t) := by
  have hcallee : (deep turns (n + 1)).eval frame (bound 1 lexeme row column) t = .ok f' t :=
    eval_outside hframe rfl hM hfr
  have hargs : (deep turns (n + 1)).evalAll frame [bound 0 "x" row place] t = .ok [x'] t :=
    evalAll_cons (eval_here hframe rfl) evalAll_nil
  have hcall : (deep turns (n + 2)).eval frame
      (.call (bound 1 lexeme row column) paren [bound 0 "x" row place]) t =
        (deep turns (n + 1)).call (name lexeme row column) paren f' [x'] t :=
    evalExpr_call hcallee hargs
  rw [hcall]
  exact (linked_deep turns (n + 1)).call _ paren hf (.cons hx .nil) s t hs

theorem mapStep_steps (hK : ¬ K.same) (hf : f.Linked L f')
    (hfr : fr.variables.find? "f" = some ⟨f', true⟩) (id : Nat) :
    Steps turns (levels + 2) (K.aside M fr) L IsList
      (fun acc x => (fun v => v :: acc) <$>
        (deep turns (levels + 1)).call (name "f" 19 51) (paren 19 54) f [x])
      (.function ⟨id, mapStep, M, false⟩) := by
  refine ⟨fun {K' L' s t acc acc' x x'} hsub hl hs hprelude _ hacc hx => ?_⟩
  cases hacc with
  | @list _ vs' hvs =>
    let N := t.frames.size
    let t₁ := (t.newFrame (stepFrame M (.list vs') x')).2
    let K₁ := K'.aside N (stepFrame M (.list vs') x')
    have hs₁ : s.Linked K₁ L' t₁ := hs.newFrame_right (fun h => hK (hsub.same.mp h)) _
    have hM : t₁.frames[M]? = some fr := (hs₁.hidden (.inl (hsub.hidden (.inr ⟨rfl, rfl⟩)))).1
    have hvalue : L'.Ends K₁ Value.Linked
        ((deep turns (levels + 1)).call (name "f" 19 51) (paren 19 54) f [x] s)
        ((deep turns (levels + 2)).eval N mapCall t₁) :=
      callback_ends hs₁ hs₁.frame hM hfr (hf.mono hl _ _) hx _ _ _ _
    have hargs : L'.Leads K'
        (fun L₁ vs s' args t' => s'.Linked K₁ L₁ t' ∧ ∃ v' ws', args = [v', .list ws'] ∧
          List.Forall₂ (Value.Linked L₁) vs (v' :: ws'))
        (((fun v => v :: acc) <$>
          (deep turns (levels + 1)).call (name "f" 19 51) (paren 19 54) f [x]) s)
        ((deep turns (levels + 2)).evalAll N [mapCall, bound 0 "acc" 19 57] t₁) := by
      rw [map_eq_pure_bind]
      refine (hvalue.leads (Link.Terms.sub_aside ..)).bind fun L₁ v s' v' t' h₁ h _ => ?_
      have hacc : (deep turns (levels + 2)).evalAll N [bound 0 "acc" 19 57] t' =
          .ok [.list vs'] t' := evalAll_cons (eval_here h.1.frame rfl) evalAll_nil
      rw [bind_of_ok hacc]
      exact .ok L₁ (.refl L₁) ⟨h.1, v', vs', rfl, .cons h.2 (linkedValues_mono h₁ _ _ hvs)⟩
    have hcons : (deep turns (levels + 2)).eval N (global "cons" 19 46) t₁ =
        .ok (.native .cons) t₁ :=
      eval_global ((hprelude.linked hs₁).natives .cons (by simp))
    rw [mapStep, step_eq]
    change L'.Ends K' IsList _ (((deep turns (levels + 2)).eval N (global "cons" 19 46) >>= _) t₁)
    rw [bind_of_ok hcons]
    refine (hargs.andThen fun L₁ vs s' args t' _ h _ => ?_).ends
    obtain ⟨hs', v', ws', rfl, hws⟩ := h
    exact ⟨.list (v' :: ws'), t', call_native rfl rfl, hs'.forget (Link.Terms.sub_aside ..),
      .list hws⟩

theorem filterStep_steps (hK : ¬ K.same) (hf : f.Linked L f')
    (hfr : fr.variables.find? "pred" = some ⟨f', true⟩) (id : Nat) :
    Steps turns (levels + 2) (K.aside M fr) L IsList
      (fun acc x => (fun v : Value => if v.isTruthy then x :: acc else acc) <$>
        (deep turns (levels + 1)).call (name "pred" 23 46) (paren 23 52) f [x])
      (.function ⟨id, filterStep, M, false⟩) := by
  refine ⟨fun {K' L' s t acc acc' x x'} hsub hl hs _ hafter hacc hx => ?_⟩
  cases hacc with
  | @list _ vs' hvs =>
    let N := t.frames.size
    let t₁ := (t.newFrame (stepFrame M (.list vs') x')).2
    let K₁ := K'.aside N (stepFrame M (.list vs') x')
    have hs₁ : s.Linked K₁ L' t₁ := hs.newFrame_right (fun h => hK (hsub.same.mp h)) _
    have hM : t₁.frames[M]? = some fr := (hs₁.hidden (.inl (hsub.hidden (.inr ⟨rfl, rfl⟩)))).1
    have hvalue : L'.Ends K₁ Value.Linked
        ((deep turns (levels + 1)).call (name "pred" 23 46) (paren 23 52) f [x] s)
        ((deep turns (levels + 2)).eval N filterCall t₁) :=
      callback_ends hs₁ hs₁.frame hM hfr (hf.mono hl _ _) hx _ _ _ _
    rw [filterStep, step_eq, map_eq_pure_bind]
    refine ((hvalue.leads (Link.Terms.sub_aside ..)).bind fun L₁ v s' v' t' h₁ h hrun => ?_).ends
    have hvs₁ := linkedValues_mono h₁ _ _ hvs
    have hs' := h.1.forget (Link.Terms.sub_aside ..)
    rw [h.2.isTruthy]
    by_cases hv : v.isTruthy = true
    · have ht' : s'.HasPrelude := hafter _ s' (bind_of_ok hrun _)
      have hcons : (deep turns (levels + 2)).eval N (consCall 23 56) t' =
          .ok (.list (x' :: vs')) t' := consCall_eq (ht'.linked h.1) h.1.frame 23 56
      simp only [if_pos hv]
      change L₁.Leads K' _ _ ((deep turns (levels + 2)).eval N (consCall 23 56) t')
      rw [hcons]
      exact .ok L₁ (.refl L₁) ⟨hs', .list (.cons (hx.mono h₁ _ _) hvs₁)⟩
    · have hacc : (deep turns (levels + 2)).eval N (bound 0 "acc" 23 71) t' =
          .ok (.list vs') t' := eval_here h.1.frame rfl
      simp only [if_neg hv]
      change L₁.Leads K' _ _ ((deep turns (levels + 2)).eval N (bound 0 "acc" 23 71) t')
      rw [hacc]
      exact .ok L₁ (.refl L₁) ⟨hs', .list hvs₁⟩

end

def folded (function : Function) (line start column : Nat) : Expr :=
  .call (global "foldl" line start) (paren line (column + 6))
    [.lambda function, emptyList line column, bound 0 "xs" line (column + 4)]

lemma folded_eq (turns n : Nat) (ht : t.HasPrelude) {M : FrameId} {fr : Frame}
    (hM : t.frames[M]? = some fr) (hfr : fr.variables.find? "xs" = some ⟨xs', true⟩)
    (function : Function) (line start column : Nat) :
    ∃ place, (deep turns (n + 2)).eval M (folded function line start column) t =
      (deep turns (n + 1)).call (name "foldl" line start) (paren line (column + 6))
        (.function ⟨place, foldl, Store.globals, false⟩)
        [.function ⟨t.functions, function, M, false⟩, .list [], xs'] t.newFunction.2 := by
  obtain ⟨place, hfoldl⟩ := ht.functions foldl (by simp [functions])
  have hM' : t.newFunction.2.frames[M]? = some fr := hM
  exact ⟨place, evalExpr_call (eval_global hfoldl)
    (evalAll_cons rfl (evalAll_cons rfl (evalAll_cons (eval_here hM' hfr) evalAll_nil)))⟩

lemma foldlM_cons (items ys : List Value) :
    items.foldlM (fun acc x => (pure (x :: acc) : Eval (List Value))) ys =
      pure (items.reverse ++ ys) := by
  rw [List.foldlM_pure]
  simp

lemma keeps_foldlM_cons (hprelude : s.HasPrelude) (ys : List Value) :
    s.KeepsPrelude (fun before => before.foldlM (fun acc x => pure (x :: acc)) ys) items := by
  intro before _ a s' hrun
  have hpure : (pure (before.reverse ++ ys) : Eval (List Value)) s = .ok a s' :=
    foldlM_cons before ys ▸ hrun
  cases hpure
  exact hprelude

section

variable (hK : ¬ K.same) (hs : s.Linked K L t) (hprelude : s.HasPrelude)
  (hitems : List.Forall₂ (Value.Linked L) items items') (hxs : xs'.elements? = some items')
  (hturns : items.length < turns) (first paren : Token) (id : Nat)

include hK hs hprelude hitems hxs hturns

lemma reverse_ends :
    L.Ends K IsList ((pure items.reverse : Eval (List Value)) s)
      ((deep turns (levels + 10)).call first paren (.function ⟨id, reverse, Store.globals, false⟩)
        [xs'] t) := by
  let M := t.frames.size
  let fr := Frame.given Store.globals reverse.paramNames [xs']
  let t₁ := (t.newFrame fr).2
  have hs₁ : s.Linked (K.aside M fr) L t₁ := hs.newFrame_right hK fr
  have hs₂ : s.Linked (K.aside M fr) L t₁.newFunction.2 := hs₁.newFunction_right hK
  obtain ⟨place, hvalue⟩ := folded_eq turns (levels + 7) (hprelude.linked hs₁) hs₁.frame rfl
    reverseStep 15 10 55
  have hK₁ : ¬ (K.aside M fr).same := hK
  have hsteps : Steps turns (levels + 1) (K.aside M fr) L IsList (fun acc x => pure (x :: acc))
      (.function ⟨t₁.functions, reverseStep, M, false⟩) := consStep_steps hK₁ _ _ _ _ _
  have hfold := foldl_ends hK₁ hsteps hitems hxs (.list .nil) hs₂ (keeps_foldlM_cons hprelude [])
    hturns (name "foldl" 15 10) (Prelude.paren 15 61) place
  rw [foldlM_cons, List.append_nil] at hfold
  rw [reverse, call_giveBack rfl]
  change L.Ends K IsList _ ((deep turns (levels + 9)).eval M (folded reverseStep 15 10 55) t₁)
  rw [hvalue]
  exact hfold.forget (Link.Terms.sub_aside ..)

theorem append_folds (levels : Nat) {α : Type} {R : Link → α → Value → Prop}
    (step : α → Value → Eval α) {a : α}
    (hsteps : ∀ {K' L'} id M, ¬ K'.same → L.Sub L' →
      Steps turns (levels + 4) K' L' R step (.function ⟨id, appendStep, M, false⟩))
    (ha : ∀ L', L.Sub L' → R L' a ys')
    (hkeeps : s.KeepsPrelude (fun before => before.foldlM step a) items.reverse) :
    L.Ends K R (items.reverse.foldlM step a s)
      ((deep turns (levels + 13)).call first paren (.function ⟨id, append, Store.globals, false⟩)
        [xs', ys'] t) := by
  let M := t.frames.size
  let fr := Frame.given Store.globals append.paramNames [xs', ys']
  let t₁ := (t.newFrame fr).2
  let lambda : Value := .function ⟨t₁.functions, appendStep, M, false⟩
  have hK₁ : ¬ (K.aside M fr).same := hK
  have hs₁ : s.Linked (K.aside M fr) L t₁ := hs.newFrame_right hK fr
  have hs₂ : s.Linked (K.aside M fr) L t₁.newFunction.2 := hs₁.newFunction_right hK
  obtain ⟨place, hfoldl⟩ := (hprelude.linked hs₁).functions foldl (by simp [functions])
  obtain ⟨place', hreverse⟩ := (hprelude.linked hs₂).functions reverse (by simp [functions])
  have hreversed : L.Ends (K.aside M fr) IsList ((pure items.reverse : Eval (List Value)) s)
      ((deep turns (levels + 11)).eval M
        (.call (global "reverse" 35 59) (Prelude.paren 35 69) [bound 0 "xs" 35 67])
        t₁.newFunction.2) := by
    have hcall : (deep turns (levels + 11)).eval M
        (.call (global "reverse" 35 59) (Prelude.paren 35 69) [bound 0 "xs" 35 67])
        t₁.newFunction.2 =
          (deep turns (levels + 10)).call (name "reverse" 35 59) (Prelude.paren 35 69)
            (.function ⟨place', reverse, Store.globals, false⟩) [xs'] t₁.newFunction.2 :=
      evalExpr_call (eval_global hreverse) (evalAll_cons (eval_here hs₂.frame rfl) evalAll_nil)
    rw [hcall]
    exact reverse_ends hK₁ hs₂ hprelude hitems hxs hturns _ _ place'
  obtain ⟨L₁, v', t₂, hrun, hl, hs₃, hv⟩ := hreversed.of_ok
  cases hv with
  | @list _ vs' hvs =>
    have hvalue : (deep turns (levels + 12)).eval M appendValue t₁ =
        (deep turns (levels + 11)).call (name "foldl" 35 10) (Prelude.paren 35 70)
          (.function ⟨place, foldl, Store.globals, false⟩) [lambda, ys', .list vs'] t₂ :=
      evalExpr_call (eval_global hfoldl)
        (evalAll_cons rfl
          (evalAll_cons (eval_here hs₂.frame rfl) (evalAll_cons hrun evalAll_nil)))
    have hlength : items.reverse.length < turns := by rwa [List.length_reverse]
    have helements : (Value.list vs').elements? = some vs' := rfl
    have hfold := foldl_ends hK₁ (hsteps t₁.functions M hK₁ hl) hvs helements (ha L₁ hl) hs₃ hkeeps
      hlength (name "foldl" 35 10) (Prelude.paren 35 70) place
    rw [append, call_giveBack rfl]
    change L.Ends K R _ ((deep turns (levels + 12)).eval M appendValue t₁)
    rw [hvalue]
    exact (hfold.before hl).forget (Link.Terms.sub_aside ..)

theorem append_ends (hys : (Value.list ys).Linked L ys') :
    L.Ends K IsList ((pure (items ++ ys) : Eval (List Value)) s)
      ((deep turns (levels + 13)).call first paren (.function ⟨id, append, Store.globals, false⟩)
        [xs', ys'] t) := by
  have hfold := append_folds hK hs hprelude hitems hxs hturns first paren id levels
    (fun acc x => pure (x :: acc)) (fun _ _ hK' _ => consStep_steps hK' _ _ _ _ _)
    (fun L' hl => hys.mono hl _ _)
    (keeps_foldlM_cons hprelude ys)
  rwa [foldlM_cons, List.reverse_reverse] at hfold

end

lemma length_foldlM {step : List Value → Value → Eval (List Value)}
    (hstep : ∀ a x b s s', step a x s = .ok b s' → b.length ≤ a.length + 1) {a b : List Value}
    {s s' : Store} (h : items.foldlM step a s = .ok b s') : b.length ≤ a.length + items.length := by
  induction items generalizing a s with
  | nil =>
    cases h
    exact Nat.le_refl _
  | cons x items ih =>
    rw [List.foldlM_cons] at h
    obtain ⟨c, s₁, hx, hmore⟩ := bind_ok h
    have hc := hstep a x c s s₁ hx
    have hb := ih hmore
    rw [List.length_cons]
    omega

theorem reversedFold_ends {M : FrameId} {fr : Frame} {function : Function}
    {step : List Value → Value → Eval (List Value)} (hK : ¬ K.same)
    (hs : s.Linked (K.aside M fr) L t) (hfr : fr.variables.find? "xs" = some ⟨xs', true⟩)
    (hsteps : ∀ id, Steps turns (levels + 2) (K.aside M fr) L IsList step
      (.function ⟨id, function, M, false⟩))
    (hgrows : ∀ a x b s s', step a x s = .ok b s' → b.length ≤ a.length + 1)
    (hitems : List.Forall₂ (Value.Linked L) items items') (hxs : xs'.elements? = some items')
    (hkeeps : s.KeepsPrelude (fun before => before.foldlM step []) items)
    (hturns : items.length < turns) (line column : Nat) :
    L.Ends (K.aside M fr) IsList ((List.reverse <$> items.foldlM step []) s)
      ((deep turns (levels + 11)).eval M (reversedFold function line column) t) := by
  have hK₁ : ¬ (K.aside M fr).same := hK
  have hprelude : s.HasPrelude := hkeeps [] List.nil_prefix [] s rfl
  have hs₁ : s.Linked (K.aside M fr) L t.newFunction.2 := hs.newFunction_right hK
  obtain ⟨place, hcall⟩ := folded_eq turns (levels + 8) (hprelude.linked hs) hs.frame hfr
    function line 18 column
  obtain ⟨place', hreverse⟩ := (hprelude.linked hs).functions reverse (by simp [functions])
  have hfold : L.Ends (K.aside M fr) IsList (items.foldlM step [] s)
      ((deep turns (levels + 10)).eval M (folded function line 18 column) t) := by
    rw [hcall]
    exact foldl_ends hK₁ (hsteps t.functions) hitems hxs (.list .nil) hs₁ hkeeps hturns _ _ place
  have hargs : L.Leads (K.aside M fr)
      (fun L₁ vs s' args t' => s'.Linked (K.aside M fr) L₁ t' ∧ ∃ v', args = [v'] ∧ IsList L₁ vs v')
      (items.foldlM step [] s)
      ((deep turns (levels + 10)).evalAll M [folded function line 18 column] t) :=
    (hfold.leads (.refl _)).andThen fun L₁ vs s' v' t' _ h _ =>
      ⟨[v'], t', rfl, h.1, v', rfl, h.2⟩
  have hcallee : (deep turns (levels + 10)).eval M (global "reverse" line 10) t =
      .ok (.function ⟨place', reverse, Store.globals, false⟩) t := eval_global hreverse
  rw [map_eq_pure_bind]
  change L.Ends _ _ _
    (((deep turns (levels + 10)).eval M (global "reverse" line 10) >>= _) t)
  rw [bind_of_ok hcallee]
  refine (hargs.bind fun L₁ vs s' args t' _ h hrun => ?_).ends
  obtain ⟨hs', v', rfl, hv⟩ := h
  cases hv with
  | @list _ vs' hvs =>
    have hprelude' : s'.HasPrelude := hkeeps items List.prefix_rfl vs s' hrun
    have hlength : vs.length < turns :=
      Nat.lt_of_le_of_lt (Nat.zero_add items.length ▸ length_foldlM hgrows hrun) hturns
    exact (reverse_ends hK₁ hs' hprelude' hvs rfl hlength _ _ place').leads (.refl _)

theorem filterM_eq (call : Value → Eval Value) (items : List Value) :
    items.filterM (fun x => Value.isTruthy <$> call x) =
      List.reverse <$> items.foldlM
        (fun acc x => (fun v : Value => if v.isTruthy then x :: acc else acc) <$> call x) [] := by
  have hfilter : ∀ (acc items : List Value),
      items.filterAuxM (fun x => Value.isTruthy <$> call x) acc =
        items.foldlM
          (fun acc x => (fun v : Value => if v.isTruthy then x :: acc else acc) <$> call x) acc := by
    intro acc items
    induction items generalizing acc with
    | nil => rfl
    | cons x items ih =>
      rw [List.foldlM_cons, List.filterAuxM, map_eq_pure_bind, map_eq_pure_bind, bind_assoc,
        bind_assoc]
      refine congrArg _ (funext fun v => ?_)
      cases hv : v.isTruthy <;> simp [ih]
  rw [List.filterM, hfilter, map_eq_pure_bind]

section

variable (hK : ¬ K.same) (hs : s.Linked K L t) (hf : f.Linked L f')
  (hitems : List.Forall₂ (Value.Linked L) items items') (hxs : xs'.elements? = some items')
  (hturns : items.length < turns) (first paren : Token) (id : Nat)

include hK hs hf hitems hxs hturns

lemma map_ends
    (hkeeps : s.KeepsPrelude
      (fun before => before.mapM fun x =>
        (deep turns (levels + 1)).call (name "f" 19 51) (Prelude.paren 19 54) f [x]) items) :
    L.Ends K IsList
      (items.mapM (fun x =>
        (deep turns (levels + 1)).call (name "f" 19 51) (Prelude.paren 19 54) f [x]) s)
      ((deep turns (levels + 12)).call first paren (.function ⟨id, map, Store.globals, false⟩)
        [f', xs'] t) := by
  have hs₁ := hs.newFrame_right hK (.given Store.globals map.paramNames [f', xs'])
  have hfold := fun before : List Value => List.mapM_eq_reverse_foldlM_cons
    (m := Eval) (f := fun x =>
      (deep turns (levels + 1)).call (name "f" 19 51) (Prelude.paren 19 54) f [x]) (l := before)
  have hgrows : ∀ (acc : List Value) x b s s', ((fun v => v :: acc) <$>
      (deep turns (levels + 1)).call (name "f" 19 51) (Prelude.paren 19 54) f [x]) s = .ok b s' →
        b.length ≤ acc.length + 1 := by
    intro acc x b s s' hrun
    rw [map_eq_pure_bind] at hrun
    obtain ⟨v, s₁, -, hb⟩ := bind_ok hrun
    cases pure_ok hb
    exact Nat.le_refl _
  rw [hfold, map, call_giveBack rfl]
  exact (reversedFold_ends hK hs₁ rfl (mapStep_steps hK hf rfl) hgrows hitems hxs
    (hkeeps.of_map hfold) hturns 19 66).forget (Link.Terms.sub_aside ..)

lemma filter_ends
    (hkeeps : s.KeepsPrelude
      (fun before => before.filterM fun x => Value.isTruthy <$>
        (deep turns (levels + 1)).call (name "pred" 23 46) (Prelude.paren 23 52) f [x]) items) :
    L.Ends K IsList
      (items.filterM (fun x => Value.isTruthy <$>
        (deep turns (levels + 1)).call (name "pred" 23 46) (Prelude.paren 23 52) f [x]) s)
      ((deep turns (levels + 12)).call first paren (.function ⟨id, filter, Store.globals, false⟩)
        [f', xs'] t) := by
  have hs₁ := hs.newFrame_right hK (.given Store.globals filter.paramNames [f', xs'])
  have hfold := filterM_eq fun x =>
    (deep turns (levels + 1)).call (name "pred" 23 46) (Prelude.paren 23 52) f [x]
  have hgrows : ∀ (acc : List Value) x b s s', ((fun v : Value => if v.isTruthy then x :: acc
      else acc) <$>
      (deep turns (levels + 1)).call (name "pred" 23 46) (Prelude.paren 23 52) f [x]) s =
        .ok b s' → b.length ≤ acc.length + 1 := by
    intro acc x b s s' hrun
    rw [map_eq_pure_bind] at hrun
    obtain ⟨v, s₁, -, hb⟩ := bind_ok hrun
    cases pure_ok hb
    split
    · exact Nat.le_refl _
    · exact Nat.le_succ _
  rw [hfold, filter, call_giveBack rfl]
  exact (reversedFold_ends hK hs₁ rfl (filterStep_steps hK hf rfl) hgrows hitems hxs
    (hkeeps.of_map hfold) hturns 23 79).forget (Link.Terms.sub_aside ..)

end

end Prelude

/-- What a store holds is in another one as well, and nothing has been printed in between. -/
structure Store.Unchanged (s t : Store) : Prop where
  lookup? : ∀ {id name x}, s.lookup? id name = some x → t.lookup? id name = some x
  field? : ∀ {id name v}, s.field? id name = some v → t.field? id name = some v
  output : t.output = s.output

lemma Store.Linked.unchanged {L L' : Link} {s t : Store} (hs : s.Linked .strict L s)
    (hl : L.Sub L') (h : s.Linked .loose L' t) : s.Unchanged t where
  lookup? {id name x} hx := by
    have hbinds : s.binds id name := by
      rw [binds_eq, hx]
      rfl
    obtain ⟨id', hid⟩ := hs.total id (lt_of_binds hbinds)
    cases (hs.same trivial).2.2.frames hid
    obtain ⟨_, hself, hx₁⟩ := exists_of_optionRel (Store.Linked.lookup? hs hid name) hx
    cases hx.symm.trans hself
    obtain ⟨⟨v', assigned'⟩, hother, hx₂⟩ :=
      exists_of_optionRel (Store.Linked.lookup? h (hl.frames hid) name) hx
    have hvalue := (hx₁.value.mono hl _ _).single h _ _ _ hx₂.value
    cases hvalue
    cases hx₂.assigned
    exact hother
  field? {id name v} hv := by
    obtain ⟨_, hself, hv₁⟩ := exists_of_optionRel (hs.field? id name) hv
    cases hv.symm.trans hself
    obtain ⟨v', hother, hv₂⟩ := exists_of_optionRel (h.field? id name) hv
    cases (hv₁.mono hl _ _).single h _ _ _ hv₂
    exact hother
  output := h.output

open Evaluator in
/-- The list functions of the prelude compute what their names say, in every store in which
everything stands for itself and as long as the prelude and the native functions that it uses are
not set to anything else. In its loop `foldl` calls the function once for each element, from left to
right, with what it has last returned; it is the monadic fold, and ends in the same way if a call
does not end well. So are `map` and `filter` the functions of these names. The stores in which they
end are linked to those in which the calls alone would have ended, and hold the same lists and
strings. What `reverse` and `append` are given they leave as it is, together with everything else. -/
theorem Prelude.list_functions_compute (turns levels : Nat) {L : Link} {s : Store}
    (hs : s.Linked .strict L s) (hprelude : s.HasPrelude) {xs : Value} {items : List Value}
    (hself : xs.Linked L xs) (hxs : xs.elements? = some items) (hturns : items.length < turns)
    (first paren : Token) :
    let E := fun n => deep turns (levels + n)
    (∀ callee f acc, s.lookup? Store.globals "foldl" = some ⟨callee, true⟩ →
      f.Linked L f → acc.Linked L acc →
      let call := fun acc x => (E 2).call (name "f" 8 11) (Prelude.paren 8 27) f [acc, x]
      s.KeepsPrelude (fun before => before.foldlM call acc) items →
        L.Ends .loose Value.Linked (items.foldlM call acc s)
          ((E 7).call first paren callee [f, acc, xs] s)) ∧
    (∀ callee, s.lookup? Store.globals "reverse" = some ⟨callee, true⟩ →
      ∃ t, (E 10).call first paren callee [xs] s = .ok (.list items.reverse) t ∧
        s.Unchanged t) ∧
    (∀ callee f, s.lookup? Store.globals "map" = some ⟨callee, true⟩ → f.Linked L f →
      let call := fun x => (E 1).call (name "f" 19 51) (Prelude.paren 19 54) f [x]
      s.KeepsPrelude (fun before => before.mapM call) items →
        L.Ends .loose IsList (items.mapM call s) ((E 12).call first paren callee [f, xs] s)) ∧
    (∀ callee p, s.lookup? Store.globals "filter" = some ⟨callee, true⟩ → p.Linked L p →
      let call := fun x => Value.isTruthy <$>
        (E 1).call (name "pred" 23 46) (Prelude.paren 23 52) p [x]
      s.KeepsPrelude (fun before => before.filterM call) items →
        L.Ends .loose IsList (items.filterM call s) ((E 12).call first paren callee [p, xs] s)) ∧
    ∀ callee ys, s.lookup? Store.globals "append" = some ⟨callee, true⟩ →
      (Value.list ys).Linked L (.list ys) →
      ∃ t, (E 13).call first paren callee [xs, .list ys] s = .ok (.list (items ++ ys)) t ∧
        s.Unchanged t := by
  have hloose : s.Linked .loose L s := hs.loosen
  have hK : ¬ Link.Terms.loose.same := id
  obtain ⟨items', hitems', hitems⟩ := hself.elements? hxs
  cases hxs.symm.trans hitems'
  refine ⟨?_, ?_, ?_, ?_, ?_⟩
  · intro callee f acc hcallee hf hacc call hkeeps
    obtain ⟨id, rfl⟩ := hprelude.closure foldl (by simp [functions]) hcallee
    have hsteps : Steps turns levels .loose L Value.Linked call f :=
      ⟨fun _ hl hs' _ _ ha hx => (linked_deep turns (levels + 2)).call _ _ (hf.mono hl _ _)
        (.cons ha (.cons hx .nil)) _ _ hs'⟩
    exact foldl_ends hK hsteps hitems hxs hacc hloose hkeeps hturns first paren id
  · intro callee hcallee
    obtain ⟨id, rfl⟩ := hprelude.closure reverse (by simp [functions]) hcallee
    obtain ⟨L', v', t, hrun, hl, ht, hv⟩ :=
      (reverse_ends hK hloose hprelude hitems hxs hturns first paren id).of_ok
    have hlist : (Value.list items.reverse).Linked L (.list items.reverse) :=
      .list (List.rel_reverse hitems)
    rw [(hlist.mono hl _ _).single ht _ _ _ hv] at hrun
    exact ⟨t, hrun, hs.unchanged hl ht⟩
  · intro callee f hcallee hf call hkeeps
    obtain ⟨id, rfl⟩ := hprelude.closure map (by simp [functions]) hcallee
    exact map_ends hK hloose hf hitems hxs hturns first paren id hkeeps
  · intro callee p hcallee hp call hkeeps
    obtain ⟨id, rfl⟩ := hprelude.closure filter (by simp [functions]) hcallee
    exact filter_ends hK hloose hp hitems hxs hturns first paren id hkeeps
  · intro callee ys hcallee hys
    obtain ⟨id, rfl⟩ := hprelude.closure append (by simp [functions]) hcallee
    obtain ⟨L', v', t, hrun, hl, ht, hv⟩ :=
      (append_ends hK hloose hprelude hitems hxs hturns first paren id hys).of_ok
    have hlist : (Value.list (items ++ ys)).Linked L (.list (items ++ ys)) := by
      cases hys with
      | list hys => exact .list (List.rel_append hitems hys)
    rw [(hlist.mono hl _ _).single ht _ _ _ hv] at hrun
    exact ⟨t, hrun, hs.unchanged hl ht⟩

open Evaluator in
theorem Prelude.list_functions_compute_start :
    let s := (Session.start true 0).store
    let items := [Value.string "a", .string "b"]
    ∃ L, s.Linked .strict L s ∧ s.HasPrelude ∧
      (∃ callee t, s.lookup? Store.globals "reverse" = some ⟨callee, true⟩ ∧
        (deep 3 10).call (name "reverse" 1 1) (Prelude.paren 1 13) callee [.string "ab"] s =
          .ok (.list [.string "b", .string "a"]) t ∧ s.Unchanged t) ∧
      ∃ callee, s.lookup? Store.globals "map" = some ⟨callee, true⟩ ∧
        L.Ends .loose IsList
          (items.mapM (fun x =>
            (deep 3 1).call (name "f" 19 51) (Prelude.paren 19 54) (.native .first) [x]) s)
          ((deep 3 12).call (name "map" 1 1) (Prelude.paren 1 16) callee
            [.native .first, .string "ab"] s) := by
  intro s items
  obtain ⟨L, hs⟩ := (Reached.start true 0).closed
  have hprelude : s.HasPrelude := Session.hasPrelude_start 0
  obtain ⟨place, hreverse⟩ := hprelude.functions reverse (by simp [functions])
  obtain ⟨place', hmap⟩ := hprelude.functions map (by simp [functions])
  have hitems : (Value.string "ab").elements? = some items := by
    simp [items, Value.elements?, Native.ofChar]
  have hkeeps : s.KeepsPrelude
      (fun before => before.mapM fun x =>
        (deep 3 1).call (name "f" 19 51) (Prelude.paren 19 54) (.native .first) [x]) items := by
    intro before hbefore a s' hrun
    simp only [items, List.prefix_cons_iff, List.prefix_nil] at hbefore
    rcases hbefore with rfl | ⟨_, rfl, rfl | ⟨_, rfl, rfl⟩⟩ <;> cases hrun <;> exact hprelude
  have hcompute := list_functions_compute 3 0 hs hprelude (.string "ab") hitems (by decide)
  obtain ⟨t, ht, hsame⟩ := (hcompute (name "reverse" 1 1) (Prelude.paren 1 13)).2.1 _ hreverse
  refine ⟨L, hs, hprelude, ⟨_, t, hreverse, ht, hsame⟩, _, hmap, ?_⟩
  exact (hcompute (name "map" 1 1) (Prelude.paren 1 16)).2.2.1 _ _ hmap (.native .first) hkeeps

end Lox
