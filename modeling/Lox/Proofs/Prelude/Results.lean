import Lox.Proofs.Prelude.Lists

/-! What the list functions of the prelude give: lists, save that `append` gives back its second
argument, whatever that is, if there is nothing to put in front of it. -/

namespace Lox

lemma Store.HasPrelude.newFrame {s : Store} (h : s.HasPrelude) (f : Frame) :
    (s.newFrame f).2.HasPrelude := by
  have hglobals : globals ≠ s.frames.size :=
    Nat.ne_of_lt (lt_of_lookup? (h.natives .cons (by simp)))
  refine ⟨fun g hg => ?_, fun n hn => ?_⟩
  · rw [lookup?_newFrame, if_neg hglobals]
    exact h.functions g hg
  · rw [lookup?_newFrame, if_neg hglobals]
    exact h.natives n hn

theorem Evaluator.eval_native_fault (native : Native) {t : Store} (ht : t.HasPrelude)
    (hnative : native ∈ [Native.cons, .empty, .first, .rest]) {turns n row column : Nat}
    {frame : FrameId} {paren : Token} {arguments : List Expr} {args : List Value} {fault : Fault}
    (hargs : (deep turns (n + 1)).evalAll frame arguments t = .ok args t)
    (hlength : args.length = native.arity) (hfault : native.apply t.time args = .error fault) :
    (deep turns (n + 2)).eval frame (.call (Prelude.global native.name row column) paren arguments)
      t = .error (.failure ⟨fault, some (Prelude.name native.name row column)⟩) t := by
  refine (evalExpr_call (eval_global (ht.natives native hnative)) hargs).trans ?_
  unfold call
  simp only [Value.arity?, hlength, ne_eq, not_true, if_false]
  change Eval.located _ (native.apply t.time args) t = _
  rw [hfault]
  rfl

namespace Prelude

open Evaluator Eval

variable {turns levels n : Nat} {K : Link.Terms} {L : Link} {s t : Store} {f xs v : Value}
  {items : List Value} {first paren : Token}

/-- A run has been ended by a value of the wrong type. -/
def EndsByType {α : Type} (r : EStateM.Result Abort Store α) : Prop :=
  ∃ fault token t, r = .error (.failure ⟨fault, token⟩) t ∧ fault.kind = .type

namespace EndsByType

variable {α β : Type}

lemma ne_ok {r : EStateM.Result Abort Store α} (h : EndsByType r) (a : α) (t : Store) :
    r ≠ .ok a t := by
  obtain ⟨fault, token, s, rfl, -⟩ := h
  exact nofun

lemma bind {x : Eval α} (h : EndsByType (x s)) (k : α → Eval β) :
    EndsByType ((x >>= k) s) := by
  obtain ⟨fault, token, t, hx, htype⟩ := h
  exact ⟨fault, token, t, bind_of_error hx k, htype⟩

lemma after {x : Eval α} {a : α} {s' : Store} {k : α → Eval β} (hx : x s = .ok a s')
    (h : EndsByType (k a s')) : EndsByType ((x >>= k) s) := by
  rwa [bind_of_ok hx]

section

variable {E : Evaluator} {frame : FrameId} {e : Expr} {es : List Expr}

lemma head (h : EndsByType (E.eval frame e s)) : EndsByType (E.evalAll frame (e :: es) s) :=
  h.bind _

lemma tail (he : E.eval frame e s = .ok v t) (h : EndsByType (E.evalAll frame es t)) :
    EndsByType (E.evalAll frame (e :: es) s) :=
  after he (h.bind _)

lemma arguments (he : E.eval frame e s = .ok v t) (h : EndsByType (E.evalAll frame es t))
    (paren : Token) : EndsByType (E.evalExpr frame (.call e paren es) s) :=
  after he (h.bind _)

end

end EndsByType

section

variable (ht : t.HasPrelude) (hxs : xs.elements? = none) (hturns : 0 < turns)

include ht hxs hturns

lemma foldl_endsByType (g acc : Value) (first paren : Token) (id : Nat) :
    EndsByType ((deep turns (levels + 7)).call first paren
      (.function ⟨id, foldl, Store.globals, false⟩) [g, acc, xs] t) := by
  let F := t.frames.size
  let t₁ := (t.newFrame (foldlFrame g acc xs)).2
  have hF : t₁.frames[F]? = some (foldlFrame g acc xs) := Array.getElem?_push_size
  have hargs : (deep turns (levels + 4)).evalAll F [bound 0 "xs" 7 17] t₁ = .ok [xs] t₁ :=
    evalAll_cons (eval_here hF rfl) evalAll_nil
  have hfault : Native.empty.apply t₁.time [xs] = .error (.notSequence .empty xs.typeName) := by
    cases xs <;> first | rfl | cases hxs
  have hempty : EndsByType ((deep turns (levels + 5)).eval F
      (.call (global "empty" 7 11) (Prelude.paren 7 19) [bound 0 "xs" 7 17]) t₁) :=
    ⟨_, _, t₁, eval_native_fault .empty (ht.newFrame _) (by simp) hargs rfl hfault, rfl⟩
  have hcondition : EndsByType
      ((Value.isTruthy <$> (deep turns (levels + 6)).eval F foldlCondition) t₁) :=
    (hempty.bind _).bind _
  have hloop : EndsByType ((deep turns (levels + 7)).exec F foldlLoop t₁) := by
    obtain ⟨rounds, rfl⟩ := Nat.exists_eq_succ_of_ne_zero (Nat.ne_of_gt hturns)
    change EndsByType (loop _ _ (deep (rounds + 1) (levels + 6)).turns t₁)
    rw [turns_deep]
    exact hcondition.bind _
  rw [call_function rfl, invoke_eq rfl]
  exact (hloop.bind _).bind _

lemma folded_endsByType (levels : Nat) {M : FrameId} {fr : Frame} (hM : t.frames[M]? = some fr)
    (hfr : fr.variables.find? "xs" = some ⟨xs, true⟩) (function : Function)
    (line start column : Nat) :
    EndsByType ((deep turns (levels + 8)).eval M (folded function line start column) t) := by
  obtain ⟨place, hcall⟩ := folded_eq turns (levels + 6) ht hM hfr function line start column
  rw [hcall]
  exact foldl_endsByType (t := t.newFunction.2) ⟨ht.functions, ht.natives⟩ hxs hturns _ _ _ _ place

lemma reverse_endsByType (first paren : Token) (id : Nat) :
    EndsByType ((deep turns (levels + 10)).call first paren
      (.function ⟨id, reverse, Store.globals, false⟩) [xs] t) := by
  rw [reverse, call_giveBack rfl]
  exact folded_endsByType (ht.newFrame _) hxs hturns (levels + 1)
    Array.getElem?_push_size rfl reverseStep 15 10 55

theorem reversedFold_endsByType {M : FrameId} {fr : Frame} (hM : t.frames[M]? = some fr)
    (hfr : fr.variables.find? "xs" = some ⟨xs, true⟩) (function : Function) (line column : Nat) :
    EndsByType ((deep turns (levels + 11)).eval M (reversedFold function line column) t) := by
  obtain ⟨place, hreverse⟩ := ht.functions reverse (by simp [functions])
  have hcallee : (deep turns (levels + 10)).eval M (global "reverse" line 10) t =
      .ok (.function ⟨place, reverse, Store.globals, false⟩) t := eval_global hreverse
  have hfolded := folded_endsByType ht hxs hturns (levels + 2) hM hfr function line 18
    column
  exact .arguments hcallee hfolded.head _

lemma map_endsByType (f : Value) (first paren : Token) (id : Nat) :
    EndsByType ((deep turns (levels + 12)).call first paren
      (.function ⟨id, map, Store.globals, false⟩) [f, xs] t) := by
  rw [map, call_giveBack rfl]
  exact reversedFold_endsByType (ht.newFrame _) hxs hturns Array.getElem?_push_size rfl mapStep 19
    66

lemma filter_endsByType (f : Value) (first paren : Token) (id : Nat) :
    EndsByType ((deep turns (levels + 12)).call first paren
      (.function ⟨id, filter, Store.globals, false⟩) [f, xs] t) := by
  rw [filter, call_giveBack rfl]
  exact reversedFold_endsByType (ht.newFrame _) hxs hturns Array.getElem?_push_size rfl filterStep
    23 79

lemma append_endsByType (ys : Value) (first paren : Token) (id : Nat) :
    EndsByType ((deep turns (levels + 13)).call first paren
      (.function ⟨id, append, Store.globals, false⟩) [xs, ys] t) := by
  let M := t.frames.size
  let fr := Frame.given Store.globals append.paramNames [xs, ys]
  let t₁ := (t.newFrame fr).2
  have ht₁ : t₁.HasPrelude := ht.newFrame _
  have hM : t₁.newFunction.2.frames[M]? = some fr := Array.getElem?_push_size
  obtain ⟨place, hfoldl⟩ := ht₁.functions foldl (by simp [functions])
  obtain ⟨place', hreverse⟩ := ht₁.functions reverse (by simp [functions])
  have hcallee : (deep turns (levels + 11)).eval M (global "foldl" 35 10) t₁ =
      .ok (.function ⟨place, foldl, Store.globals, false⟩) t₁ := eval_global hfoldl
  have hys : (deep turns (levels + 11)).eval M (bound 0 "ys" 35 55) t₁.newFunction.2 =
      .ok ys t₁.newFunction.2 := eval_here hM rfl
  have hreversed : EndsByType ((deep turns (levels + 11)).eval M
      (.call (global "reverse" 35 59) (Prelude.paren 35 69) [bound 0 "xs" 35 67])
      t₁.newFunction.2) := by
    have hcall : (deep turns (levels + 11)).eval M
        (.call (global "reverse" 35 59) (Prelude.paren 35 69) [bound 0 "xs" 35 67])
        t₁.newFunction.2 =
          (deep turns (levels + 10)).call (name "reverse" 35 59) (Prelude.paren 35 69)
            (.function ⟨place', reverse, Store.globals, false⟩) [xs] t₁.newFunction.2 :=
      evalExpr_call (eval_global hreverse) (evalAll_cons (eval_here hM rfl) evalAll_nil)
    rw [hcall]
    exact reverse_endsByType (t := t₁.newFunction.2) ⟨ht₁.functions, ht₁.natives⟩ hxs hturns _ _
      place'
  have hlambda : (deep turns (levels + 11)).eval M (.lambda appendStep) t₁ =
      .ok (.function ⟨t₁.functions, appendStep, M, false⟩) t₁.newFunction.2 := rfl
  rw [append, call_giveBack rfl]
  exact .arguments hcallee (.tail hlambda (.tail hys hreversed.head)) _

end

lemma consCall_fault (ht : t.HasPrelude) {frame parent : FrameId} {acc x : Value}
    (hframe : t.frames[frame]? = some (stepFrame parent acc x)) (hacc : ∀ vs, acc ≠ .list vs)
    (row column : Nat) :
    (deep turns (n + 2)).eval frame (consCall row column) t =
      .error (.failure ⟨.notList .cons acc.typeName, some (name "cons" row column)⟩) t := by
  have hx : (deep turns (n + 1)).eval frame (bound 0 "x" row (column + 5)) t = .ok x t :=
    eval_here hframe rfl
  have hread : (deep turns (n + 1)).eval frame (bound 0 "acc" row (column + 8)) t = .ok acc t :=
    eval_here hframe rfl
  have hfault : Native.cons.apply t.time [x, acc] = .error (.notList .cons acc.typeName) := by
    cases acc with
    | list vs => exact absurd rfl (hacc vs)
    | _ => rfl
  exact eval_native_fault .cons ht (by simp) (evalAll_cons hx (evalAll_cons hread evalAll_nil)) rfl
    hfault

theorem refusal_steps {ys : Value} (hys : ∀ vs, ys ≠ .list vs) (hK : ¬ K.same)
    (id line column row place : Nat) (frame : FrameId) :
    Steps turns (levels + 1) K L (fun _ (_ : Unit) v => v = ys)
      (fun _ _ => Eval.fail (.notList .cons ys.typeName) (name "cons" row place))
      (.function ⟨id, step line column (consCall row place), frame, false⟩) := by
  refine ⟨fun {K' L' s t _ acc x x'} hsub _ hs hprelude _ hacc hx => ?_⟩
  subst hacc
  have hs₁ := hs.newFrame_right (fun h => hK (hsub.same.mp h)) (stepFrame frame acc x')
  rw [step_eq, consCall_fault (n := levels) (hprelude.linked hs₁) hs₁.frame hys]
  exact .error L' (.refl L') (hs₁.forget (Link.Terms.sub_aside ..)) (.same _)

lemma keeps_refusal (hprelude : s.HasPrelude) (fault : Fault) (token : Token) :
    s.KeepsPrelude (fun before => before.foldlM (fun (_ : Unit) _ => Eval.fail fault token) ())
      items := by
  intro before _ a s' hrun
  cases before with
  | nil =>
    cases hrun
    exact hprelude
  | cons => cases hrun

theorem append_refuses (levels : Nat) {xs' ys : Value} {items' : List Value} (hK : ¬ K.same)
    (hs : s.Linked K L t) (hprelude : s.HasPrelude)
    (hitems : List.Forall₂ (Value.Linked L) items items') (hxs : xs'.elements? = some items')
    (hys : ∀ vs, ys ≠ .list vs) (hturns : items.length < turns) (first paren : Token) (id : Nat) :
    if items = [] then
      ∃ t', (deep turns (levels + 13)).call first paren
        (.function ⟨id, append, Store.globals, false⟩) [xs', ys] t = .ok ys t'
    else
      EndsByType ((deep turns (levels + 13)).call first paren
        (.function ⟨id, append, Store.globals, false⟩) [xs', ys] t) := by
  have hfold := append_folds hK hs hprelude hitems hxs hturns first paren id levels _
    (fun _ _ hK' _ => refusal_steps hys hK' _ _ _ _ _ _) (fun _ _ => rfl)
    (keeps_refusal hprelude (.notList .cons ys.typeName) (name "cons" 35 38))
  split
  · next hnil =>
    subst hnil
    obtain ⟨L', v, t', hrun, -, -, rfl⟩ := hfold.of_ok
    exact ⟨t', hrun⟩
  · next hne =>
    obtain ⟨more, x, hitems⟩ := List.eq_nil_or_concat items |>.resolve_left hne
    rw [hitems, List.concat_eq_append, List.reverse_append] at hfold
    generalize (deep turns (levels + 13)).call first paren _ _ t = r at hfold ⊢
    change L.Ends K _ (.error _ s) r at hfold
    cases hfold with
    | error L' hl hs' he =>
      cases he
      exact ⟨_, _, _, rfl, rfl⟩

lemma exists_list_of_ends {r : EStateM.Result Abort Store (List Value)}
    (h : L.Ends K IsList r (.ok v t)) : ∃ vs, v = .list vs := by
  cases h with
  | ok L' hl hs hv =>
    cases hv with
    | @list _ vs => exact ⟨vs, rfl⟩

theorem gives_list {callee : Value} {args : List Value} (around : Nat) (hself : xs.Linked L xs)
    (hfails : xs.elements? = none → ∀ turns, 0 < turns →
      EndsByType ((deep turns (n + around)).call first paren callee args s))
    (hends : ∀ items items', List.Forall₂ (Value.Linked L) items items' →
      xs.elements? = some items → xs.elements? = some items' → ∀ turns, items.length < turns →
      ∃ r, L.Ends K IsList r ((deep turns (n + around)).call first paren callee args s))
    (hrun : (deep turns n).call first paren callee args s = .ok v t) : ∃ vs, v = .list vs := by
  cases hxs : xs.elements? with
  | none =>
    have hlasts := call_lasts (Nat.le_succ turns) (Nat.le_add_right n around) hrun
    exact absurd hlasts ((hfails hxs _ (Nat.succ_pos turns)).ne_ok v t)
  | some items =>
    obtain ⟨items', hxs', hitems⟩ := hself.elements? hxs
    have hturns : turns ≤ turns + items.length + 1 :=
      Nat.le_succ_of_le (Nat.le_add_right turns items.length)
    have hlasts := call_lasts hturns (Nat.le_add_right n around) hrun
    obtain ⟨r, h⟩ := hends items items' hitems hxs hxs' (turns + items.length + 1)
      (Nat.lt_succ_of_le (Nat.le_add_left items.length turns))
    rw [hlasts] at h
    exact exists_list_of_ends h

section

variable (hs : s.Linked .strict L s) (hprelude : s.HasPrelude) (hself : xs.Linked L xs) {id : Nat}

include hs hprelude hself

lemma reverse_gives_list (hrun : (deep turns n).call first paren
    (.function ⟨id, reverse, Store.globals, false⟩) [xs] s = .ok v t) : ∃ vs, v = .list vs :=
  gives_list 10 hself (fun hxs _ hturns => reverse_endsByType hprelude hxs hturns first paren id)
    (fun _ _ hitems _ hxs _ hturns =>
      ⟨_, reverse_ends not_false hs.loosen hprelude hitems hxs hturns first paren id⟩) hrun

lemma map_gives_list (hf : f.Linked L f)
    (hkeeps : ∀ items, xs.elements? = some items → ∀ turns n,
      s.KeepsPrelude (fun before => before.mapM fun x =>
        (deep turns n).call (name "f" 19 51) (Prelude.paren 19 54) f [x]) items)
    (hrun : (deep turns n).call first paren (.function ⟨id, map, Store.globals, false⟩) [f, xs] s =
      .ok v t) : ∃ vs, v = .list vs :=
  gives_list 12 hself (fun hxs _ hturns => map_endsByType hprelude hxs hturns f first paren id)
    (fun items _ hitems hxs hxs' _ hturns =>
      ⟨_, map_ends not_false hs.loosen hf hitems hxs' hturns first paren id (hkeeps items hxs _ _)⟩)
    hrun

lemma filter_gives_list (hf : f.Linked L f)
    (hkeeps : ∀ items, xs.elements? = some items → ∀ turns n,
      s.KeepsPrelude (fun before => before.filterM fun x => Value.isTruthy <$>
        (deep turns n).call (name "pred" 23 46) (Prelude.paren 23 52) f [x]) items)
    (hrun : (deep turns n).call first paren (.function ⟨id, filter, Store.globals, false⟩) [f, xs]
      s = .ok v t) : ∃ vs, v = .list vs :=
  gives_list 12 hself (fun hxs _ hturns => filter_endsByType hprelude hxs hturns f first paren id)
    (fun items _ hitems hxs hxs' _ hturns =>
      ⟨_, filter_ends not_false hs.loosen hf hitems hxs' hturns first paren id
        (hkeeps items hxs _ _)⟩)
    hrun

lemma append_other (levels : Nat) {ys : Value} (hys : ∀ vs, ys ≠ .list vs)
    (hturns : (xs.elements?.getD []).length < turns) (first paren : Token) (id : Nat) :
    (xs.elements? = some [] → ∃ t, (deep turns (levels + 13)).call first paren
      (.function ⟨id, append, Store.globals, false⟩) [xs, ys] s = .ok ys t) ∧
    (xs.elements? ≠ some [] → EndsByType ((deep turns (levels + 13)).call first paren
      (.function ⟨id, append, Store.globals, false⟩) [xs, ys] s)) := by
  cases hxs : xs.elements? with
  | none =>
    rw [hxs] at hturns
    exact ⟨nofun, fun _ => append_endsByType hprelude hxs hturns ys first paren id⟩
  | some items =>
    rw [hxs] at hturns
    obtain ⟨items', hxs', hitems⟩ := hself.elements? hxs
    have hrefuses := append_refuses levels not_false hs.loosen hprelude hitems hxs' hys hturns first
      paren id
    refine ⟨fun hnil => ?_, fun hne => ?_⟩
    · rwa [if_pos (Option.some.inj hnil)] at hrefuses
    · rwa [if_neg (mt (congrArg some) hne)] at hrefuses

lemma append_gives {ys : Value} (hys : ys.Linked L ys)
    (hrun : (deep turns n).call first paren (.function ⟨id, append, Store.globals, false⟩) [xs, ys]
      s = .ok v t) : (∃ vs, v = .list vs) ∨ xs.elements? = some [] ∧ v = ys := by
  by_cases hlist : ∃ vs, ys = .list vs
  · obtain ⟨vs, rfl⟩ := hlist
    exact .inl (gives_list 13 hself
      (fun hxs _ hturns => append_endsByType hprelude hxs hturns _ first paren id)
      (fun _ _ hitems _ hxs _ hturns =>
        ⟨_, append_ends not_false hs.loosen hprelude hitems hxs hturns first paren id hys⟩) hrun)
  · let length := (xs.elements?.getD []).length
    have hturns : turns ≤ turns + length + 1 := Nat.le_succ_of_le (Nat.le_add_right turns length)
    have hlasts := call_lasts hturns (Nat.le_add_right n 13) hrun
    obtain ⟨hnil, hcons⟩ := append_other hs hprelude hself n (fun vs h => hlist ⟨vs, h⟩)
      (Nat.lt_succ_of_le (Nat.le_add_left length turns)) first paren id
    by_cases hxs : xs.elements? = some []
    · obtain ⟨t', ht'⟩ := hnil hxs
      rw [hlasts] at ht'
      cases ht'
      exact .inr ⟨hxs, rfl⟩
    · exact absurd hlasts ((hcons hxs).ne_ok v t)

end

end Prelude

open Evaluator Prelude in
/-- Whatever they are given, `reverse`, `map` and `filter` give lists if they give anything, as long
as neither the functions of the prelude nor the native functions are set to anything else. So does
`append`, unless its first argument has no elements: it then gives back its second argument. If the
second argument is not a list, every other call of `append` ends with a type error. -/
theorem Prelude.list_functions_give_lists {L : Link} {s : Store} (hs : s.Linked .strict L s)
    (hprelude : s.HasPrelude) {xs : Value} (hself : xs.Linked L xs) (first paren : Token) :
    (∀ callee, s.lookup? Store.globals "reverse" = some ⟨callee, true⟩ →
      ∀ turns n v t, (deep turns n).call first paren callee [xs] s = .ok v t →
        ∃ vs, v = .list vs) ∧
    (∀ callee f, s.lookup? Store.globals "map" = some ⟨callee, true⟩ → f.Linked L f →
      (∀ items, xs.elements? = some items → ∀ turns n, s.KeepsPrelude (fun before => before.mapM
        fun x => (deep turns n).call (name "f" 19 51) (Prelude.paren 19 54) f [x]) items) →
      ∀ turns n v t, (deep turns n).call first paren callee [f, xs] s = .ok v t →
        ∃ vs, v = .list vs) ∧
    (∀ callee p, s.lookup? Store.globals "filter" = some ⟨callee, true⟩ → p.Linked L p →
      (∀ items, xs.elements? = some items → ∀ turns n, s.KeepsPrelude (fun before => before.filterM
        fun x => Value.isTruthy <$>
          (deep turns n).call (name "pred" 23 46) (Prelude.paren 23 52) p [x]) items) →
      ∀ turns n v t, (deep turns n).call first paren callee [p, xs] s = .ok v t →
        ∃ vs, v = .list vs) ∧
    ∀ callee ys, s.lookup? Store.globals "append" = some ⟨callee, true⟩ → ys.Linked L ys →
      (∀ turns n v t, (deep turns n).call first paren callee [xs, ys] s = .ok v t →
        (∃ vs, v = .list vs) ∨ xs.elements? = some [] ∧ v = ys) ∧
      ((∀ vs, ys ≠ .list vs) → ∀ turns levels, (xs.elements?.getD []).length < turns →
        (xs.elements? = some [] →
          ∃ t, (deep turns (levels + 13)).call first paren callee [xs, ys] s = .ok ys t) ∧
        (xs.elements? ≠ some [] →
          EndsByType ((deep turns (levels + 13)).call first paren callee [xs, ys] s))) := by
  refine ⟨?_, ?_, ?_, ?_⟩
  · intro callee hcallee turns n v t hrun
    obtain ⟨id, rfl⟩ := hprelude.closure reverse (by simp [functions]) hcallee
    exact reverse_gives_list hs hprelude hself hrun
  · intro callee f hcallee hf hkeeps turns n v t hrun
    obtain ⟨id, rfl⟩ := hprelude.closure map (by simp [functions]) hcallee
    exact map_gives_list hs hprelude hself hf hkeeps hrun
  · intro callee p hcallee hp hkeeps turns n v t hrun
    obtain ⟨id, rfl⟩ := hprelude.closure filter (by simp [functions]) hcallee
    exact filter_gives_list hs hprelude hself hp hkeeps hrun
  · intro callee ys hcallee hys
    obtain ⟨id, rfl⟩ := hprelude.closure append (by simp [functions]) hcallee
    exact ⟨fun turns n v t hrun => append_gives hs hprelude hself hys hrun,
      fun hother turns levels hturns =>
        append_other hs hprelude hself levels hother hturns first paren id⟩

open Evaluator Prelude in
theorem Prelude.list_functions_give_lists_start :
    let s := (Session.start true 0).store
    (∃ callee, s.lookup? Store.globals "map" = some ⟨callee, true⟩ ∧
      ∀ turns n v t, (deep turns n).call (name "map" 1 1) (Prelude.paren 1 16) callee
        [.native .first, .string "ab"] s = .ok v t → ∃ vs, v = .list vs) ∧
    ∃ callee, s.lookup? Store.globals "append" = some ⟨callee, true⟩ ∧
      EndsByType ((deep 3 13).call (name "append" 1 1) (Prelude.paren 1 16) callee
        [.string "ab", .nil] s) := by
  intro s
  obtain ⟨L, hs⟩ := (Reached.start true 0).closed
  have hprelude : s.HasPrelude := Session.hasPrelude_start 0
  obtain ⟨place, hmap⟩ := hprelude.functions map (by simp [functions])
  obtain ⟨place', happend⟩ := hprelude.functions append (by simp [functions])
  have hitems : (Value.string "ab").elements? = some [.string "a", .string "b"] := by
    simp [Value.elements?, Native.ofChar]
  have hkeeps : ∀ items, (Value.string "ab").elements? = some items → ∀ turns n,
      s.KeepsPrelude (fun before => before.mapM fun x =>
        (deep turns n).call (name "f" 19 51) (Prelude.paren 19 54) (.native .first) [x]) items := by
    rintro items h turns n before hbefore a s' hrun
    cases hitems.symm.trans h
    simp only [List.prefix_cons_iff, List.prefix_nil] at hbefore
    rcases hbefore with rfl | ⟨_, rfl, rfl | ⟨_, rfl, rfl⟩⟩ <;> cases hrun <;> exact hprelude
  obtain ⟨-, hmaps, -, -⟩ := list_functions_give_lists hs hprelude (.string "ab")
    (name "map" 1 1) (Prelude.paren 1 16)
  refine ⟨⟨_, hmap, hmaps _ _ hmap (.native .first) hkeeps⟩, _, happend, ?_⟩
  obtain ⟨-, -, -, happends⟩ := list_functions_give_lists hs hprelude (.string "ab")
    (name "append" 1 1) (Prelude.paren 1 16)
  have hnil : ∀ vs, Value.nil ≠ .list vs := fun vs h => by cases h
  refine ((happends _ .nil happend .nil).2 hnil 3 0 ?_).2 ?_
  · rw [hitems]
    decide
  · rw [hitems]
    simp

open Evaluator Prelude in
theorem Prelude.append_gives_number :
    let s := (Session.start true 0).store
    ∃ callee t, s.lookup? Store.globals "append" = some ⟨callee, true⟩ ∧
      (deep 3 13).call (name "append" 1 1) (Prelude.paren 1 13) callee [.list [], .number 5] s =
        .ok (.number 5) t ∧
      ∀ vs, Value.number 5 ≠ .list vs := by
  intro s
  obtain ⟨L, hs⟩ := (Reached.start true 0).closed
  have hprelude : s.HasPrelude := Session.hasPrelude_start 0
  obtain ⟨place, happend⟩ := hprelude.functions append (by simp [functions])
  have hturns : ((Value.list []).elements?.getD []).length < 3 := by decide
  have hfive : ∀ vs, Value.number 5 ≠ .list vs := fun vs h => by cases h
  obtain ⟨t, ht⟩ := (append_other hs hprelude (.list .nil) 0 hfive hturns
    (name "append" 1 1) (Prelude.paren 1 13) place).1 rfl
  exact ⟨_, t, happend, ht, hfive⟩

end Lox
