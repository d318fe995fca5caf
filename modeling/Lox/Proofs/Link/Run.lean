import Lox.Proofs.Link.Store

namespace Lox

inductive Abort.Linked (L : Link) : Abort → Abort → Prop
  | same (e : Abort) : Abort.Linked L e e
  | escaped {v v'} : v.Linked L v' →
    Abort.Linked L (.defect (.escapedReturn v)) (.defect (.escapedReturn v'))

inductive Completion.Linked (L : Link) : Completion → Completion → Prop
  | normal : Completion.Linked L .normal .normal
  | returned {v v'} : v.Linked L v' → Completion.Linked L (.returned v) (.returned v')
  | broke : Completion.Linked L .broke .broke

inductive Except.Linked {α β : Type} (Q : α → β → Prop) : Except Fault α → Except Fault β → Prop
  | ok {x x'} : Q x x' → Except.Linked Q (.ok x) (.ok x')
  | error (fault : Fault) : Except.Linked Q (.error fault) (.error fault)

namespace Link

/-- How two runs come out that start from linked stores. -/
inductive Ends {α β : Type} (L : Link) (K : Terms) (Q : Link → α → β → Prop) :
    EStateM.Result Abort Store α → EStateM.Result Abort Store β → Prop
  | ok {x x' s t} (L' : Link) : L.Sub L' → s.Linked K L' t → Q L' x x' →
    Ends L K Q (.ok x s) (.ok x' t)
  | error {e e' s t} (L' : Link) : L.Sub L' → s.Linked K L' t → e.Linked L' e' →
    Ends L K Q (.error e s) (.error e' t)

def Runs {α β : Type} (L : Link) (K : Terms) (act : Eval α) (act' : Eval β)
    (Q : Link → α → β → Prop) : Prop :=
  ∀ s t, s.Linked K L t → L.Ends K Q (act s) (act' t)

variable {α β γ δ : Type} {K : Terms} {L : Link} {Q : Link → α → β → Prop} {R : Link → γ → δ → Prop}

namespace Ends

variable {r : EStateM.Result Abort Store α} {r' : EStateM.Result Abort Store β}

lemma mono {Q' : Link → α → β → Prop} (h : L.Ends K Q r r')
    (hQ : ∀ L' x x', L.Sub L' → Q L' x x' → Q' L' x x') : L.Ends K Q' r r' := by
  cases h with
  | ok L' hl hs hx => exact .ok L' hl hs (hQ L' _ _ hl hx)
  | error L' hl hs he => exact .error L' hl hs he

theorem before {L₀ : Link} (h : L.Ends K Q r r') (hl : L₀.Sub L) : L₀.Ends K Q r r' := by
  cases h with
  | ok L' hl' hs hx => exact .ok L' (hl.trans hl') hs hx
  | error L' hl' hs he => exact .error L' (hl.trans hl') hs he

lemma bind {x : Eval α} {x' : Eval β} {f : α → Eval γ} {f' : β → Eval δ} {s t : Store}
    (h : L.Ends K Q (x s) (x' t))
    (h' : ∀ L' a a' s' t', L.Sub L' → s'.Linked K L' t' → Q L' a a' →
      x s = .ok a s' → L'.Ends K R (f a s') (f' a' t')) :
    L.Ends K R ((x >>= f) s) ((x' >>= f') t) := by
  change L.Ends K R ((EStateM.bind x f) s) ((EStateM.bind x' f') t)
  unfold EStateM.bind
  generalize hr : x s = r at h ⊢
  generalize x' t = r' at h ⊢
  cases h with
  | ok L' hl hs ha => exact (h' L' _ _ _ _ hl hs ha hr).before hl
  | error L' hl hs he => exact .error L' hl hs he

end Ends

namespace Runs

lemma pure {x : α} {x' : β} (h : Q L x x') : L.Runs K (Pure.pure x) (Pure.pure x') Q :=
  fun _ _ hs => .ok L (.refl L) hs h

lemma throw {e e' : Abort} (h : e.Linked L e') :
    L.Runs K (MonadExcept.throw e : Eval α) (MonadExcept.throw e' : Eval β) Q :=
  fun _ _ hs => .error L (.refl L) hs h

lemma bind {x : Eval α} {x' : Eval β} {f : α → Eval γ} {f' : β → Eval δ} (h : L.Runs K x x' Q)
    (h' : ∀ L' a a', L.Sub L' → Q L' a a' → L'.Runs K (f a) (f' a') R) :
    L.Runs K (x >>= f) (x' >>= f') R :=
  fun s t hs => (h s t hs).bind fun L' a a' _ _ hl hs' ha _ => h' L' a a' hl ha _ _ hs'

theorem get {f : Store → Eval γ} {f' : Store → Eval δ}
    (h : ∀ s t, s.Linked K L t → L.Runs K (f s) (f' t) R) :
    L.Runs K (MonadState.get >>= f) (MonadState.get >>= f') R :=
  fun s t hs => h s t hs s t hs

lemma change {f f' : Store → Store} (h : ∀ s t, s.Linked K L t → (f s).Linked K L (f' t)) :
    L.Runs K (modify f) (modify f') fun _ _ _ => True :=
  fun s t hs => .ok L (.refl L) (h s t hs) trivial

theorem sound {x : Eval α} {x' : Eval β} (h : L.Sound → L.Runs K x x' Q) : L.Runs K x x' Q :=
  fun s t hs => h hs.sound s t hs

lemma fail (fault : Fault) (t : Token) :
    L.Runs K (Eval.fail fault t : Eval α) (Eval.fail fault t : Eval β) Q := throw (.same _)

lemma defect (d : Defect) :
    L.Runs K (Eval.defect d : Eval α) (Eval.defect d : Eval β) Q := throw (.same _)

lemma located {r : Except Fault α} {r' : Except Fault β} (h : Except.Linked (Q L) r r')
    (t : Token) : L.Runs K (Eval.located t r) (Eval.located t r') Q := by
  cases h with
  | ok hx => exact pure hx
  | error fault => exact fail fault t

theorem reportingDepth {x : Eval α} {x' : Eval β} (h : L.Runs K x x' Q) (t : Option Token) :
    L.Runs K (Eval.reportingDepth t x) (Eval.reportingDepth t x') Q := by
  intro s s' hs
  have hends := h s s' hs
  unfold Eval.reportingDepth
  generalize x s = r at hends ⊢
  generalize x' s' = r' at hends ⊢
  cases hends with
  | ok L' hl hs' ha => exact .ok L' hl hs' ha
  | @error e _ _ _ L' hl hs' he =>
    cases he with
    | same =>
      cases e with
      | tooDeep => exact .error L' hl hs' (.same _)
      | _ => exact .error L' hl hs' (.same _)
    | escaped hv => exact .error L' hl hs' (.escaped hv)

end Runs

end Link

variable {K : Link.Terms} {L : Link}

namespace Store.Linked

variable {s t : Store} (h : s.Linked K L t)

include h

lemma readIn {i i' : FrameId} (hi : L.frames i i') (name : String) :
    Except.Linked (Value.Linked L) (s.readIn i name) (t.readIn i' name) := by
  have hvariable := lookup? h hi name
  rw [readIn_eq, readIn_eq]
  generalize s.lookup? i name = x at hvariable ⊢
  generalize t.lookup? i' name = x' at hvariable ⊢
  cases hvariable with
  | none => exact .error _
  | some hx =>
    dsimp only
    rw [hx.assigned]
    split
    · exact .ok hx.value
    · exact .error _

lemma readNearest (name : String) :
    Except.Linked (Value.Linked L) (s.readNearest Store.globals name)
      (t.readNearest Store.globals name) := by
  rw [Store.readNearest, Store.readNearest, Store.Alike.holder?_globals,
    Store.Alike.holder?_globals, binds_globals h]
  by_cases hb : s.binds Store.globals name
  · rw [if_pos hb]
    exact readIn h h.globals name
  · rw [if_neg hb]
    exact .error _

end Store.Linked

namespace Eval

variable {frame frame' : FrameId}

lemma linked_newFrame (hframe : L.frames frame frame') :
    L.Runs K (newFrame (.empty frame)) (newFrame (.empty frame')) fun L' i i' => L'.frames i i' := by
  intro s t hs
  obtain ⟨L', hl, hi, hs'⟩ := Store.Linked.newFrame hs hframe
  exact .ok L' hl hs' hi

lemma linked_define (hframe : L.frames frame frame') {v v' : Value} (hv : v.Linked L v')
    (name : String) :
    L.Runs K (define frame name v) (define frame' name v') fun _ _ _ => True := by
  have hx : Variable.Linked L ⟨v, true⟩ ⟨v', true⟩ := ⟨hv, rfl⟩
  exact .change fun s t hs => Store.Linked.define hs hframe hx name

lemma linked_declare (hframe : L.frames frame frame') (name : String) :
    L.Runs K (declare frame name) (declare frame' name) fun _ _ _ => True := by
  have hx : Variable.Linked L ⟨.nil, false⟩ ⟨.nil, false⟩ := ⟨.nil, rfl⟩
  exact .change fun s t hs => Store.Linked.define hs hframe hx name

lemma linked_bindArguments (hframe : L.frames frame frame') {params : List Token}
    {args args' : List Value} (hargs : List.Forall₂ (Value.Linked L) args args') :
    L.Runs K (bindArguments frame params args) (bindArguments frame' params args')
      fun _ _ _ => True := by
  induction params generalizing L args args' with
  | nil =>
    cases hargs with
    | nil => exact .pure trivial
    | cons _ _ => exact .pure trivial
  | cons param params ih =>
    cases hargs with
    | nil => exact .pure trivial
    | cons hv hargs =>
      refine (linked_define hframe hv param.lexeme).bind fun L₁ _ _ hl _ => ?_
      exact ih (hl.frames hframe) (linkedValues_mono hl _ _ hargs)

lemma linked_ancestor (hframe : L.frames frame frame') (distance : Nat) :
    L.Runs K (ancestor frame distance) (ancestor frame' distance) fun L' i i' => L'.frames i i' := by
  refine .get fun s t hs => ?_
  have hancestor := Store.Linked.ancestor? hs hframe distance
  generalize s.ancestor? frame distance = holder at hancestor ⊢
  generalize t.ancestor? frame' distance = holder' at hancestor ⊢
  cases hancestor with
  | none => exact .defect .depthTooLarge
  | some hi => exact .pure hi

lemma linked_readAt (hframe : L.frames frame frame') (distance : Nat) (name : Token) :
    L.Runs K (readAt frame distance name) (readAt frame' distance name) Value.Linked := by
  refine (linked_ancestor hframe distance).bind fun L₁ i i' _ hi => ?_
  exact .get fun s t hs => .located (Store.Linked.readIn hs hi name.lexeme) name

lemma linked_assignAt (hframe : L.frames frame frame') (distance : Nat) (name : Token)
    {v v' : Value} (hv : v.Linked L v') :
    L.Runs K (assignAt frame distance name v) (assignAt frame' distance name v')
      fun _ _ _ => True := by
  refine (linked_ancestor hframe distance).bind fun L₁ i i' hl hi => ?_
  exact linked_define hi (hv.mono hl _ _) name.lexeme

theorem linked_readName (hframe : L.frames frame frame') (target : Reference) :
    L.Runs K (readName frame target) (readName frame' target) Value.Linked := by
  unfold readName
  cases target.depth with
  | none => exact .get fun s t hs => .located (Store.Linked.readNearest hs target.name.lexeme) _
  | some depth => exact linked_readAt hframe depth target.name

lemma linked_assignNearest (name : Token) {v v' : Value} (hv : v.Linked L v') :
    L.Runs K (assignNearest Store.globals name v) (assignNearest Store.globals name v')
      fun _ _ _ => True := by
  refine .get fun s t hs => ?_
  rw [Store.Alike.holder?_globals, Store.Alike.holder?_globals, Store.Linked.binds_globals hs]
  by_cases hb : s.binds Store.globals name.lexeme
  · rw [if_pos hb]
    exact linked_define hs.globals hv name.lexeme
  · rw [if_neg hb]
    exact .fail _ name

lemma linked_assignName (hframe : L.frames frame frame') (target : Reference) {v v' : Value}
    (hv : v.Linked L v') :
    L.Runs K (assignName frame target v) (assignName frame' target v') fun _ _ _ => True := by
  unfold assignName
  cases target.depth with
  | none => exact linked_assignNearest target.name hv
  | some depth => exact linked_assignAt hframe depth target.name hv

lemma linked_closure (hframe : L.frames frame frame') (f : Function) (isInitializer : Bool) :
    L.Runs K (closure f frame isInitializer) (closure f frame' isInitializer)
      fun L' c c' => c.Linked L' c' := by
  intro s t hs
  obtain ⟨L', hl, hi, -, hs'⟩ := hs.newFunction
  exact .ok L' hl hs' ⟨hi, rfl, hl.frames hframe, rfl⟩

lemma linked_newFields : L.Runs K newFields newFields fun _ place place' => place' = place :=
  fun _ _ hs => .ok L (.refl L) (Store.Linked.newFields hs) hs.sizeFields

lemma linked_bind {m m' : Method} (hm : m.Linked L m') {v v' : Value} (hv : v.Linked L v') :
    L.Runs K (bind m v) (bind m' v') fun L' f f' => f.Linked L' f' := by
  unfold bind
  rw [hm.function, hm.isInitializer]
  refine (linked_newFrame hm.frame).bind fun L₁ i i' h₁ hi => ?_
  refine (linked_define hi (hv.mono h₁ _ _) thisName).bind fun L₂ _ _ h₂ _ => ?_
  exact linked_closure (h₂.frames hi) m.function m.isInitializer

lemma linked_receiver {f f' : Closure} (h : f.Linked L f') :
    L.Runs K (receiver f) (receiver f') Value.Linked := by
  refine .get fun s t hs => ?_
  have hread := Store.Linked.readIn hs h.frame thisName
  generalize s.readIn f.frame thisName = r at hread ⊢
  generalize t.readIn f'.frame thisName = r' at hread ⊢
  cases hread with
  | ok hv => exact .pure hv
  | error _ => exact .defect .receiverMissing

end Eval

end Lox
