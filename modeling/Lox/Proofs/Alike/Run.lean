import Lox.Proofs.Alike.Store

/-! Two runs in step: from alike stores they end in the same way, in alike stores again, and the
messages of their faults differ in lines and names only. -/

namespace Lox

inductive Fault.Alike (V : Variation) : Fault → Fault → Prop
  | same (fault : Fault) : Fault.Alike V fault fault
  | undefined {r : String → String} (hr : V.Renames r) (name : String) :
    Fault.Alike V (.undefinedVariable name) (.undefinedVariable (r name))
  | unassigned {r : String → String} (hr : V.Renames r) (name : String) :
    Fault.Alike V (.unassignedVariable name) (.unassignedVariable (r name))

structure Failure.Alike (V : Variation) (f f' : Failure) : Prop where
  fault : f.fault.Alike V f'.fault
  token : Option.Rel V.place f.token f'.token

inductive Defect.Alike {V : Variation} (W : Naming V) : Defect → Defect → Prop
  | escapedReturn {v v'} : v.Alike W v' → Defect.Alike W (.escapedReturn v) (.escapedReturn v')
  | same (d : Defect) : (∀ v, d ≠ .escapedReturn v) → Defect.Alike W d d

inductive Abort.Alike {V : Variation} (W : Naming V) : Abort → Abort → Prop
  | failure {f f'} : f.Alike V f' → Abort.Alike W (.failure f) (.failure f')
  | defect {d d'} : d.Alike W d' → Abort.Alike W (.defect d) (.defect d')
  | noRemainder : Abort.Alike W .noRemainder .noRemainder
  | tooDeep : Abort.Alike W .tooDeep .tooDeep
  | endless : Abort.Alike W .endless .endless

inductive AlikeResult {α : Type} (V : Variation) (R : α → α → Prop) :
    Except Fault α → Except Fault α → Prop
  | ok {x x'} : R x x' → AlikeResult V R (.ok x) (.ok x')
  | error {fault fault'} : fault.Alike V fault' → AlikeResult V R (.error fault) (.error fault')

inductive Ending {α : Type} {V : Variation} (W : Naming V) (earlier : String)
    (Q : Naming V → α → α → Prop) :
    EStateM.Result Abort Store α → EStateM.Result Abort Store α → Prop
  | ok {x x' s s'} (W' : Naming V) : W.Later W' → s.Alike W' earlier s' → Q W' x x' →
      Ending W earlier Q (.ok x s) (.ok x' s')
  | error {e e' s s'} (W' : Naming V) : W.Later W' → s.Alike W' earlier s' → e.Alike W' e' →
      Ending W earlier Q (.error e s) (.error e' s')

def Together {α : Type} {V : Variation} (W : Naming V) (earlier : String) (act act' : Eval α)
    (Q : Naming V → α → α → Prop) : Prop :=
  ∀ s s', s.Alike W earlier s' → Ending W earlier Q (act s) (act' s')

variable {V : Variation} {W : Naming V} {earlier : String}

namespace Together

variable {α β : Type} {Q : Naming V → α → α → Prop} {R : Naming V → β → β → Prop}

lemma pure {x x' : α} (h : Q W x x') : Together W earlier (pure x) (Pure.pure x') Q :=
  fun _ _ hs => .ok W (.refl W) hs h

lemma throw {e e' : Abort} (h : e.Alike W e') :
    Together W earlier (throw e : Eval α) (MonadExcept.throw e') Q :=
  fun _ _ hs => .error W (.refl W) hs h

lemma bind {x x' : Eval α} {f f' : α → Eval β} (h : Together W earlier x x' Q)
    (h' : ∀ W' a a', W.Later W' → Q W' a a' → Together W' earlier (f a) (f' a') R) :
    Together W earlier (x >>= f) (x' >>= f') R := by
  intro s s' hs
  change Ending W earlier R ((EStateM.bind x f) s) ((EStateM.bind x' f') s')
  have hends := h s s' hs
  unfold EStateM.bind
  generalize x s = r at hends ⊢
  generalize x' s' = r' at hends ⊢
  cases hends with
  | ok W₁ hl hs₁ ha =>
    have hmore := h' W₁ _ _ hl ha _ _ hs₁
    dsimp only
    generalize f _ _ = q at hmore ⊢
    generalize f' _ _ = q' at hmore ⊢
    cases hmore with
    | ok W₂ hl' hs₂ hb => exact .ok W₂ (hl.trans hl') hs₂ hb
    | error W₂ hl' hs₂ he => exact .error W₂ (hl.trans hl') hs₂ he
  | error W₁ hl hs₁ he => exact .error W₁ hl hs₁ he

lemma mono {Q' : Naming V → α → α → Prop} {x x' : Eval α} (h : Together W earlier x x' Q)
    (hQ : ∀ W' a a', W.Later W' → Q W' a a' → Q' W' a a') : Together W earlier x x' Q' := by
  intro s s' hs
  have hends := h s s' hs
  generalize x s = r at hends ⊢
  generalize x' s' = r' at hends ⊢
  cases hends with
  | ok W₁ hl hs₁ ha => exact .ok W₁ hl hs₁ (hQ W₁ _ _ hl ha)
  | error W₁ hl hs₁ he => exact .error W₁ hl hs₁ he

theorem get {f f' : Store → Eval β}
    (h : ∀ s s', s.Alike W earlier s' → Together W earlier (f s) (f' s') R) :
    Together W earlier (MonadState.get >>= f) (MonadState.get >>= f') R :=
  fun s s' hs => h s s' hs s s' hs

lemma change {f f' : Store → Store}
    (h : ∀ s s', s.Alike W earlier s' → (f s).Alike W earlier (f' s')) :
    Together W earlier (modify f) (modify f') fun _ _ _ => True :=
  fun s s' hs => .ok W (.refl W) (h s s' hs) trivial

lemma fail {fault fault' : Fault} (h : fault.Alike V fault') {t t' : Token}
    (ht : V.place t t') :
    Together W earlier (Eval.fail fault t : Eval α) (Eval.fail fault' t') Q :=
  throw (.failure ⟨h, .some ht⟩)

lemma defect (d : Defect) (h : ∀ v, d ≠ .escapedReturn v) :
    Together W earlier (Eval.defect d : Eval α) (Eval.defect d) Q :=
  throw (.defect (.same d h))

lemma located {r r' : Except Fault α} {t t' : Token} (ht : V.place t t')
    (h : AlikeResult V (Q W) r r') :
    Together W earlier (Eval.located t r) (Eval.located t' r') Q := by
  cases h with
  | ok hx => exact pure hx
  | error hf => exact fail hf ht

theorem reportingDepth {x x' : Eval α} (h : Together W earlier x x' Q) {t t' : Option Token}
    (ht : Option.Rel V.place t t') :
    Together W earlier (Eval.reportingDepth t x) (Eval.reportingDepth t' x') Q := by
  intro s s' hs
  have hends := h s s' hs
  unfold Eval.reportingDepth
  generalize x s = r at hends ⊢
  generalize x' s' = r' at hends ⊢
  cases hends with
  | ok W₁ hl hs₁ ha => exact .ok W₁ hl hs₁ ha
  | error W₁ hl hs₁ he =>
    cases he with
    | tooDeep => exact .error W₁ hl hs₁ (.failure ⟨.same _, ht⟩)
    | failure h => exact .error W₁ hl hs₁ (.failure h)
    | defect h => exact .error W₁ hl hs₁ (.defect h)
    | noRemainder => exact .error W₁ hl hs₁ .noRemainder
    | endless => exact .error W₁ hl hs₁ .endless

end Together

lemma Store.Alike.readIn {s s' : Store} (h : s.Alike W earlier s') (id : FrameId)
    {name name' : String} (hname : name' = (W.names id 0).val name) :
    AlikeResult V (Value.Alike W) (s.readIn id name) (s'.readIn id name') := by
  subst hname
  have hvariable := h.lookup? id name
  rw [Store.readIn_eq, Store.readIn_eq]
  generalize s.lookup? id name = x at hvariable ⊢
  generalize s'.lookup? id _ = x' at hvariable ⊢
  cases hvariable with
  | none => exact .error (.undefined (W.names id 0).property name)
  | some hx =>
    dsimp only
    rw [hx.assigned]
    split
    · exact .ok hx.value
    · exact .error (.unassigned (W.names id 0).property name)

lemma Store.Alike.readNearest {s s' : Store} (h : s.Alike W earlier s') (name : String) :
    AlikeResult V (Value.Alike W) (s.readNearest Store.globals name)
      (s'.readNearest Store.globals name) := by
  rw [Store.readNearest, Store.readNearest, holder?_globals, holder?_globals, h.binds_globals]
  split
  · next holder hholder =>
    split at hholder
    · cases hholder
      refine h.readIn Store.globals ?_
      rw [h.globals.2]
      rfl
    · cases hholder
  · exact .error (.same _)

namespace Eval

variable {frame : FrameId}

lemma together_newFrame (hframe : W.known frame) (r : V.Renaming) :
    Together W earlier (newFrame (.empty frame)) (newFrame (.empty frame)) fun W' id id' =>
      id' = id ∧ W'.known id ∧ W'.names id = .cons r (W.names frame) := by
  intro s s' hs
  obtain ⟨W', hl, hknown, hnames, hs'⟩ := hs.newFrame hframe r
  exact .ok W' hl hs' ⟨hs.size, hknown, hnames⟩

lemma together_define {v v' : Value} (hv : v.Alike W v') {name name' : String}
    (hname : name' = (W.names frame 0).val name) :
    Together W earlier (define frame name v) (define frame name' v') fun _ _ _ => True := by
  subst hname
  have hx : Variable.Alike W ⟨v, true⟩ ⟨v', true⟩ := ⟨hv, rfl⟩
  exact .change fun s s' hs => hs.define hx name

lemma together_declare {name name' : String} (hname : name' = (W.names frame 0).val name) :
    Together W earlier (declare frame name) (declare frame name') fun _ _ _ => True := by
  subst hname
  have hx : Variable.Alike W ⟨.nil, false⟩ ⟨.nil, false⟩ := ⟨.nil, rfl⟩
  exact .change fun s s' hs => hs.define hx name

lemma together_bindArguments (hframe : W.known frame) {params params' : List Token}
    {args args' : List Value}
    (hparams : List.Forall₂ (Token.Alike V (W.names frame 0)) params params')
    (hargs : AlikeValues W args args') :
    Together W earlier (bindArguments frame params args) (bindArguments frame params' args')
      fun _ _ _ => True := by
  induction params generalizing W args args' params' with
  | nil =>
    cases hparams
    exact .pure trivial
  | cons param params ih =>
    cases hparams with
    | cons hparam hparams =>
      cases hargs with
      | nil => exact .pure trivial
      | cons hv hargs =>
        refine (together_define hv hparam.lexeme).bind fun W₁ _ _ hl _ => ?_
        refine ih (hl _ hframe).1 ?_ (hargs.later hl _ _)
        rw [(hl _ hframe).2]
        exact hparams

lemma together_ancestor (hframe : W.known frame) (distance : Nat) :
    Together W earlier (ancestor frame distance) (ancestor frame distance) fun W' id id' =>
      id' = id ∧ W'.known id ∧ W'.names id 0 = W.names frame distance := by
  refine .get fun s s' hs => ?_
  rw [hs.ancestor?]
  cases ha : s.ancestor? frame distance with
  | none => exact .defect .depthTooLarge fun _ => nofun
  | some holder => exact .pure ⟨rfl, hs.names_ancestor? hframe ha⟩

lemma together_readAt (hframe : W.known frame) {distance : Nat} {t t' : Token}
    (ht : Token.Alike V (W.names frame distance) t t') :
    Together W earlier (readAt frame distance t) (readAt frame distance t') Value.Alike := by
  refine (together_ancestor hframe distance).bind fun W₁ _ holder hl h => ?_
  obtain ⟨rfl, -, hnames⟩ := h
  refine .get fun s s' hs => .located ht.place (hs.readIn holder ?_)
  rw [hnames]
  exact ht.lexeme

lemma together_assignAt (hframe : W.known frame) {distance : Nat} {t t' : Token}
    (ht : Token.Alike V (W.names frame distance) t t') {v v' : Value} (hv : v.Alike W v') :
    Together W earlier (assignAt frame distance t v) (assignAt frame distance t' v')
      fun _ _ _ => True := by
  refine (together_ancestor hframe distance).bind fun W₁ _ holder hl h => ?_
  obtain ⟨rfl, -, hnames⟩ := h
  refine together_define (hv.later hl _ _) ?_
  rw [hnames]
  exact ht.lexeme

lemma together_readNearest {t t' : Token} (ht : Token.Alike V id t t') :
    Together W earlier (readNearest Store.globals t) (readNearest Store.globals t')
      Value.Alike := by
  refine .get fun s s' hs => .located ht.place ?_
  rw [ht.lexeme]
  exact hs.readNearest t.lexeme

lemma together_assignNearest {t t' : Token} (ht : Token.Alike V id t t') {v v' : Value}
    (hv : v.Alike W v') :
    Together W earlier (assignNearest Store.globals t v) (assignNearest Store.globals t' v')
      fun _ _ _ => True := by
  refine .get fun s s' hs => ?_
  rw [ht.lexeme, Store.Alike.holder?_globals, Store.Alike.holder?_globals]
  simp only [id_eq, hs.binds_globals]
  cases s.binds Store.globals t.lexeme
  · exact .fail (.same _) ht.place
  · refine together_define hv ?_
    rw [hs.globals.2]
    rfl

theorem together_readName (hframe : W.known frame) {target target' : Reference}
    (h : V.resolved.use (W.names frame) target target') :
    Together W earlier (readName frame target) (readName frame target') Value.Alike := by
  obtain ⟨name, depth⟩ := target
  obtain ⟨name', depth'⟩ := target'
  obtain ⟨hdepth, ht⟩ := h
  cases hdepth
  cases depth with
  | none => exact together_readNearest ht
  | some depth => exact together_readAt hframe ht

lemma together_assignName (hframe : W.known frame) {target target' : Reference}
    (h : V.resolved.use (W.names frame) target target') {v v' : Value} (hv : v.Alike W v') :
    Together W earlier (assignName frame target v) (assignName frame target' v')
      fun _ _ _ => True := by
  obtain ⟨name, depth⟩ := target
  obtain ⟨name', depth'⟩ := target'
  obtain ⟨hdepth, ht⟩ := h
  cases hdepth
  cases depth with
  | none => exact together_assignNearest ht hv
  | some depth => exact together_assignAt hframe ht hv

lemma together_closure (hframe : W.known frame) {f f' : Function}
    (h : f.Alike V.resolved (W.names frame) f') (isInitializer : Bool) :
    Together W earlier (closure f frame isInitializer) (closure f' frame isInitializer)
      fun W' c c' => c.Alike W' c' ∧ c.function = f ∧ c'.function = f' := by
  intro s s' hs
  exact .ok W (.refl W) hs.newFunction ⟨⟨hs.functions, rfl, hframe, h, rfl⟩, rfl, rfl⟩

lemma together_newFields :
    Together W earlier newFields newFields fun _ place place' => place' = place :=
  fun _ _ hs => .ok W (.refl W) hs.newFields hs.sizeFields

lemma together_bind {m m' : Method} (hm : m.Alike W m') {v v' : Value} (hv : v.Alike W v') :
    Together W earlier (bind m v) (bind m' v') fun W' f f' =>
      f.Alike W' f' ∧ f.function = m.function ∧ f'.function = m'.function := by
  unfold bind
  rw [hm.frame, hm.isInitializer]
  refine (together_newFrame hm.known V.same).bind fun W₁ _ inside h₁ h => ?_
  obtain ⟨rfl, hknown, hnames⟩ := h
  have hthis : thisName = (W₁.names inside 0).val thisName := by
    rw [hnames]
    rfl
  refine (together_define (hv.later h₁ _ _) hthis).bind fun W₂ _ _ h₂ _ => ?_
  refine together_closure (h₂ _ hknown).1 ?_ m.isInitializer
  rw [(h₂ _ hknown).2, hnames]
  exact hm.function

lemma together_receiver {f f' : Closure} (h : f.Alike W f') :
    Together W earlier (receiver f) (receiver f') Value.Alike := by
  unfold receiver
  rw [h.frame]
  refine .get fun s s' hs => ?_
  have hread := hs.readIn f.frame (V.this (W.names f.frame 0).property).symm
  unfold thisName
  generalize s.readIn f.frame "this" = r at hread ⊢
  generalize s'.readIn f.frame "this" = r' at hread ⊢
  cases hread with
  | ok hv => exact .pure hv
  | error _ => exact .defect .receiverMissing fun _ => nofun

end Eval

end Lox
