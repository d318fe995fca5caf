import Lox.Eval.Evaluator
import Lox.Proofs.Receiver.Store

/-! Runs from owned stores: a watched run breaks off with an alarm, or another run goes as it does and
leaves an owned store. -/

namespace Lox

def OwnedEnd {α : Type} (s : Store) (Q : Store → α → Prop) :
    EStateM.Result Abort Store α → Prop
  | .ok x s' => s.Extends s' ∧ s'.Owned ∧ Q s' x
  | .error _ s' => s.Extends s' ∧ s'.Owned

/-- From an owned store the first run raises the alarm, or the second goes as it does. -/
def Tracks {α : Type} (d : Defect) (s : Store) (act act' : Eval α) (Q : Store → α → Prop) : Prop :=
  s.Owned → (∃ s', act s = .error (.defect d) s') ∨ act' s = act s ∧ OwnedEnd s Q (act s)

namespace Tracks

variable {α β : Type} {d : Defect} {s : Store} {Q : Store → α → Prop} {R : Store → β → Prop}

lemma pure {x : α} (h : Q s x) : Tracks d s (pure x) (pure x) Q :=
  fun hs => .inr ⟨rfl, .refl s, hs, h⟩

lemma throw (e : Abort) : Tracks d s (throw e : Eval α) (MonadExcept.throw e) Q :=
  fun hs => .inr ⟨rfl, .refl s, hs⟩

lemma bind {x x' : Eval α} {f f' : α → Eval β} (h : Tracks d s x x' Q)
    (h' : ∀ s' a, s.Extends s' → Q s' a → Tracks d s' (f a) (f' a) R) :
    Tracks d s (x >>= f) (x' >>= f') R := by
  intro hs
  change (∃ s', (EStateM.bind x f) s = _) ∨
    (EStateM.bind x' f') s = (EStateM.bind x f) s ∧ OwnedEnd s R ((EStateM.bind x f) s)
  unfold EStateM.bind
  rcases h hs with ⟨s', halarm⟩ | ⟨heq, hend⟩
  · rw [halarm]
    exact .inl ⟨s', rfl⟩
  · rw [heq]
    cases hx : x s with
    | error e s' =>
      rw [hx] at hend
      exact .inr ⟨rfl, hend⟩
    | ok a s' =>
      rw [hx] at hend
      obtain ⟨hl, hs', ha⟩ := hend
      rcases h' s' a hl ha hs' with ⟨s'', halarm⟩ | ⟨heq', hend'⟩
      · exact .inl ⟨s'', halarm⟩
      · refine .inr ⟨heq', ?_⟩
        dsimp only
        cases hf : f a s' with
        | ok b s'' =>
          rw [hf] at hend'
          exact ⟨hl.trans hend'.1, hend'.2⟩
        | error e s'' =>
          rw [hf] at hend'
          exact ⟨hl.trans hend'.1, hend'.2⟩

lemma mono {Q' : Store → α → Prop} {x x' : Eval α} (h : Tracks d s x x' Q)
    (hQ : ∀ s' a, Q s' a → Q' s' a) : Tracks d s x x' Q' := by
  intro hs
  rcases h hs with halarm | ⟨heq, hend⟩
  · exact .inl halarm
  · refine .inr ⟨heq, ?_⟩
    cases hx : x s with
    | ok a s' =>
      rw [hx] at hend
      exact ⟨hend.1, hend.2.1, hQ s' a hend.2.2⟩
    | error e s' =>
      rw [hx] at hend
      exact hend

lemma step {act : Eval α} {x : α} {s' : Store} (hact : act s = .ok x s')
    (h : s.Owned → s.Extends s' ∧ s'.Owned ∧ Q s' x) : Tracks d s act act Q := by
  intro hs
  rw [hact]
  exact .inr ⟨rfl, h hs⟩

lemma owned {x x' : Eval α} (h : s.Owned → Tracks d s x x' Q) : Tracks d s x x' Q :=
  fun hs => h hs hs

lemma get {f f' : Store → Eval β} (h : s.Owned → Tracks d s (f s) (f' s) R) :
    Tracks d s (MonadState.get >>= f) (MonadState.get >>= f') R :=
  fun hs => h hs hs

lemma fail (fault : Fault) (t : Token) :
    Tracks d s (Eval.fail fault t : Eval α) (Eval.fail fault t) Q := throw _

lemma defect (d' : Defect) : Tracks d s (Eval.defect d' : Eval α) (Eval.defect d') Q := throw _

lemma located {r : Except Fault α} (h : ∀ x, r = .ok x → Q s x) (t : Token) :
    Tracks d s (Eval.located t r) (Eval.located t r) Q := by
  cases r with
  | ok x => exact pure (h x rfl)
  | error fault => exact fail fault t

lemma reportingDepth {x x' : Eval α} (h : Tracks d s x x' Q) (t : Option Token) :
    Tracks d s (Eval.reportingDepth t x) (Eval.reportingDepth t x') Q := by
  intro hs
  unfold Eval.reportingDepth
  rcases h hs with ⟨s', halarm⟩ | ⟨heq, hend⟩
  · rw [halarm]
    exact .inl ⟨s', rfl⟩
  · rw [heq]
    refine .inr ⟨rfl, ?_⟩
    cases hx : x s with
    | ok a s' =>
      rw [hx] at hend
      exact hend
    | error e s' =>
      rw [hx] at hend
      cases e <;> exact hend

end Tracks

variable {d : Defect} {s : Store} {frame : FrameId}

lemma Store.Owned.readIn (hs : s.Owned) {id : FrameId} {name : String} {v : Value}
    (hv : s.readIn id name = .ok v) : v.Owned s := by
  rw [readIn_eq] at hv
  split at hv
  · next x hx =>
    split at hv
    · cases hv
      exact hs.variables id name x hx
    · cases hv
  · cases hv

lemma Token.IsName.not_mem_reserved {t : Token} (h : t.IsName) : t.lexeme ∉ reservedNames :=
  fun hmem => h.ne_reserved hmem rfl

namespace Eval

lemma tracks_newFrame (h : frame < s.frames.size) :
    Tracks d s (newFrame (.empty frame)) (newFrame (.empty frame)) fun s' id =>
      id < s'.frames.size ∧ s'.parent? id = some frame ∧ ∀ name, s'.lookup? id name = none := by
  refine .step rfl fun hs => ?_
  exact hs.newFrame h

lemma tracks_define (frame : FrameId) {name : String} (hname : name ∉ reservedNames) {v : Value}
    (hv : v.Owned s) : Tracks d s (define frame name v) (define frame name v) fun _ _ => True := by
  refine .step rfl fun hs => ?_
  obtain ⟨hl, hs'⟩ := hs.define (x := ⟨v, true⟩) hname hv frame
  exact ⟨hl, hs', trivial⟩

lemma tracks_declare (frame : FrameId) {name : String} (hname : name ∉ reservedNames) :
    Tracks d s (declare frame name) (declare frame name) fun _ _ => True := by
  refine .step rfl fun hs => ?_
  obtain ⟨hl, hs'⟩ := hs.define (x := ⟨.nil, false⟩) hname .nil frame
  exact ⟨hl, hs', trivial⟩

lemma tracks_bindArguments (frame : FrameId) {params : List Token} {args : List Value}
    (hparams : ∀ t ∈ params, t.IsName) (hargs : ∀ v ∈ args, v.Owned s) :
    Tracks d s (bindArguments frame params args) (bindArguments frame params args)
      fun _ _ => True := by
  induction params generalizing s args with
  | nil => exact .pure trivial
  | cons param params ih =>
    cases args with
    | nil => exact .pure trivial
    | cons v args =>
      rw [List.forall_mem_cons] at hparams hargs
      refine (tracks_define frame hparams.1.not_mem_reserved hargs.1).bind fun s₁ _ h₁ _ => ?_
      exact ih hparams.2 fun v hv => (hargs.2 v hv).mono h₁

lemma tracks_ancestor (frame : FrameId) (distance : Nat) :
    Tracks d s (ancestor frame distance) (ancestor frame distance) fun _ _ => True := by
  refine .get fun _ => ?_
  cases s.ancestor? frame distance with
  | none => exact .defect .depthTooLarge
  | some holder => exact .pure trivial

lemma tracks_readName (frame : FrameId) (target : Reference) :
    Tracks d s (readName frame target) (readName frame target) fun s' v => v.Owned s' := by
  unfold readName
  cases target.depth with
  | none =>
    refine .get fun hs => .located (fun v hv => ?_) target.name
    unfold Store.readNearest at hv
    split at hv
    · exact hs.readIn hv
    · cases hv
  | some depth =>
    refine (tracks_ancestor frame depth).bind fun s₁ holder _ _ => ?_
    exact .get fun hs => .located (fun v hv => hs.readIn hv) target.name

lemma tracks_assignName (frame : FrameId) {target : Reference} (ht : target.name.IsName)
    {v : Value} (hv : v.Owned s) :
    Tracks d s (assignName frame target v) (assignName frame target v) fun _ _ => True := by
  unfold assignName
  cases target.depth with
  | none =>
    refine .get fun _ => ?_
    cases s.holder? Store.globals target.name.lexeme with
    | none => exact .fail _ target.name
    | some holder => exact tracks_define holder ht.not_mem_reserved hv
  | some depth =>
    refine (tracks_ancestor frame depth).bind fun s₁ holder h₁ _ => ?_
    exact tracks_define holder ht.not_mem_reserved (hv.mono h₁)

lemma tracks_closure (f : Function) (frame : FrameId) (isInitializer : Bool) :
    Tracks d s (closure f frame isInitializer) (closure f frame isInitializer) fun _ c =>
      c.function = f ∧ c.frame = frame := by
  refine .step rfl fun hs => ?_
  obtain ⟨hl, hs'⟩ : s.Extends s.newFunction.2 ∧ s.newFunction.2.Owned := hs.congr rfl rfl
  exact ⟨hl, hs', rfl, rfl⟩

lemma tracks_newFields : Tracks d s newFields newFields fun _ _ => True := by
  refine .step rfl fun hs => ?_
  obtain ⟨hl, hs'⟩ := hs.newFields
  exact ⟨hl, hs', trivial⟩

lemma tracks_newClass (name : String) (superclass metaclass : Option Class)
    (methods : Table Method) :
    Tracks d s (newClass name superclass metaclass methods)
      (newClass name superclass metaclass methods)
      fun _ c => ∃ id, c = .mk id name superclass metaclass methods :=
  tracks_newFields.bind fun _ id _ _ => .pure ⟨id, rfl⟩

lemma bind_eq (m : Method) (v : Value) (s : Store) :
    bind m v s = .ok ⟨s.functions, m.function, s.frames.size, m.isInitializer⟩
      (s.enclose m.frame thisName v).newFunction.2 := rfl

lemma tracks_bind {m : Method} {v : Value} (hm : m.Suits s v) (hv : v.Owned s) :
    Tracks d s (bind m v) (bind m v) fun s' f => f.function = m.function ∧ f.Owned s' := by
  refine .step (bind_eq m v s) fun hs => ?_
  have hf := hm.owned_closure hs hv s.functions
  obtain ⟨b, rfl, howned, hdeclared, -⟩ := hm
  obtain ⟨hl, hs₁⟩ := hs.enclose (Member.method_of_owned howned hdeclared).2.1 hv thisName
  obtain ⟨hl₂, hs₂⟩ :
      Store.Extends _ (s.enclose b.method.frame thisName v).newFunction.2 ∧ Store.Owned _ :=
    hs₁.congr rfl rfl
  exact ⟨hl.trans hl₂, hs₂, rfl, hf.mono hl₂⟩

lemma tracks_receiver (f : Closure) :
    Tracks d s (receiver f) (receiver f) fun s' v => v.Owned s' := by
  refine .get fun hs => ?_
  cases hv : s.readIn f.frame thisName with
  | ok v => exact .pure (hs.readIn hv)
  | error _ => exact .defect .receiverMissing

end Eval

end Lox
