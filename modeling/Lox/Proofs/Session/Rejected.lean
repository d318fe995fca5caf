import Lox.Proofs.Prelude.Load
import Lox.Proofs.Session.Alike

/-! Rejected inputs: an input in which something is found wrong before it runs leaves no trace. It
may put the prelude back, but that is done again before any other input could notice. -/

namespace Lox

structure Input where
  time : Float
  source : String

namespace Input

def programReports (i : Input) : List Diagnostic := (Program.compile i.source).diagnostics

def answerReports (i : Input) : List Diagnostic := (Program.ofInput i.source).diagnostics

end Input

def Session.steps {α : Type} (serve : Session → String → Step α) (s : Session) :
    List Input → List (Input × Step α)
  | [] => []
  | i :: more =>
    let step := serve (s.setTime i.time) i.source
    (i, step) :: step.session.steps serve more

namespace Session

lemma steps_setTime {α : Type} (serve : Session → String → Step α) (s : Session) (time : Float)
    (inputs : List Input) : (s.setTime time).steps serve inputs = s.steps serve inputs := by
  cases inputs <;> rfl

lemma run_of_hasError (s : Session) {source : String}
    (h : (Program.compile source).hasError = true) (trace : Trace) :
    s.run source trace = (s.idle .rejected).reporting (Program.compile source).diagnostics := by
  rw [run_eq, conclude, if_pos h]

theorem steps_run (s : Session) (inputs : List Input) (trace : Trace) :
    (s.steps (run · · trace) inputs).filter
        (fun p => !Diagnostic.hasError p.1.programReports) =
      s.steps (run · · trace)
        (inputs.filter fun i => !Diagnostic.hasError i.programReports) := by
  induction inputs generalizing s with
  | nil => rfl
  | cons i inputs ih =>
    cases h : Diagnostic.hasError i.programReports with
    | false => simp only [steps, List.filter_cons, h, Bool.not_false, if_true, ih]
    | true =>
      have hsession : ((s.setTime i.time).run i.source trace).session = s.setTime i.time := by
        rw [run_of_hasError _ h]
        rfl
      simp only [steps, List.filter_cons, h, Bool.not_true, Bool.false_eq_true, if_false, hsession,
        steps_setTime, ih]

lemma result_run_eq_rejected (s : Session) (source : String) (trace : Trace) :
    (s.run source trace).result = .ok .rejected ↔
      Diagnostic.hasError (Program.compile source).diagnostics = true := by
  cases h : (Program.compile source).hasError with
  | true =>
    rw [run_of_hasError s h]
    exact iff_of_true rfl h
  | false =>
    have hne : Diagnostic.hasError (Program.compile source).diagnostics ≠ true := by
      rw [show Diagnostic.hasError (Program.compile source).diagnostics = false from h]
      exact Bool.false_ne_true
    rw [run_of_sound s h]
    refine iff_of_false ?_ hne
    simp only [Step.reporting, Step.catching]
    split <;> simp

theorem exists_of_mem_steps {α : Type} {serve : Session → String → Step α} {s : Session}
    {inputs : List Input} {p : Input × Step α} (h : p ∈ s.steps serve inputs) :
    ∃ s' : Session, p.2 = serve s' p.1.source := by
  induction inputs generalizing s with
  | nil => cases h
  | cons i inputs ih =>
    rcases List.mem_cons.mp h with rfl | h
    · exact ⟨s.setTime i.time, rfl⟩
    · exact ih h

end Session

inductive Link.Results {α : Type} (L : Link) (Q : Link → α → α → Prop) :
    Except Abort α → Except Abort α → Prop
  | ok {v v'} : Q L v v' → Results L Q (.ok v) (.ok v')
  | error {e e'} : e.Linked L e' → Results L Q (.error e) (.error e')

structure Step.Linked {α : Type} (L : Link) (Q : Link → α → α → Prop) (step step' : Step α) :
    Prop where
  result : L.Results Q step.result step'.result
  written : step'.written = step.written

variable {α β : Type} {K : Link.Terms} {L L' : Link} {Q : Link → α → α → Prop}
  {R : Link → β → β → Prop}

lemma Abort.Linked.mono {e e' : Abort} (h : e.Linked L e') (hl : L.Sub L') : e.Linked L' e' := by
  cases h with
  | same => exact .same _
  | escaped hv => exact .escaped (hv.mono hl _ _)

namespace Step.Linked

variable {step step' : Step α}

lemma mono (h : step.Linked L Q step') (hl : L.Sub L') (hQ : ∀ v v', Q L v v' → Q L' v v') :
    step.Linked L' Q step' := by
  obtain ⟨result, written, session⟩ := step
  obtain ⟨result', written', session'⟩ := step'
  obtain ⟨hresult, hwritten⟩ := h
  refine ⟨?_, hwritten⟩
  cases hresult with
  | ok hv => exact .ok (hQ _ _ hv)
  | error he => exact .error (he.mono hl)

lemma catching (h : step.Linked L Q step') {f : α → β} {x : β} (trace : Trace)
    (hf : ∀ v v', Q L v v' → R L (f v) (f v')) (hx : R L x x) :
    (step.catching f x trace).Linked L R (step'.catching f x trace) := by
  obtain ⟨result, written, session⟩ := step
  obtain ⟨result', written', session'⟩ := step'
  obtain ⟨hresult, rfl⟩ := h
  cases hresult with
  | ok hv => exact ⟨.ok (hf _ _ hv), rfl⟩
  | @error e _ he =>
    cases he with
    | escaped hv => exact ⟨.error (.escaped hv), rfl⟩
    | same =>
      cases e with
      | failure f => exact ⟨.ok hx, rfl⟩
      | _ => exact ⟨.error (.same _), rfl⟩

lemma reporting (h : step.Linked L Q step') (ds : List Diagnostic) :
    (step.reporting ds).Linked L Q (step'.reporting ds) :=
  ⟨h.result, congrArg (fun w : Written => { w with err := reportLines ds ++ w.err }) h.written⟩

end Step.Linked

lemma Value.Linked.option_mono {v v' : Option Value} (h : Option.Rel (Value.Linked L) v v')
    (hl : L.Sub L') : Option.Rel (Value.Linked L') v v' :=
  optionRel_mono h fun _ _ hv => hv.mono hl _ _

def Store.served (s : Store) (time : Float) : Store := { s with time, output := "" }

lemma Store.LinkedBut.served {stale : List String} {s t : Store} (h : s.LinkedBut stale K L t)
    (time : Float) : (s.served time).LinkedBut stale K L (t.served time) :=
  (h.withTime time).withOutput ""

lemma Session.fresh_setTime (s : Session) (time : Float) :
    (s.setTime time).fresh = s.store.served time := rfl

def Session.stale (s : Session) : List String := if s.hasPrelude then Prelude.names else []

lemma linked_answered (source : String) {v v' : Value} (hv : v.Linked L v') :
    Option.Rel (Value.Linked L) (Session.answered source v) (Session.answered source v') := by
  unfold Session.answered
  cases Grammar.bareExpression? (Scan.ofString source) with
  | none => exact .none
  | some e => exact .some hv

structure Session.Linked (L : Link) (s s' : Session) : Prop where
  hasPrelude : s'.hasPrelude = s.hasPrelude
  limits : s'.limits = s.limits
  room : 0 < s.limits.levels
  store : ∀ time, (s.store.served time).LinkedBut s.stale .loose L (s'.store.served time)

namespace Session.Linked

variable {s s' : Session}

lemma of_store (hprelude : s'.hasPrelude = s.hasPrelude) (hlimits : s'.limits = s.limits)
    (hroom : 0 < s.limits.levels) (h : s.store.Linked .loose L s'.store) : s.Linked L s' :=
  ⟨hprelude, hlimits, hroom, fun time => (h.served time).mono (List.nil_subset _)⟩

theorem loadPrelude (h : s.Linked L s') (time : Float) :
    ∃ L', L.Sub L' ∧
      (s.setTime time).loadPrelude.fresh.Linked .loose L' (s'.setTime time).loadPrelude.fresh := by
  have hstore := h.store time
  cases hprelude : s.hasPrelude with
  | false =>
    rw [Session.stale, hprelude] at hstore
    rw [loadPrelude_of_not (s.setTime time) hprelude,
      loadPrelude_of_not (s'.setTime time) (h.hasPrelude.trans hprelude)]
    exact ⟨L, .refl L, hstore⟩
  | true =>
    rw [Session.stale, hprelude] at hstore
    have hroom' : 0 < s'.limits.levels := h.limits ▸ h.room
    rw [store_loadPrelude (s.setTime time) hprelude h.room,
      store_loadPrelude (s'.setTime time) (h.hasPrelude.trans hprelude) hroom']
    obtain ⟨L', hl, hs⟩ := hstore.declareGlobals
    rw [fresh_setTime, fresh_setTime]
    generalize Prelude.functions.foldl Store.declareGlobal (s.store.served time) = store at hs ⊢
    generalize Prelude.functions.foldl Store.declareGlobal (s'.store.served time) = store' at hs ⊢
    exact ⟨L', hl, hs.withOutput ""⟩

theorem loadPrelude_left (h : s.Linked L s') (time : Float) :
    (s.setTime time).loadPrelude.Linked L s' := by
  cases hprelude : s.hasPrelude with
  | false =>
    rw [loadPrelude_of_not (s.setTime time) hprelude]
    exact ⟨h.hasPrelude, h.limits, h.room, h.store⟩
  | true =>
    have hnames : ∀ f ∈ Prelude.functions, f.name ∈ s.stale := fun f hf => by
      rw [Session.stale, hprelude]
      exact List.mem_map_of_mem hf
    have hleft := (h.store time).declareGlobals_left id hnames
    rw [store_loadPrelude (s.setTime time) hprelude h.room, fresh_setTime]
    generalize Prelude.functions.foldl Store.declareGlobal (s.store.served time) = store at hleft ⊢
    exact ⟨h.hasPrelude, h.limits, h.room, fun later => hleft.served later⟩

end Session.Linked

namespace Session

variable {s s' : Session}

theorem linked_perform {act : Eval Value} (hprelude : s'.hasPrelude = s.hasPrelude)
    (hlimits : s'.limits = s.limits) (hroom : 0 < s.limits.levels)
    (hact : L.Runs .loose act act Value.Linked) (hs : s.fresh.Linked .loose L s'.fresh) :
    ∃ L', L.Sub L' ∧ L'.Sound ∧ (s.perform act).session.Linked L' (s'.perform act).session ∧
      (s.perform act).Linked L' Value.Linked (s'.perform act) := by
  have hends := hact _ _ hs
  unfold perform
  change L.Ends .loose Value.Linked (act { s.store with output := "" })
    (act { s'.store with output := "" }) at hends
  generalize act { s.store with output := "" } = r at hends ⊢
  generalize act { s'.store with output := "" } = r' at hends ⊢
  cases hends with
  | @ok v v' t t' L' hl hs' hv =>
    refine ⟨L', hl, hs'.sound, .of_store hprelude hlimits hroom hs', .ok hv, ?_⟩
    exact congrArg (fun text => Written.mk text "") hs'.output
  | @error e e' t t' L' hl hs' he =>
    refine ⟨L', hl, hs'.sound, .of_store hprelude hlimits hroom hs', .error he, ?_⟩
    exact congrArg (fun text => Written.mk text "") hs'.output

theorem answer_of_sound {i : Input} (h : Diagnostic.hasError i.answerReports = false)
    (s : Session) (trace : Trace) :
    s.answer i.source trace =
      ((s.loadPrelude.force (.ofInput i.source)).catching (answered i.source) none
        trace).reporting i.answerReports := by
  have hsound : (Program.ofInput i.source).hasError = false := h
  rw [answer_eq, conclude, hsound, if_neg Bool.false_ne_true, Input.answerReports]

theorem answer_of_hasError {i : Input} (h : Diagnostic.hasError i.answerReports = true)
    (s : Session) (trace : Trace) :
    s.answer i.source trace = (s.loadPrelude.idle none).reporting i.answerReports := by
  have herror : (Program.ofInput i.source).hasError = true := h
  rw [answer_eq, conclude, if_pos herror, Input.answerReports]

namespace Linked

lemma answer (h : s.Linked L s') {i : Input} (hi : Diagnostic.hasError i.answerReports = false)
    (trace : Trace) :
    ∃ L', L.Sub L' ∧ L'.Sound ∧
      ((s.setTime i.time).answer i.source trace).session.Linked L'
        ((s'.setTime i.time).answer i.source trace).session ∧
      ((s.setTime i.time).answer i.source trace).Linked L'
        (fun L => Option.Rel (Value.Linked L)) ((s'.setTime i.time).answer i.source trace) := by
  obtain ⟨L₁, h₁, hfresh⟩ := h.loadPrelude i.time
  have hprelude : (s'.setTime i.time).loadPrelude.hasPrelude =
      (s.setTime i.time).loadPrelude.hasPrelude := by
    rw [(loadPrelude_keeps _).1, (loadPrelude_keeps _).1]
    exact h.hasPrelude
  have hlimits : (s'.setTime i.time).loadPrelude.limits =
      (s.setTime i.time).loadPrelude.limits := by
    rw [(loadPrelude_keeps _).2, (loadPrelude_keeps _).2]
    exact h.limits
  have hroom : 0 < (s.setTime i.time).loadPrelude.limits.levels := by
    rw [(loadPrelude_keeps _).2]
    exact h.room
  have heval : (s'.setTime i.time).loadPrelude.evaluator =
      (s.setTime i.time).loadPrelude.evaluator := congrArg Limits.evaluator hlimits
  rw [answer_of_sound hi, answer_of_sound hi, force, force, heval, evaluator_eq]
  obtain ⟨L₂, h₂, hsound, hsession, hstep⟩ := linked_perform hprelude hlimits hroom
    (Eval.linked_program (Evaluator.linked_deep _ _) _ .nil) hfresh
  refine ⟨L₂, h₁.trans h₂, hsound, hsession, ?_⟩
  exact (hstep.catching (R := fun L => Option.Rel (Value.Linked L)) trace
    (fun _ _ => linked_answered i.source) .none).reporting i.answerReports

theorem steps_answer (h : s.Linked L s') (hL : L.Sound) (inputs : List Input) (trace : Trace) :
    ∃ L', L.Sub L' ∧ L'.Sound ∧
      List.Forall₂
        (fun p p' => p'.1 = p.1 ∧ p.2.Linked L' (fun L => Option.Rel (Value.Linked L)) p'.2)
        ((s.steps (Session.answer · · trace) inputs).filter
          fun p => !Diagnostic.hasError p.1.answerReports)
        (s'.steps (Session.answer · · trace)
          (inputs.filter fun i => !Diagnostic.hasError i.answerReports)) := by
  induction inputs generalizing L s s' with
  | nil => exact ⟨L, .refl L, hL, .nil⟩
  | cons i inputs ih =>
    cases hi : Diagnostic.hasError i.answerReports with
    | true =>
      have hleft : ((s.setTime i.time).answer i.source trace).session.Linked L s' := by
        rw [answer_of_hasError hi]
        exact h.loadPrelude_left i.time
      simp only [Session.steps, List.filter_cons, hi, Bool.not_true, Bool.false_eq_true, if_false]
      exact ih hleft hL
    | false =>
      obtain ⟨L₁, h₁, hL₁, hsession, hstep⟩ := h.answer hi trace
      obtain ⟨L₂, h₂, hL₂, hmore⟩ := ih hsession hL₁
      simp only [Session.steps, List.filter_cons, hi, Bool.not_false, if_true]
      refine ⟨L₂, h₁.trans h₂, hL₂, .cons ⟨rfl, hstep.mono h₂ ?_⟩ hmore⟩
      exact fun _ _ hv => Value.Linked.option_mono hv h₂

end Linked

def seen (result : Except Abort (Option Value)) : Except String (Option String) :=
  (result.map fun v => v.map Value.shown).mapError Abort.message

lemma seen_eq (hL : L.Sound) {result result' : Except Abort (Option Value)}
    (h : L.Results (fun L => Option.Rel (Value.Linked L)) result result') :
    seen result' = seen result := by
  cases h with
  | ok hv =>
    cases hv with
    | none => rfl
    | some hv =>
      have hshown := hv.write hL true _ _
      simp only [seen, Except.map, Except.mapError, Option.map_some, Value.shown, hshown]
  | error he =>
    cases he with
    | same => rfl
    | escaped hv =>
      have hshown := hv.write hL true _ _
      simp only [seen, Except.map, Except.mapError, Abort.message, Defect.message, Value.shown,
        hshown]

lemma linked_start (hasPrelude : Bool) (time : Float) :
    ∃ L : Link, L.Sound ∧ (start hasPrelude time).Linked L (start hasPrelude time) := by
  obtain ⟨L, hs⟩ := (Reached.start hasPrelude time).closed
  have hroom : 0 < (start hasPrelude time).limits.levels := by
    rw [start, (loadPrelude_keeps _).2]
    exact Nat.succ_pos _
  exact ⟨L, hs.sound, .of_store rfl rfl hroom hs.loosen⟩

/-- Programs that are rejected may be left out: the steps of the others stay the same ones. Each of
the programs left out ends with the code for that, and has no output. -/
structure RunsWithoutRejected (s : Session) (inputs : List Input) (trace : Trace) : Prop where
  steps : (s.steps (run · · trace) inputs).filter
      (fun p => !Diagnostic.hasError p.1.programReports) =
    s.steps (run · · trace) (inputs.filter fun i => !Diagnostic.hasError i.programReports)
  code : ∀ p ∈ s.steps (run · · trace) inputs,
    p.2.result = .ok .rejected ↔ Diagnostic.hasError p.1.programReports = true
  silent : ∀ p ∈ s.steps (run · · trace) inputs,
    Diagnostic.hasError p.1.programReports = true → p.2.written.out = ""

/-- Inputs that are rejected may be left out: the values and errors of the other steps are linked,
look the same, and come with the same output. Each of the inputs left out has no value and no
output, and what no error is reported about is evaluated. -/
structure AnswersWithoutRejected (s : Session) (inputs : List Input) (trace : Trace) : Prop where
  steps : ∃ L : Link, L.Sound ∧
    List.Forall₂
      (fun p p' => p'.1 = p.1 ∧ seen p'.2.result = seen p.2.result ∧
        p.2.Linked L (fun L => Option.Rel (Value.Linked L)) p'.2)
      ((s.steps (answer · · trace) inputs).filter
        fun p => !Diagnostic.hasError p.1.answerReports)
      (s.steps (answer · · trace)
        (inputs.filter fun i => !Diagnostic.hasError i.answerReports))
  silent : ∀ p ∈ s.steps (answer · · trace) inputs,
    Diagnostic.hasError p.1.answerReports = true → p.2.result = .ok none ∧ p.2.written.out = ""
  evaluated : ∀ p ∈ s.steps (answer · · trace) inputs,
    Diagnostic.hasError p.1.answerReports = false → ∃ s' : Session,
      p.2 = ((s'.loadPrelude.force (.ofInput p.1.source)).catching (answered p.1.source) none
        trace).reporting p.1.answerReports

lemma runsWithoutRejected (s : Session) (inputs : List Input) (trace : Trace) :
    s.RunsWithoutRejected inputs trace := by
  refine ⟨s.steps_run inputs trace, fun p hp => ?_, fun p hp herror => ?_⟩
  · obtain ⟨s', hs'⟩ := exists_of_mem_steps hp
    rw [hs']
    exact result_run_eq_rejected s' p.1.source trace
  · obtain ⟨s', hs'⟩ := exists_of_mem_steps hp
    rw [hs', run_of_hasError s' herror]
    rfl

lemma answersWithoutRejected (hasPrelude : Bool) (time : Float) (inputs : List Input)
    (trace : Trace) : (start hasPrelude time).AnswersWithoutRejected inputs trace := by
  refine ⟨?_, fun p hp herror => ?_, fun p hp hsound => ?_⟩
  · obtain ⟨L, hL, hs⟩ := linked_start hasPrelude time
    obtain ⟨L', -, hL', hsteps⟩ := hs.steps_answer hL inputs trace
    refine ⟨L', hL', hsteps.imp fun p p' hp => ?_⟩
    exact ⟨hp.1, seen_eq hL' hp.2.result, hp.2⟩
  · obtain ⟨s', hs'⟩ := exists_of_mem_steps hp
    rw [hs', answer_of_hasError herror]
    exact ⟨rfl, rfl⟩
  · obtain ⟨s', hs'⟩ := exists_of_mem_steps hp
    rw [hs']
    exact ⟨s', answer_of_sound hsound s' trace⟩

/-- Inputs that are rejected leave no trace, where programs are run and where inputs are answered. It
takes an error and not only warnings. -/
theorem rejected_inputs_leave_no_trace (hasPrelude : Bool) (time : Float) (inputs : List Input)
    (trace : Trace) :
    (start hasPrelude time).RunsWithoutRejected inputs trace ∧
      (start hasPrelude time).AnswersWithoutRejected inputs trace ∧
      ∀ reports, Diagnostic.hasError reports = true ↔ ∃ d ∈ reports, d.severity = .error := by
  refine ⟨runsWithoutRejected _ inputs trace, answersWithoutRejected hasPrelude time inputs trace,
    fun reports => ?_⟩
  simp [Diagnostic.hasError, Diagnostic.isError]

end Session

end Lox
