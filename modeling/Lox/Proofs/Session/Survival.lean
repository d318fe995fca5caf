import Lox.Proofs.Eval.Parts
import Lox.Proofs.Session.Rejected

/-! Survival: whatever a session is asked for, it goes on in a state that sources without errors
reach, and only two things end a step that are not reported: a loop that does not end, and the
remainder of an infinite number. -/

namespace Lox

open Number in
lemma Number.remainder?_eq_none_iff {x y : Float} :
    remainder? x y = none ↔
      (∃ negative, Binary.ofFloat x = .infinite negative) ∧ Binary.ofFloat y ≠ .nan := by
  unfold remainder?
  cases Binary.ofFloat x <;> cases Binary.ofFloat y <;> simp
  split <;> simp

theorem Value.binary_eq_none_iff {op : Token} {a b : Value} :
    a.binary op b = .ok none ↔
      op.kind = .percent ∧ ∃ x y, a = .number x ∧ b = .number y ∧ (y == 0) = false ∧
        (∃ negative, Number.Binary.ofFloat x = .infinite negative) ∧
        Number.Binary.ofFloat y ≠ .nan := by
  have hnumbers : ∀ x y, ofNumbers op x y = .ok none ↔
      op.kind = .percent ∧ (y == 0) = false ∧ Number.remainder? x y = none := by
    intro x y
    unfold ofNumbers
    cases op.kind <;> simp <;> split <;> simp_all
  constructor
  · intro h
    unfold binary at h
    split at h
    · cases h
    · cases h
    · unfold add at h
      split at h <;> cases h
    · split at h
      · next x y =>
        obtain ⟨hkind, hy, hnone⟩ := (hnumbers x y).mp h
        exact ⟨hkind, x, y, rfl, rfl, hy, Number.remainder?_eq_none_iff.mp hnone⟩
      · cases h
  · rintro ⟨hkind, x, y, rfl, rfl, hy, hnone⟩
    unfold binary
    rw [hkind]
    exact (hnumbers x y).mpr ⟨hkind, hy, Number.remainder?_eq_none_iff.mpr hnone⟩

namespace Eval

variable {α : Type} {s t : Store}

lemma reportingDepth_ne_tooDeep (token : Option Token) (act : Eval α) :
    reportingDepth token act s ≠ .error .tooDeep t := by
  unfold reportingDepth
  intro h
  split at h
  · cases h
  · next hact => exact hact t h

theorem program_ne_tooDeep {E : Evaluator} {last : Value} (body : List Stmt) :
    program E last body s ≠ .error .tooDeep t := by
  induction body generalizing last s with
  | nil => exact fun h => nomatch h
  | cons st body ih =>
    intro h
    rcases program_cons st with ⟨line, value, rfl⟩ | hst
    · rcases bind_error h with h | ⟨v, s₁, -, h⟩
      · exact reportingDepth_ne_tooDeep _ _ h
      · exact ih h
    · rw [hst] at h
      rcases bind_error h with h | ⟨outcome, s₁, -, h⟩
      · exact reportingDepth_ne_tooDeep _ _ h
      · cases outcome with
        | normal => exact ih h
        | returned v => cases h
        | broke => cases h

end Eval

namespace Step

def lacksRemainder {α : Type} (step : Step α) : Bool :=
  match step.result with
  | .error .noRemainder => true
  | _ => false

lemma result_of_lacksRemainder {α : Type} (step : Step α) (h : step.lacksRemainder = true) :
    step.result = .error .noRemainder := by
  unfold lacksRemainder at h
  split at h
  · assumption
  · cases h

end Step

/-- What a step comes to that gives some value if all goes well and another if the program fails:
the failure is reported behind the diagnostics, with its trace. -/
inductive Step.Settles {α : Type} (value : α → Prop) (failed : α) (trace : Trace)
    (ds : List Diagnostic) (step : Step α) : Prop where
  | value (v : α) (hv : value v) (hresult : step.result = .ok v)
    (herr : step.written.err = reportLines ds)
  | failed (f : Failure) (hresult : step.result = .ok failed)
    (herr : step.written.err = reportLines ds ++ f.report ++ "\n" ++ trace f)
  | noRemainder (hresult : step.result = .error .noRemainder)
  | endless (hresult : step.result = .error .endless)

theorem Program.ofInput_compiles (source : String) :
    ∃ source', (ofInput source).hasError = (compile source').hasError ∧
      ∀ s : Session, s.force (.ofInput source) = s.force (.compile source') := by
  unfold ofInput
  cases he : Grammar.bareExpression? (Scan.ofString source) with
  | none => exact ⟨source, rfl, fun s => rfl⟩
  | some e =>
    obtain ⟨line, warnings, hwarnings, hp⟩ := compile_of_bareExpression he
    have hconcludes := Session.concludes_expression hwarnings hp
    exact ⟨source ++ "\n;", (hconcludes ⟨false, .standard, .initial 0⟩).1,
      fun s => (hconcludes s).2⟩

namespace Session

variable {s : Session} {sources : List String} {source : String}

lemma force_ne_tooDeep (s : Session) (p : Program) :
    (s.force p).result ≠ .error .tooDeep := by
  unfold force perform
  cases hact : Eval.program s.evaluator .nil p.body { s.store with output := "" } with
  | ok v t => exact fun h => nomatch h
  | error a t =>
    intro h
    cases h
    exact Eval.program_ne_tooDeep p.body hact

lemma settles_force {α : Type} (h : Reached sources s)
    (hsource : (Program.compile source).hasError = false) {f : Value → α} {x : α}
    {value : α → Prop} (hf : ∀ v, value (f v)) (trace : Trace) (ds : List Diagnostic) :
    (((s.force (.compile source)).catching f x trace).reporting ds).Settles value x trace ds := by
  have herr := s.err_force (.compile source)
  cases hresult : (s.force (.compile source)).result with
  | ok v =>
    refine .value (f v) (hf v) ?_ ?_
    · simp [Step.reporting, Step.catching, hresult]
    · simp [Step.reporting, Step.catching, Step.failure?, Trace.complaint, hresult, herr]
  | error a =>
    have harmless := harmless_force h hsource hresult
    cases a with
    | failure f =>
      refine .failed f ?_ ?_
      · simp [Step.reporting, Step.catching, hresult]
      · simp [Step.reporting, Step.catching, Step.failure?, Trace.complaint, hresult, herr,
          String.append_assoc]
    | defect d => exact harmless.elim
    | noRemainder => exact .noRemainder (by simp [Step.reporting, Step.catching, hresult])
    | tooDeep => exact (s.force_ne_tooDeep _ hresult).elim
    | endless => exact .endless (by simp [Step.reporting, Step.catching, hresult])

theorem settles_conclude {α : Type} (h : Reached sources s) {p : Program}
    (hp : p.hasError = (Program.compile source).hasError)
    (hforce : s.force p = s.force (.compile source)) {f : Value → α} {x y : α}
    {value : α → Prop} (hf : ∀ v, value (f v)) (hx : value x) (trace : Trace)
    (ds : List Diagnostic) :
    ((s.conclude p f x y trace).reporting ds).Settles value y trace ds := by
  rw [conclude, hp, hforce]
  split
  · exact .value x hx rfl (by simp [Step.reporting, idle])
  · next hsource => exact settles_force h (Bool.not_eq_true _ ▸ hsource) hf trace ds

end Session

namespace Reached

open Session

variable {s : Session} {sources : List String}

lemma force (h : Reached sources s) {source : String}
    (hsource : (Program.compile source).hasError = false) :
    Reached (source :: sources) (s.force (.compile source)).session :=
  session_run .off hsource ▸ h.run hsource

lemma loadPrelude (h : Reached sources s) : ∃ more, Reached more s.loadPrelude := by
  unfold Session.loadPrelude
  split
  · exact ⟨_, h.force Prelude.hasError_source⟩
  · exact ⟨_, h⟩

theorem conclude {α : Type} (h : Reached sources s) {p : Program} {source : String}
    (hp : p.hasError = (Program.compile source).hasError)
    (hforce : s.force p = s.force (.compile source)) (f : Value → α) (x y : α) (trace : Trace) :
    ∃ more, Reached more (s.conclude p f x y trace).session := by
  rw [session_conclude, hp, hforce]
  split
  · exact ⟨_, h⟩
  · next hsource => exact ⟨_, h.force (Bool.not_eq_true _ ▸ hsource)⟩

lemma session_run (h : Reached sources s) (source : String) (trace : Trace) :
    ∃ more, Reached more (s.run source trace).session := by
  rw [run_eq]
  exact h.conclude rfl rfl _ _ _ trace

lemma settles_run (h : Reached sources s) (source : String) (trace : Trace) :
    (s.run source trace).Settles (· ∈ [.success, .rejected]) .failed trace
      (Program.compile source).diagnostics := by
  rw [run_eq]
  exact settles_conclude h rfl rfl (by simp) (by simp) trace _

lemma session_answer (h : Reached sources s) (source : String) (trace : Trace) :
    ∃ more, Reached more (s.answer source trace).session := by
  obtain ⟨more, hmore⟩ := h.loadPrelude
  obtain ⟨_, herror, hforce⟩ := Program.ofInput_compiles source
  rw [answer_eq]
  exact hmore.conclude herror (hforce _) _ _ _ trace

lemma settles_answer (h : Reached sources s) (i : Input) (trace : Trace) :
    (s.answer i.source trace).Settles (fun _ => True) none trace i.answerReports := by
  obtain ⟨more, hmore⟩ := h.loadPrelude
  obtain ⟨_, herror, hforce⟩ := Program.ofInput_compiles i.source
  rw [answer_eq]
  exact settles_conclude hmore herror (hforce _) (fun _ => trivial) trivial trace _

lemma serve (h : Reached sources s) (r : Request) : ∃ more, Reached more (s.serve r).session := by
  cases r with
  | run source => exact h.session_run source .off
  | answer source => exact h.session_answer source .off
  | dump source =>
    unfold Session.serve Session.dump
    dsimp only
    split <;> exact ⟨_, h⟩
  | setTime time => exact ⟨_, h.setTime time⟩

lemma after (h : Reached sources s) (rs : List Request) : ∃ more, Reached more (s.after rs) := by
  induction rs generalizing s sources with
  | nil => exact ⟨_, h⟩
  | cons r rs ih =>
    obtain ⟨more, hmore⟩ := h.serve r
    exact ih hmore

end Reached

namespace Session

/-- After any requests, a source that is run ends with the code for success, a rejection or a
failure, and an input that is answered has a value or none; failures are reported. There are two
exceptions. A loop may take more turns than the limit. And a remainder is not defined where the
dividend is infinite and the divisor is a number other than zero, which is no fault of the program
and is not reported; with all other operands an operator has a value or a fault. -/
theorem requests_settle (hasPrelude : Bool) (time : Float) (rs : List Request) (i : Input)
    (trace : Trace) :
    let s := ((start hasPrelude time).after rs).setTime i.time
    (s.run i.source trace).Settles (· ∈ [.success, .rejected]) .failed trace i.programReports ∧
      (s.answer i.source trace).Settles (fun _ => True) none trace i.answerReports ∧
      ∀ (op : Token) (a b : Value), a.binary op b = .ok none ↔
        op.kind = .percent ∧ ∃ x y, a = .number x ∧ b = .number y ∧ (y == 0) = false ∧
          (∃ negative, Number.Binary.ofFloat x = .infinite negative) ∧
          Number.Binary.ofFloat y ≠ .nan := by
  intro s
  obtain ⟨more, hmore⟩ := (Reached.start hasPrelude time).after rs
  have hs : Reached more s := hmore.setTime i.time
  exact ⟨hs.settles_run i.source trace, hs.settles_answer i trace,
    fun _ _ _ => Value.binary_eq_none_iff⟩

theorem remainder_of_infinity_escapes :
    let source := "var x = 10; while (x < x * x) x = x * x; print x % 2;"
    let step := (start false 0).run source
    (Program.compile source).hasError = false ∧ (∀ code, step.result ≠ .ok code) ∧
      step.result = .error .noRemainder ∧ step.written = ⟨"", ""⟩ := by
  intro source step
  have hsound : (Program.compile source).hasError = false := by decide +kernel
  have hends : (step.lacksRemainder && decide (step.written = ⟨"", ""⟩)) = true := by
    decide +kernel
  obtain ⟨hlacks, hwritten⟩ := Bool.and_eq_true_iff.mp hends
  have hresult := step.result_of_lacksRemainder hlacks
  have hwritten := of_decide_eq_true hwritten
  refine ⟨hsound, fun code hcode => ?_, hresult, hwritten⟩
  cases hresult.symm.trans hcode

end Session

end Lox
