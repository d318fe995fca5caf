import Lox.Proofs.Alike.Same
import Lox.Proofs.Alike.Shift
import Lox.Proofs.Session.Answer
import Lox.Proofs.Session.Start

/-! Sessions that are alike: to the same requests they give responses that differ, if at all, in the
lines and names of messages. -/

namespace Lox

/-- What is reported about the ends of two runs: nothing, or failures that are alike. -/
def Variation.Complaint (V : Variation) (c c' : String) : Prop :=
  c = "" ∧ c' = "" ∨
    ∃ f f' : Failure, f.Alike V f' ∧ c = f.report ++ "\n" ∧ c' = f'.report ++ "\n"

lemma Variation.complaint_of_failure {V : Variation} {f? f?' : Option Failure}
    (h : Option.Rel (Failure.Alike V) f? f?') :
    V.Complaint (Trace.off.complaint f?) (Trace.off.complaint f?') := by
  cases h with
  | none => exact .inl ⟨rfl, rfl⟩
  | some hf => exact .inr ⟨_, _, hf, String.append_empty, String.append_empty⟩

def Variation.Reports (V : Variation) (err err' : String) : Prop :=
  ∃ ds c c', err = reportLines ds ++ c ∧ err' = reportLines ds ++ c' ∧ V.Complaint c c'

lemma reportLines_append (ds es : List Diagnostic) :
    reportLines (ds ++ es) = reportLines ds ++ reportLines es := by
  simp [reportLines]

variable {V : Variation} {earlier : String}

lemma Defect.Alike.message {W : Naming V} {d d' : Defect} (h : d.Alike W d') :
    d'.message = d.message := by
  cases h with
  | escapedReturn hv =>
    have hshown := hv.write true _ _
    unfold Defect.message
    simp only [Value.shown, hshown]
  | same => rfl

lemma Program.alike_ofInput {V : Variation} (hself : ∀ t : Token, 1 ≤ t.line → V.place t t)
    {source : String} (h : (ofInput source).hasError = false) :
    AlikeStmts V.resolved V.plain (ofInput source).body (ofInput source).body := by
  unfold ofInput at h ⊢
  cases he : Grammar.bareExpression? (Scan.ofString source) with
  | none =>
    rw [he] at h
    exact alike_self hself h
  | some e =>
    rw [he] at h
    obtain ⟨line, warnings, hwarnings, hp⟩ := compile_of_bareExpression he
    have hsound : (compile (source ++ "\n;")).hasError = false := by
      rw [hp, hasError, Diagnostic.hasError_append_warnings hwarnings]
      exact h
    have halike := alike_self hself hsound
    rw [hp] at halike
    cases halike with
    | cons hs _ =>
      cases hs with
      | expression he => exact .cons (.expression he) .nil

structure Session.Alike (V : Variation) (s s' : Session) : Prop where
  hasPrelude : s'.hasPrelude = s.hasPrelude
  limits : s'.limits = s.limits
  store : ∃ (W : Naming V) (earlier : String), s.store.Alike W earlier s'.store

inductive AlikeOutcome {α : Type} (V : Variation) (Q : Naming V → α → α → Prop) :
    Except Abort α → Except Abort α → Prop
  | ok {W v v'} : Q W v v' → AlikeOutcome V Q (.ok v) (.ok v')
  | error {W : Naming V} {e e'} : e.Alike W e' → AlikeOutcome V Q (.error e) (.error e')

/-- Steps that do the same; the second has printed something before. -/
structure Step.Alike {α : Type} (V : Variation) (earlier : String)
    (Q : Naming V → α → α → Prop) (step step' : Step α) : Prop where
  result : AlikeOutcome V Q step.result step'.result
  out : step'.written.out = earlier ++ step.written.out
  err : step.written.err = "" ∧ step'.written.err = ""
  session : step.session.Alike V step'.session

namespace Step.Alike

variable {α : Type} {Q : Naming V → α → α → Prop} {step step' : Step α}

lemma failure? (h : step.Alike V earlier Q step') :
    Option.Rel (Failure.Alike V) step.failure? step'.failure? := by
  obtain ⟨result, _, _⟩ := step
  obtain ⟨result', _, _⟩ := step'
  have hresult : AlikeOutcome V Q result result' := h.result
  unfold Step.failure?
  cases hresult with
  | ok => exact .none
  | error he =>
    cases he with
    | failure hf => exact .some hf
    | _ => exact .none

lemma result_catching {β : Type} (h : step.Alike V earlier Q step') (f : α → β) (x : β)
    (hf : ∀ W v v', Q W v v' → f v' = f v) :
    (step'.catching f x .off).result.mapError Abort.message =
      (step.catching f x .off).result.mapError Abort.message := by
  obtain ⟨result, _, _⟩ := step
  obtain ⟨result', _, _⟩ := step'
  have hresult : AlikeOutcome V Q result result' := h.result
  unfold Step.catching
  cases hresult with
  | ok hv => exact congrArg Except.ok (hf _ _ _ hv)
  | error he =>
    cases he with
    | failure => rfl
    | defect hd => exact congrArg Except.error hd.message
    | noRemainder => rfl
    | tooDeep => rfl
    | endless => rfl

end Step.Alike

namespace Session

variable {s s' : Session}

lemma alike_perform {α : Type} {act act' : Eval α} {W : Naming V}
    {Q : Naming V → α → α → Prop} (hprelude : s'.hasPrelude = s.hasPrelude)
    (hlimits : s'.limits = s.limits)
    (h : Ending W earlier Q (act { s.store with output := "" })
      (act' { s'.store with output := "" })) :
    (s.perform act).Alike V earlier Q (s'.perform act') := by
  unfold perform
  generalize act _ = r at h ⊢
  generalize act' _ = r' at h ⊢
  cases h with
  | ok W' _ hs hv => exact ⟨.ok hv, hs.output, ⟨rfl, rfl⟩, hprelude, hlimits, W', earlier, hs⟩
  | error W' _ hs he => exact ⟨.error he, hs.output, ⟨rfl, rfl⟩, hprelude, hlimits, W', earlier, hs⟩

namespace Alike

variable (h : s.Alike V s')

include h

theorem perform {α : Type} {act act' : Eval α} {Q : Naming V → α → α → Prop}
    (hact : ∀ W : Naming V, W.Outermost → Together W "" act act' Q) :
    (s.perform act).Alike V "" Q (s'.perform act') := by
  obtain ⟨W, earlier, hstore⟩ := h.store
  have hsilent : Store.Alike W "" { s.store with output := "" } { s'.store with output := "" } :=
    hstore.congr { s.store with output := "" } { s'.store with output := "" } rfl rfl rfl rfl
      hstore.functions hstore.time rfl
  exact alike_perform h.hasPrelude h.limits (hact W hstore.globals _ _ hsilent)

lemma evaluator : s'.evaluator = s.evaluator := by
  rw [Session.evaluator, Session.evaluator, h.limits]

lemma force {p p' : Program} (hp : AlikeStmts V.resolved V.plain p.body p'.body) :
    (s.force p).Alike V "" (fun W v v' => v.Alike W v') (s'.force p') := by
  refine h.perform fun W hW => ?_
  rw [h.evaluator, evaluator_eq]
  refine (Eval.together_program (Evaluator.uniform_deep V "" _ _) hW hp .nil .nil).mono ?_
  rintro W' v v' - (hv | ⟨rfl, rfl⟩)
  · exact hv
  · exact .nil

lemma loadPrelude (hself : ∀ t : Token, 1 ≤ t.line → V.place t t) :
    s.loadPrelude.Alike V s'.loadPrelude := by
  unfold Session.loadPrelude
  rw [h.hasPrelude]
  split
  · exact (h.force (Program.alike_self hself Prelude.hasError_source)).session
  · exact h

lemma setTime (time : Float) : (s.setTime time).Alike V (s'.setTime time) := by
  obtain ⟨W, earlier, hstore⟩ := h.store
  exact ⟨h.hasPrelude, h.limits, W, earlier,
    hstore.congr { s.store with time } { s'.store with time } rfl rfl rfl rfl hstore.functions rfl
      hstore.output⟩

end Alike

end Session

inductive Request where
  | run (source : String)
  | answer (source : String)
  | dump (source : String)
  | setTime (time : Float)

inductive Seen where
  | nothing
  | code (c : ExitCode)
  -- The text of a value, if there is one.
  | text (t : Option String)

structure Response where
  -- An error that nothing reports is seen by its message.
  result : Except String Seen
  written : Written

namespace Session

def serve (s : Session) : Request → Step Seen
  | .run source => (s.run source).map .code
  | .answer source => (s.answer source).map fun v => .text (v.map Value.text)
  | .dump source => (s.dump source).map .code
  | .setTime time => (s.setTime time).idle .nothing

def responses (s : Session) : List Request → List Response
  | [] => []
  | r :: more =>
    let step := s.serve r
    ⟨step.result.mapError Abort.message, step.written⟩ :: step.session.responses more

end Session

namespace Session

def failing (s : Session) : Request → Option Failure
  | .run source => s.failure? (.compile source)
  | .answer source => s.loadPrelude.failure? (.ofInput source)
  | .dump _ => none
  | .setTime _ => none

def after (s : Session) (rs : List Request) : Session := rs.foldl (fun s r => (s.serve r).session) s

def respond (s : Session) (r : Request) : Response :=
  ⟨(s.serve r).result.mapError Abort.message, (s.serve r).written⟩

end Session

structure Response.Alike (V : Variation) (r r' : Response) : Prop where
  result : r'.result = r.result
  out : r'.written.out = r.written.out
  err : V.Reports r.written.err r'.written.err

structure Step.Responds (V : Variation) (f? f?' : Option Failure) (step step' : Step Seen) :
    Prop where
  result : step'.result.mapError Abort.message = step.result.mapError Abort.message
  out : step'.written.out = step.written.out
  err : ∃ ds, step.written.err = reportLines ds ++ Trace.off.complaint f? ∧
    step'.written.err = reportLines ds ++ Trace.off.complaint f?'
  failure : Option.Rel (Failure.Alike V) f? f?'
  session : step.session.Alike V step'.session

namespace Step

variable {α β : Type} {Q : Naming V → α → α → Prop} {f? f?' : Option Failure}

lemma Responds.response {step step' : Step Seen} (h : step.Responds V f? f?' step') :
    Response.Alike V ⟨step.result.mapError Abort.message, step.written⟩
      ⟨step'.result.mapError Abort.message, step'.written⟩ := by
  obtain ⟨ds, herr, herr'⟩ := h.err
  exact ⟨h.result, h.out, ds, _, _, herr, herr', V.complaint_of_failure h.failure⟩

lemma map_catching {γ : Type} (step : Step α) (f : α → β) (x : β) (g : β → γ) :
    (step.catching f x .off).map g = step.catching (fun v => g (f v)) (g x) .off := by
  obtain ⟨result, _, _⟩ := step
  cases result with
  | ok v => rfl
  | error e => cases e <;> rfl

lemma Alike.responds {step step' : Step α} (h : step.Alike V "" Q step') (f : α → β) (x : β)
    (g : β → Seen) (hf : ∀ W v v', Q W v v' → g (f v') = g (f v)) (ds : List Diagnostic) :
    (((step.catching f x .off).reporting ds).map g).Responds V step.failure? step'.failure?
      (((step'.catching f x .off).reporting ds).map g) := by
  have hresult := h.result_catching (fun v => g (f v)) (g x) hf
  rw [← map_catching, ← map_catching] at hresult
  refine ⟨hresult, ?_, ⟨ds, ?_, ?_⟩, h.failure?, h.session⟩
  · simpa [map, reporting, catching] using h.out
  · simp [map, reporting, catching, h.err.1]
  · simp [map, reporting, catching, h.err.2]

theorem responds_idle {s s' : Session} (h : s.Alike V s') (x : β) (g : β → Seen)
    (ds : List Diagnostic) :
    (((s.idle x).reporting ds).map g).Responds V none none (((s'.idle x).reporting ds).map g) := by
  refine ⟨rfl, rfl, ⟨ds, ?_, ?_⟩, .none, h⟩
  · simp [map, reporting, Session.idle, Trace.complaint]
  · simp [map, reporting, Session.idle, Trace.complaint]

end Step

namespace Session.Alike

variable {s s' : Session} (h : s.Alike V s')

include h

theorem conclude {p p' : Program} {β : Type} (herror : p'.hasError = p.hasError)
    (hbody : p.hasError = false → AlikeStmts V.resolved V.plain p.body p'.body) (f : Value → β)
    (x y : β) (g : β → Seen) (hf : ∀ (W : Naming V) v v', v.Alike W v' → g (f v') = g (f v))
    (ds : List Diagnostic) :
    (((s.conclude p f x y .off).reporting ds).map g).Responds V (s.failure? p) (s'.failure? p')
      (((s'.conclude p' f x y .off).reporting ds).map g) := by
  unfold Session.conclude Session.failure?
  rw [herror]
  cases hp : p.hasError with
  | true => exact Step.responds_idle h x g ds
  | false => exact (h.force (hbody hp)).responds f y g hf ds

variable (hself : ∀ t : Token, 1 ≤ t.line → V.place t t)

include hself

lemma serve (r : Request) :
    (s.serve r).Responds V (s.failing r) (s'.failing r) (s'.serve r) := by
  cases r with
  | run source =>
    unfold Session.serve Session.failing
    dsimp only
    rw [run_eq, run_eq]
    exact h.conclude rfl (Program.alike_self hself) _ _ _ .code (fun _ _ _ _ => rfl) _
  | answer source =>
    unfold Session.serve Session.failing
    dsimp only
    rw [answer_eq, answer_eq]
    refine (h.loadPrelude hself).conclude rfl (Program.alike_ofInput hself) _ _ _ _
      (fun W v v' hv => ?_) _
    have htext : v'.text = v.text := hv.write false _ _
    unfold answered
    cases Grammar.bareExpression? (Scan.ofString source) with
    | some e => simp only [Option.map_some, htext]
    | none => rfl
  | dump source =>
    unfold Session.serve Session.dump
    dsimp only
    split
    · exact Step.responds_idle h _ _ _
    · exact ⟨rfl, rfl, ⟨(Program.compile source).diagnostics, rfl, rfl⟩, .none, h⟩
  | setTime time => exact Step.responds_idle (h.setTime time) Seen.nothing id []

theorem responses (rs : List Request) :
    List.Forall₂ (Response.Alike V) (s.responses rs) (s'.responses rs) := by
  induction rs generalizing s s' with
  | nil => exact .nil
  | cons r rs ih =>
    have hserve := h.serve hself r
    exact .cons hserve.response (ih hserve.session)

lemma after (rs : List Request) : (s.after rs).Alike V (s'.after rs) := by
  induction rs generalizing s s' with
  | nil => exact h
  | cons r rs ih => exact ih (h.serve hself r).session

end Session.Alike

inductive Served : Session → Prop where
  | new (hasPrelude : Bool) (limits : Limits) (time : Float) :
    Served ⟨hasPrelude, limits, .initial time⟩
  | loadPrelude {s : Session} (h : Served s) : Served s.loadPrelude
  | serve {s : Session} (h : Served s) (r : Request) : Served (s.serve r).session

lemma Store.alike_initial (V : Variation) (time : Float) :
    (Store.initial time).Alike (.plain V (· < 1)) "" (.initial time) where
  size := rfl
  parent? _ := rfl
  lookup? id name := by
    change Option.Rel _ _ ((Store.initial time).lookup? id name)
    cases hx : (Store.initial time).lookup? id name with
    | none => exact .none
    | some x =>
      obtain ⟨native, -, rfl⟩ := lookup?_initial hx
      exact .some ⟨.native native, rfl⟩
  sizeFields := rfl
  fields _ _ := .none
  functions := rfl
  time := rfl
  output := rfl
  known _ hid := hid
  chain id parent hp := by cases id <;> cases hp
  globals := ⟨Nat.one_pos, rfl⟩
  room := .inl fun _ hid => hid

theorem Served.alike_self (hself : ∀ t : Token, 1 ≤ t.line → V.place t t) {s : Session}
    (h : Served s) : s.Alike V s := by
  induction h with
  | new hasPrelude limits time => exact ⟨rfl, rfl, _, _, Store.alike_initial V time⟩
  | loadPrelude _ ih => exact ih.loadPrelude hself
  | serve _ r ih => exact (ih.serve hself r).session

end Lox
