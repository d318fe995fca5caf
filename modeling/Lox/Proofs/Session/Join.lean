import Lox.Proofs.Alike.Mark
import Lox.Proofs.Eval.Parts
import Lox.Proofs.Session.Alike

/-! Sources run one after another: a session does the same with two sources as with the text that
puts the second behind the first. -/

namespace Lox

lemma Eval.program_append (E : Evaluator) (v : Value) (body body' : List Stmt) :
    program E v (body ++ body') = program E v body >>= fun u => program E u body' := by
  induction body generalizing v with
  | nil => rfl
  | cons s body ih =>
    rcases program_cons s with ⟨line, value, rfl⟩ | hs
    · change (expression E value >>= fun u => program E u (body ++ body')) =
        (expression E value >>= fun u => program E u body) >>= fun u => program E u body'
      rw [bind_assoc]
      exact congrArg _ (funext ih)
    · rw [List.cons_append, hs, hs, bind_assoc]
      refine congrArg _ (funext fun o => ?_)
      cases o with
      | normal => exact ih v
      | returned u => rfl
      | broke => rfl

structure Response.Settled (n : Nat) (f? : Option Failure) (r r' : Response) : Prop where
  result : r'.result = r.result
  out : r'.written.out = r.written.out
  err : ∃ ds,
    r.written.err = reportLines ds ++ Trace.off.complaint (f?.map (Failure.settle 0)) ∧
    r'.written.err = reportLines ds ++ Trace.off.complaint (f?.map (Failure.settle n))

lemma Failure.Alike.complaint {n : Nat} {f? f?' : Option Failure}
    (h : Option.Rel (Failure.Alike (.settled n)) f? f?') :
    Trace.off.complaint f?' = Trace.off.complaint (f?.map (Failure.settle n)) := by
  cases h with
  | none => rfl
  | some hf => exact congrArg (· ++ "\n" ++ "") hf.report

lemma Step.Responds.settled {n : Nat} {f? f₁ f₂ : Option Failure} {step step₁ step₂ : Step Seen}
    (h₁ : step.Responds (.settled 0) f? f₁ step₁) (h₂ : step.Responds (.settled n) f? f₂ step₂) :
    Response.Settled n f? ⟨step₁.result.mapError Abort.message, step₁.written⟩
      ⟨step₂.result.mapError Abort.message, step₂.written⟩ := by
  obtain ⟨ds, herr, herr₁⟩ := h₁.err
  obtain ⟨es, herr', herr₂⟩ := h₂.err
  rw [Failure.Alike.complaint h₁.failure] at herr₁
  rw [Failure.Alike.complaint h₂.failure] at herr₂
  have hsame : reportLines ds = reportLines es := by
    have hends := congrArg String.toList (herr.symm.trans herr')
    rw [String.toList_append, String.toList_append] at hends
    exact String.toList_injective (List.append_cancel_right hends)
  exact ⟨h₂.result.trans h₁.result.symm, h₂.out.trans h₁.out.symm, ds, herr₁, hsame ▸ herr₂⟩

namespace Session

variable {s : Session} {a b : String}

lemma force_of_success (h : (s.run a).result = .ok .success) :
    ∃ v t, Eval.program s.evaluator .nil (Program.compile a).body { s.store with output := "" } =
        .ok v t ∧ (s.run a).session = { s with store := t } ∧ (s.run a).written.out = t.output ∧
      (s.run a).written.err = reportLines (Program.compile a).diagnostics := by
  cases hsound : (Program.compile a).hasError with
  | true =>
    rw [run_eq, conclude, if_pos hsound] at h
    cases h
  | false =>
    rw [run_of_sound s hsound] at h ⊢
    unfold force perform at h ⊢
    cases hact : Eval.program s.evaluator .nil (Program.compile a).body
        { s.store with output := "" } with
    | ok v t =>
      refine ⟨v, t, rfl, rfl, rfl, ?_⟩
      simp [Step.reporting, Step.catching, Step.failure?, Trace.complaint]
    | error e t =>
      rw [hact] at h
      cases e <;> cases h

/-- Runs a source and then another one with marks, in the session that the first has left. -/
def runMarked (s : Session) (a b : String) : Step Value :=
  (s.run a).session.force (Program.compile b).mark

/-- Running a source after another one, and running the text that puts it behind that. In messages
the tokens of the second source, which a run with marks tells from all others, are further down. -/
structure Joins (s : Session) (a b : String) : Prop where
  sound : (Program.compile (a ++ "\n" ++ b)).hasError = false
  out : (s.run (a ++ "\n" ++ b)).written.out =
    (s.run a).written.out ++ ((s.run a).session.run b).written.out
  result : (s.run (a ++ "\n" ++ b)).result.mapError Abort.message =
    ((s.run a).session.run b).result.mapError Abort.message
  errFirst : (s.run a).written.err = reportLines (Program.compile a).diagnostics
  errSecond : ((s.run a).session.run b).written.err =
    reportLines (Program.compile b).diagnostics ++
      Trace.off.complaint ((s.runMarked a b).failure?.map (Failure.settle 0))
  err : (s.run (a ++ "\n" ++ b)).written.err =
    reportLines (Program.compile a).diagnostics ++
      reportLines ((Program.compile b).diagnostics.map (Diagnostic.down (Scan.lines a.toList))) ++
      Trace.off.complaint ((s.runMarked a b).failure?.map (Failure.settle (Scan.lines a.toList)))
  later : ∀ (requests : List Request) (r : Request),
    Response.Settled (Scan.lines a.toList)
      (((s.runMarked a b).session.after requests).failing r)
      ((((s.run a).session.run b).session.after requests).respond r)
      (((s.run (a ++ "\n" ++ b)).session.after requests).respond r)

lemma settled_self (n : Nat) (t : Token) (h : 1 ≤ t.line) : (Variation.settled n).place t t := by
  change t.line = (t.settle n).line
  rw [Token.settle_of_line h]

lemma alike_runMarked (hs : Served s) (hb : (Program.compile b).hasError = false) :
    (s.runMarked a b).Alike (.settled 0) "" (fun W v v' => v.Alike W v')
      ((s.run a).session.force (.compile b)) := by
  have hfirst : Served (s.run a).session := hs.serve (.run a)
  have hbody : AlikeStmts (Variation.shift 0).resolved (Variation.plain _) (Program.compile b).body
      (Program.compile b).body := Program.alike_self (fun _ _ => rfl) hb
  exact (hfirst.alike_self (settled_self 0)).force (Program.alike_mark hbody)

lemma alike_runMarked_join (hs : Served s) (ha : (Program.compile a).hasError = false)
    (hb : (Program.compile b).hasError = false) (h : (s.run a).result = .ok .success) :
    (s.runMarked a b).Alike (.settled (Scan.lines a.toList)) (s.run a).written.out
      (fun _ _ _ => True) (s.force (.compile (a ++ "\n" ++ b))) := by
  obtain ⟨⟨body, halike, hbody⟩, -⟩ := Program.compile_join ha hb
  obtain ⟨v, t, hact, hsession, hout, -⟩ := force_of_success h
  have hfirst : Served (s.run a).session := hs.serve (.run a)
  -- What the first source has printed is already there when the second one runs behind it.
  obtain ⟨W, earlier, hstore⟩ := (hfirst.alike_self (settled_self (Scan.lines a.toList))).store
  rw [hsession] at hstore
  have hstart : Store.Alike W t.output { t with output := "" } t :=
    hstore.congr { t with output := "" } t rfl rfl rfl rfl rfl rfl String.append_empty.symm
  have htogether : Together W t.output
      (Eval.program s.evaluator .nil (Program.compile b).mark.body)
      (Eval.program s.evaluator v body) fun _ _ _ => True := by
    rw [evaluator_eq]
    exact (Eval.together_program (Evaluator.uniform_deep _ _ _ _) hstart.globals
      (Program.alike_mark halike) .nil v).mono fun _ _ _ _ _ => trivial
  have hprogram : (Eval.program s.evaluator .nil (Program.compile a).body >>=
      fun u => Eval.program s.evaluator u body) { s.store with output := "" } =
        Eval.program s.evaluator v body t := by
    change EStateM.bind _ _ _ = _
    unfold EStateM.bind
    rw [hact]
  rw [runMarked, hsession, hout]
  refine alike_perform (W := W) rfl rfl ?_
  rw [hbody, Eval.program_append, hprogram]
  exact htogether _ _ hstart

/-- Where a source ends well, running another one after it is, but for the lines of the second in
messages, like running the text that consists of both. -/
theorem run_join (hs : Served s) (ha : (Program.compile a).hasError = false)
    (hb : (Program.compile b).hasError = false) (h : (s.run a).result = .ok .success) :
    s.Joins a b := by
  have hwhole := Program.hasError_join ha hb
  obtain ⟨-, hdiagnostics⟩ := Program.compile_join ha hb
  obtain ⟨v, t, -, -, -, herr⟩ := force_of_success h
  have hsplit := alike_runMarked (a := a) hs hb
  have hjoin := alike_runMarked_join hs ha hb h
  have hsecond : (s.run a).session.run b = _ := run_of_sound (s.run a).session hb .off
  have hall : s.run (a ++ "\n" ++ b) = _ := run_of_sound s hwhole .off
  constructor
  · exact hwhole
  · rw [hsecond, hall]
    exact hjoin.out.trans (congrArg ((s.run a).written.out ++ ·)
      (hsplit.out.trans String.empty_append).symm)
  · rw [hsecond, hall]
    have hends := hjoin.result_catching (fun _ => ExitCode.success) .failed fun _ _ _ _ => rfl
    exact hends.trans
      (hsplit.result_catching (fun _ => ExitCode.success) .failed fun _ _ _ _ => rfl).symm
  · exact herr
  · rw [hsecond, ← Failure.Alike.complaint hsplit.failure?]
    simp [Step.reporting, Step.catching, hsplit.err.2]
  · rw [hall, ← Failure.Alike.complaint hjoin.failure?]
    simp only [Step.reporting, Step.catching, hjoin.err.2, hdiagnostics, reportLines_append,
      String.empty_append]
  · intro requests r
    have hleft := hsplit.session.after (settled_self 0) requests
    have hright := hjoin.session.after (settled_self _) requests
    rw [hsecond, hall]
    exact (hleft.serve (settled_self 0) r).settled (hright.serve (settled_self _) r)

theorem run_join_call :
    let s : Session := ⟨false, .standard, .initial 0⟩
    let a := "fun twice(x) \x7b return x + x; \x7d\nprint twice(1);"
    let b := "fun lost() \x7b return nothing; \x7d\nprint twice(2);\nprint lost();"
    let second := (s.run a).session.run b
    let whole := s.run (a ++ "\n" ++ b)
    Served s ∧ (Program.compile a).hasError = false ∧ (Program.compile b).hasError = false ∧
      (s.run a).result = .ok .success ∧ s.Joins a b ∧
      second.written.err = "Undefined variable 'nothing'.\n[line 1]\n" ∧
      whole.written.err = "Undefined variable 'nothing'.\n[line 3]\n" := by
  intro s a b second whole
  have hs : Served s := .new false .standard 0
  have ha : (Program.compile a).hasError = false := by decide +kernel
  have hb : (Program.compile b).hasError = false := by decide +kernel
  have h : (s.run a).result = .ok .success := by
    have hends : (match (s.run a).result with | .ok .success => true | _ => false) = true := by
      decide +kernel
    revert hends
    cases (s.run a).result with
    | error e => exact fun hends => nomatch hends
    | ok code => cases code <;> simp
  have hjoin := run_join hs ha hb h
  have hfailure : (s.runMarked a b).failure? =
      some ⟨.undefinedVariable "nothing", some ⟨.identifier, "nothing", 0, 1⟩⟩ := by
    decide +kernel
  refine ⟨hs, ha, hb, h, hjoin, ?_, ?_⟩
  · rw [show second.written.err = _ from hjoin.errSecond, hfailure]
    decide +kernel
  · rw [show whole.written.err = _ from hjoin.err, hfailure]
    decide +kernel

end Session

end Lox
