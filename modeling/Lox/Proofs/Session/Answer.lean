import Lox.Proofs.Grammar.Single
import Lox.Proofs.Token.Join
import Lox.Session

/-! Answers to inputs: an input that is an expression is evaluated as it is when it is run as a
program, and any other input is run. -/

namespace Lox

lemma Scan.ofChars_semicolon :
    (ofChars [';']).tokens = [⟨.semicolon, ";", 1, 1⟩] ∧ (ofChars [';']).diagnostics = [] := by
  have hcut : Segment.cut [';'] = [⟨.token .semicolon, [';']⟩] := by
    have hextent : Segment.extent ';' [] = (.token .semicolon, 0) := by decide +kernel
    rw [Segment.cut_cons, hextent]
    simp
  simp [ofChars, hcut, Segment.place, Segment.token?, Segment.diagnostic?, Position.start]

namespace Grammar

variable {source : String} {e : Expr}

theorem program_of_bareExpression (h : bareExpression? (Scan.ofString source) = some e) :
    (Scan.ofString (source ++ "\n;")).diagnostics = [] ∧
      ∃ line, program (Scan.ofString (source ++ "\n;")) = ([.expression line e], []) := by
  obtain ⟨hdiagnostics, hspells⟩ := (bareExpression?_eq_some_iff rfl).mp h
  have hjoin : (source ++ "\n;").toList = source.toList ++ '\n' :: [';'] := by
    rw [String.toList_append]
    rfl
  let semicolon : Token := Token.down (Scan.lines source.toList) ⟨.semicolon, ";", 1, 1⟩
  have htokens : (Scan.ofString (source ++ "\n;")).tokens =
      (Scan.ofString source).tokens ++ [semicolon] := by
    rw [Scan.ofString, hjoin, Scan.tokens_join hdiagnostics, Scan.ofChars_semicolon.1]
    rfl
  refine ⟨?_, ?_⟩
  · rw [Scan.ofString, hjoin, Scan.diagnostics_join hdiagnostics, Scan.ofChars_semicolon.2]
    rfl
  · obtain ⟨first, more, hfirst⟩ := List.exists_cons_of_ne_nil (hspells.ne_nil Nat.one_pos)
    rw [hfirst] at hspells
    refine ⟨first.line, program_of_spells rfl ?_⟩
    have hsemicolon : semicolon.kind = .semicolon := rfl
    have hstmt := Spells.expressionStatement hsemicolon hspells
    have hbody := Spells.declarations (b := false) (.statement (.expression hstmt)) .noDeclarations
    rw [htokens, hfirst]
    simpa using hbody

end Grammar

def Diagnostic.AreWarnings (ds : List Diagnostic) : Prop :=
  ∀ d ∈ ds, ∃ name, d.problem = .unusedLocal name

lemma Diagnostic.hasError_append_warnings {ds warnings : List Diagnostic}
    (h : AreWarnings warnings) : hasError (ds ++ warnings) = hasError ds := by
  have hnone : hasError warnings = false := by
    refine List.any_eq_false.mpr fun d hd => ?_
    obtain ⟨name, hname⟩ := h d hd
    simp [isError, severity, hname, Problem.severity]
  rw [hasError, List.any_append]
  change (hasError ds || hasError warnings) = _
  rw [hnone, Bool.or_false]

lemma Scopes.exists_warnings (σ : Scopes) :
    ∃ warnings, σ.reportUnused.reports = σ.reports ++ warnings ∧
      Diagnostic.AreWarnings warnings := by
  refine ⟨_, rfl, fun d hd => ?_⟩
  obtain ⟨t, -, rfl⟩ := List.mem_map.mp hd
  exact ⟨t.lexeme, rfl⟩

theorem Program.ofSource_of_bareExpression {source : String} {e : Expr}
    (h : Grammar.bareExpression? (Scan.ofString source) = some e) :
    ∃ line, ofSource (source ++ "\n;") = ⟨[.expression line e], []⟩ := by
  obtain ⟨hdiagnostics, line, hprogram⟩ := Grammar.program_of_bareExpression h
  refine ⟨line, ?_⟩
  rw [ofSource, ofScan, hprogram, hdiagnostics]
  rfl

def Program.ofExpression (e : Expr) : Program :=
  let (e, reports) := Resolver.expression e
  ⟨[.expression e.firstToken.line e], reports⟩

def Program.ofInput (source : String) : Program :=
  match Grammar.bareExpression? (Scan.ofString source) with
  | some e => ofExpression e
  | none => compile source

theorem Program.compile_of_bareExpression {source : String} {e : Expr}
    (h : Grammar.bareExpression? (Scan.ofString source) = some e) :
    ∃ line warnings, Diagnostic.AreWarnings warnings ∧
      compile (source ++ "\n;") =
        ⟨[.expression line (Resolver.expression e).1], (Resolver.expression e).2 ++ warnings⟩ := by
  obtain ⟨line, hsource⟩ := ofSource_of_bareExpression h
  obtain ⟨warnings, hreports, hwarnings⟩ :=
    Scopes.exists_warnings (Resolver.resolveExpr Resolver.outermost e .start).2
  refine ⟨line, warnings, hwarnings, ?_⟩
  have hresolve : Resolver.program [.expression line e] =
      ([.expression line (Resolver.expression e).1], (Resolver.expression e).2 ++ warnings) :=
    Prod.ext rfl hreports
  rw [compile, hsource, resolveIfSound, if_neg (by simp [hasError, Diagnostic.hasError]), resolve,
    hresolve]
  rfl

def Trace.complaint (trace : Trace) : Option Failure → String
  | some f => f.report ++ "\n" ++ trace f
  | none => ""

namespace Step

variable {α β : Type}

def failure? (step : Step α) : Option Failure :=
  match step.result with
  | .error (.failure f) => some f
  | _ => none

def catching (f : α → β) (x : β) (trace : Trace) (step : Step α) : Step β where
  result :=
    match step.result with
    | .ok v => .ok (f v)
    | .error (.failure _) => .ok x
    | .error a => .error a
  written := ⟨step.written.out, step.written.err ++ trace.complaint step.failure?⟩
  session := step.session

lemma catchFailure_map (f : α → β) (x : β) (trace : Trace) (step : Step α) :
    (step.map f).catchFailure x trace = step.catching f x trace := by
  obtain ⟨result, ⟨out, err⟩, session⟩ := step
  cases result with
  | ok v => simp [catchFailure, map, catching, failure?, Trace.complaint, Except.map]
  | error a =>
    cases a <;>
      simp [catchFailure, map, catching, failure?, Trace.complaint, Except.map,
        String.append_assoc]

end Step

namespace Session

variable {s : Session} {source : String} {e : Expr} {trace trace' : Trace}

theorem force_expression (s : Session) (line : Nat) (e : Expr) (ds : List Diagnostic) :
    s.force ⟨[.expression line e], ds⟩ = s.perform (Eval.expression s.evaluator e) := by
  have hprogram : Eval.program s.evaluator .nil [.expression line e] =
      Eval.expression s.evaluator e := by
    change EStateM.bind _ pure = _
    funext store
    unfold EStateM.bind
    split <;> simp_all [pure, EStateM.pure]
  rw [force, hprogram]

lemma err_force (s : Session) (p : Program) : (s.force p).written.err = "" := by
  unfold force perform
  split <;> rfl

def failure? (s : Session) (p : Program) : Option Failure :=
  if p.hasError then none else (s.force p).failure?

def conclude {β : Type} (s : Session) (p : Program) (f : Value → β) (rejected failed : β)
    (trace : Trace) : Step β :=
  if p.hasError then s.idle rejected else (s.force p).catching f failed trace

lemma run_eq (s : Session) (source : String) (trace : Trace) :
    s.run source trace =
      (s.conclude (.compile source) (fun _ => .success) .rejected .failed trace).reporting
        (Program.compile source).diagnostics := by
  cases h : (Program.compile source).hasError with
  | true => simp only [run, execute?, conclude, h, if_true]
  | false =>
    simp only [run, execute?, conclude, h, Bool.false_eq_true, if_false, Step.catchFailure_map]

lemma run_of_sound (s : Session) (h : (Program.compile source).hasError = false)
    (trace : Trace) :
    s.run source trace =
      ((s.force (.compile source)).catching (fun _ => .success) .failed trace).reporting
        (Program.compile source).diagnostics := by
  simp only [run_eq, conclude, h, Bool.false_eq_true, if_false]

lemma err_conclude {β : Type} (s : Session) (p : Program) (f : Value → β)
    (rejected failed : β) (trace : Trace) :
    (s.conclude p f rejected failed trace).written.err = trace.complaint (s.failure? p) := by
  unfold conclude failure?
  split
  · rfl
  · simp [Step.catching, err_force]

lemma session_conclude {β : Type} (s : Session) (p : Program) (f : Value → β)
    (rejected failed : β) (trace : Trace) :
    (s.conclude p f rejected failed trace).session =
      if p.hasError then s else (s.force p).session := by
  unfold conclude
  split <;> rfl

lemma out_conclude {β : Type} (s : Session) (p : Program) (f : Value → β)
    (rejected failed : β) (trace : Trace) :
    (s.conclude p f rejected failed trace).written.out =
      if p.hasError then "" else (s.force p).written.out := by
  unfold conclude
  split <;> rfl

lemma perform_keeps {α : Type} (s : Session) (act : Eval α) :
    (s.perform act).session.hasPrelude = s.hasPrelude ∧
      (s.perform act).session.limits = s.limits := by
  unfold perform
  generalize act { s.store with output := "" } = r
  cases r <;> exact ⟨rfl, rfl⟩

lemma loadPrelude_keeps (s : Session) :
    s.loadPrelude.hasPrelude = s.hasPrelude ∧ s.loadPrelude.limits = s.limits := by
  unfold loadPrelude
  split
  · exact s.perform_keeps _
  · exact ⟨rfl, rfl⟩

lemma conclude_keeps {β : Type} (s : Session) (p : Program) (f : Value → β)
    (rejected failed : β) (trace : Trace) :
    (s.conclude p f rejected failed trace).session.hasPrelude = s.hasPrelude := by
  rw [session_conclude]
  split
  · rfl
  · exact (s.perform_keeps _).1

lemma run_keeps (s : Session) (source : String) (trace : Trace) :
    (s.run source trace).session.hasPrelude = s.hasPrelude := by
  rw [run_eq]
  exact s.conclude_keeps _ _ _ _ trace

theorem abort_conclude {β γ : Type} (s : Session) (p : Program) (f : Value → β) (g : Value → γ)
    (x y : β) (x' y' : γ) (trace trace' : Trace) (a : Abort) :
    (s.conclude p f x y trace).result = .error a ↔
      (s.conclude p g x' y' trace').result = .error a := by
  unfold conclude
  split
  · exact iff_of_false (fun h => nomatch h) fun h => nomatch h
  · unfold Step.catching
    rcases (s.force p).result with b | v
    · cases b <;> simp
    · simp

theorem evaluate_eq (s : Session) (e : Expr) (trace : Trace) :
    s.evaluate e trace = (s.conclude (.ofExpression e) some none none trace).reporting
      (Program.ofExpression e).diagnostics := by
  rw [conclude, Program.ofExpression, force_expression, evaluate]
  cases herror : Diagnostic.hasError (Resolver.expression e).2 with
  | true => simp only [Program.hasError, herror, if_true]
  | false =>
    simp only [Program.hasError, herror, Bool.false_eq_true, if_false, Step.catchFailure_map]

theorem interpret_eq (s : Session) (p : Program) (trace : Trace) :
    s.interpret p.body p.diagnostics trace =
      (s.conclude p.resolveIfSound (fun _ => none) none none trace).reporting
        p.resolveIfSound.diagnostics := by
  cases h : p.hasError with
  | true =>
    rw [Program.resolveIfSound, if_pos h, conclude, if_pos h, interpret]
    exact if_pos h
  | false =>
    have hresolved : p.resolveIfSound = p.resolve := by
      rw [Program.resolveIfSound, h, if_neg Bool.false_ne_true]
    rw [hresolved, conclude, interpret]
    change (if p.hasError then _ else _) = _
    rw [h, if_neg Bool.false_ne_true]
    change (if p.resolve.hasError then _ else _) = _
    split
    · rfl
    · rw [Step.catchFailure_map]
      rfl

lemma answer_of_expression (h : Grammar.bareExpression? (Scan.ofString source) = some e) :
    s.answer source trace = s.loadPrelude.evaluate e trace := by
  simp only [answer, h]

lemma answer_of_statements (h : Grammar.bareExpression? (Scan.ofString source) = none) :
    s.answer source trace =
      (s.loadPrelude.conclude (.compile source) (fun _ => none) none none trace).reporting
        (Program.compile source).diagnostics := by
  rw [Program.compile, ← interpret_eq]
  simp only [answer, h]
  rfl

def answered (source : String) (v : Value) : Option Value :=
  (Grammar.bareExpression? (Scan.ofString source)).map fun _ => v

theorem answer_eq (s : Session) (source : String) (trace : Trace) :
    s.answer source trace =
      (s.loadPrelude.conclude (.ofInput source) (answered source) none none trace).reporting
        (Program.ofInput source).diagnostics := by
  unfold Program.ofInput answered
  cases h : Grammar.bareExpression? (Scan.ofString source) with
  | some e => exact (answer_of_expression h).trans (evaluate_eq _ e trace)
  | none => exact answer_of_statements h

lemma answer_keeps (s : Session) (source : String) (trace : Trace) :
    (s.answer source trace).session.hasPrelude = s.hasPrelude := by
  rw [answer_eq]
  exact (s.loadPrelude.conclude_keeps _ _ _ _ trace).trans s.loadPrelude_keeps.1

/-- An input that is an expression does what it does as a program, but for the warnings, and has the
value of that program. -/
structure AnswersProgram (s : Session) (source : String) (trace trace' : Trace) : Prop where
  session : (s.answer source trace).session = (s.run (source ++ "\n;") trace').session
  out : (s.answer source trace).written.out = (s.run (source ++ "\n;") trace').written.out
  err : let p := Program.compile (source ++ "\n;")
    ∃ reports warnings, p.diagnostics = reports ++ warnings ∧ Diagnostic.AreWarnings warnings ∧
      (s.answer source trace).written.err =
        reportLines reports ++ trace.complaint (s.failure? p) ∧
      (s.run (source ++ "\n;") trace').written.err =
        reportLines (reports ++ warnings) ++ trace'.complaint (s.failure? p)
  value : (s.run (source ++ "\n;") trace').result = .ok .success →
    ∃ v, (s.force (.compile (source ++ "\n;"))).result = .ok v ∧
      (s.answer source trace).result = .ok (some v)
  none : (s.answer source trace).result = .ok none ↔
    (s.run (source ++ "\n;") trace').result = .ok .rejected ∨
      (s.run (source ++ "\n;") trace').result = .ok .failed
  abort : ∀ a, (s.answer source trace).result = .error a ↔
    (s.run (source ++ "\n;") trace').result = .error a

/-- Any other input does what it does when it is run. Each report on it is given once. -/
structure AnswersRun (s : Session) (source : String) (trace trace' : Trace) : Prop where
  session : (s.answer source trace).session = (s.run source trace').session
  out : (s.answer source trace).written.out = (s.run source trace').written.out
  err : let p := Program.compile source
    (s.answer source trace).written.err =
        reportLines p.diagnostics ++ trace.complaint (s.failure? p) ∧
      (s.run source trace').written.err =
        reportLines p.diagnostics ++ trace'.complaint (s.failure? p)
  none : ∀ code, (s.run source trace').result = .ok code →
    (s.answer source trace).result = .ok none
  abort : ∀ a, (s.answer source trace).result = .error a ↔
    (s.run source trace').result = .error a

theorem concludes_expression {line : Nat} {warnings : List Diagnostic} {p : Program}
    (hwarnings : Diagnostic.AreWarnings warnings)
    (hp : p = ⟨[.expression line (Resolver.expression e).1],
      (Resolver.expression e).2 ++ warnings⟩) (s : Session) :
    (Program.ofExpression e).hasError = p.hasError ∧ s.force (.ofExpression e) = s.force p := by
  subst hp
  refine ⟨(Diagnostic.hasError_append_warnings hwarnings).symm, ?_⟩
  rw [Program.ofExpression, force_expression, force_expression]

lemma answersProgram (hload : s.loadPrelude = s)
    (h : Grammar.bareExpression? (Scan.ofString source) = some e) (trace trace' : Trace) :
    s.AnswersProgram source trace trace' := by
  obtain ⟨line, warnings, hwarnings, hp⟩ := Program.compile_of_bareExpression h
  obtain ⟨herror, hforce⟩ := concludes_expression hwarnings hp s
  have hanswer : s.answer source trace = _ := answer_of_expression h
  have hrun : s.run (source ++ "\n;") trace' = _ := run_eq s (source ++ "\n;") trace'
  rw [hload, evaluate_eq, conclude, herror, hforce, ← conclude] at hanswer
  generalize hcompile : Program.compile (source ++ "\n;") = p at hp hanswer hrun
  constructor
  · rw [hanswer, hrun]
    exact (session_conclude ..).trans (session_conclude ..).symm
  · rw [hanswer, hrun]
    exact (out_conclude ..).trans (out_conclude ..).symm
  · refine ⟨(Resolver.expression e).2, warnings, ?_, hwarnings, ?_, ?_⟩
    · rw [hcompile, hp]
    · rw [hanswer, hcompile, Step.reporting, err_conclude, Program.ofExpression]
    · rw [hrun, hcompile, Step.reporting, err_conclude, hp]
  · rw [hanswer, hrun, hcompile]
    simp only [Step.reporting, conclude]
    split
    · exact fun hrejected => nomatch hrejected
    · intro hsuccess
      unfold Step.catching at hsuccess ⊢
      cases hforce : (s.force p).result with
      | ok v => exact ⟨v, rfl, rfl⟩
      | error a =>
        rw [hforce] at hsuccess
        cases a <;> cases hsuccess
  · rw [hanswer, hrun]
    simp only [Step.reporting, conclude]
    split
    · exact iff_of_true rfl (.inl rfl)
    · unfold Step.catching
      rcases (s.force p).result with a | v
      · cases a <;> simp
      · simp
  · intro a
    rw [hanswer, hrun]
    exact abort_conclude ..

lemma answersRun (hload : s.loadPrelude = s)
    (h : Grammar.bareExpression? (Scan.ofString source) = none) (trace trace' : Trace) :
    s.AnswersRun source trace trace' := by
  have hanswer : s.answer source trace = _ := answer_of_statements h
  rw [hload] at hanswer
  have hrun : s.run source trace' = _ := run_eq s source trace'
  constructor
  · rw [hanswer, hrun]
    exact (session_conclude ..).trans (session_conclude ..).symm
  · rw [hanswer, hrun]
    exact (out_conclude ..).trans (out_conclude ..).symm
  · rw [hanswer, hrun]
    simp only [Step.reporting, err_conclude, and_self]
  · intro code hcode
    rw [hrun] at hcode
    rw [hanswer]
    simp only [Step.reporting, conclude] at hcode ⊢
    split at hcode
    · next herror => rw [if_pos herror, idle]
    · next herror =>
      rw [if_neg herror]
      unfold Step.catching at hcode ⊢
      rcases hforce : (s.force (.compile source)).result with a | v
      · rw [hforce] at hcode
        cases a <;> first | rfl | cases hcode
      · rfl
  · intro a
    rw [hanswer, hrun]
    exact abort_conclude ..

end Session

end Lox
