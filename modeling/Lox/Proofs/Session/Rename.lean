import Lox.Proofs.Alike.Respell
import Lox.Proofs.Session.Alike
import Lox.Proofs.Session.Reached

/-! Renamed variables: what a program does depends on which declaration each of its names stands
for, and not on how the names of local variables and parameters are spelled. -/

namespace Lox

namespace Session

/-- A local variable or a parameter may be given any name that the program does not use, together
with all its uses: depths, output, value and end of the program stay the same, and what it leaves
behind responds to everything as before. -/
theorem run_rename {s : Session} (hs : Served s) {source name : String} {declared : Token}
    (hsound : (Program.compile source).hasError = false)
    (hlocal : declared ∈ occurrences declared (Program.compile source).body)
    (hname : Segment.Written .identifier name.toList)
    (hunused : ∀ t ∈ (Scan.ofString source).tokens, t.lexeme ≠ name) :
    let V := (Renames.reword hsound hlocal hname hunused).respelling.variation
    let p := Program.compile source
    let source' := Scan.reword source (occurrences declared p.body) name
    let p' := Program.compile source'
    p'.hasError = false ∧ AlikeStmts V.resolved V.plain p.body p'.body ∧
      (s.run source').written.out = (s.run source).written.out ∧
      (s.run source').result.mapError Abort.message =
        (s.run source).result.mapError Abort.message ∧
      (∀ v, (s.force p).result = .ok v → ∃ (W : Naming V) (v' : Value),
        (s.force p').result = .ok v' ∧ v.Alike W v' ∧ v'.text = v.text) ∧
      (∃ unread unread' c c',
        List.Forall₂ (Token.Respelled (occurrences declared p.body) name) unread unread' ∧
        p.diagnostics = unread.map (fun t => .atToken t (.unusedLocal t.lexeme)) ∧
        p'.diagnostics = unread'.map (fun t => .atToken t (.unusedLocal t.lexeme)) ∧
        (s.run source).written.err = reportLines p.diagnostics ++ c ∧
        (s.run source').written.err = reportLines p'.diagnostics ++ c' ∧ V.Complaint c c') ∧
      ∀ requests, List.Forall₂ (Response.Alike V) ((s.run source).session.responses requests)
        ((s.run source').session.responses requests) := by
  intro V p source' p'
  obtain ⟨hsound', halike, unread, unread', hunread, hwarnings, hwarnings'⟩ :=
    (Renames.reword hsound hlocal hname hunused).compile
  have hself : ∀ t : Token, 1 ≤ t.line → V.place t t := fun _ _ => rfl
  have hforce : (s.force p).Alike V "" (fun W v v' => v.Alike W v') (s.force p') :=
    (hs.alike_self hself).force halike
  have hrun : s.run source =
      ((s.force p).catching (fun _ => .success) .failed .off).reporting p.diagnostics :=
    run_of_sound s hsound .off
  have hrun' : s.run source' =
      ((s.force p').catching (fun _ => .success) .failed .off).reporting p'.diagnostics :=
    run_of_sound s hsound' .off
  rw [hrun, hrun']
  refine ⟨hsound', halike, ?_, ?_, fun v hv => ?_, ?_, ?_⟩
  · exact hforce.out.trans (String.empty_append)
  · exact hforce.result_catching (fun _ => ExitCode.success) .failed fun _ _ _ _ => rfl
  · have hresult := hforce.result
    rw [hv] at hresult
    generalize (s.force p').result = r' at hresult ⊢
    cases hresult with
    | @ok W _ v' hvalue => exact ⟨W, v', rfl, hvalue, hvalue.write false _ _⟩
  · refine ⟨unread, unread', _, _, hunread, hwarnings, hwarnings', ?_, ?_,
      V.complaint_of_failure hforce.failure?⟩
    · simp [Step.reporting, Step.catching, hforce.err.1]
    · simp [Step.reporting, Step.catching, hforce.err.2]
  · exact hforce.session.responses hself

theorem run_rename_parameter :
    let s : Session := ⟨false, .standard, .initial 0⟩
    let source := "fun outer(a) \x7b\n  fun show() \x7b print a; \x7d\n  \x7b var a = 2; print a; \x7d\n" ++
      "  a = 3;\n  show();\n  print b;\n\x7d\nouter(1);"
    let source' := "fun outer(level) \x7b\n  fun show() \x7b print level; \x7d\n" ++
      "  \x7b var a = 2; print a; \x7d\n  level = 3;\n  show();\n  print b;\n\x7d\nouter(1);"
    let named := occurrences ⟨.identifier, "a", 1, 11⟩ (Program.compile source).body
    Served s ∧ (Program.compile source).hasError = false ∧
      named = [⟨.identifier, "a", 1, 11⟩, ⟨.identifier, "a", 2, 22⟩, ⟨.identifier, "a", 4, 3⟩] ∧
      Segment.Written .identifier "level".toList ∧
      (∀ t ∈ (Scan.ofString source).tokens, t.lexeme ≠ "level") ∧
      Scan.reword source named "level" = source' ∧
      (s.run source').written.out = (s.run source).written.out := by
  intro s source source' named
  have hs : Served s := .new false .standard 0
  have hsound : (Program.compile source).hasError = false := by decide +kernel
  have hnamed : named = [⟨.identifier, "a", 1, 11⟩, ⟨.identifier, "a", 2, 22⟩,
      ⟨.identifier, "a", 4, 3⟩] := by decide +kernel
  have hlocal : ⟨.identifier, "a", 1, 11⟩ ∈ named := by
    rw [hnamed]
    exact List.mem_cons_self
  have hname : Segment.Written .identifier "level".toList := by
    have htext : "level".toList = ['l', 'e', 'v', 'e', 'l'] := by decide
    rw [htext]
    exact .name (by decide +kernel) (List.all_eq_true.mp (by decide +kernel)) (by decide +kernel)
  have hunused : ∀ t ∈ (Scan.ofString source).tokens, t.lexeme ≠ "level" := by decide +kernel
  have hreword : Scan.reword source named "level" = source' := by
    rw [hnamed]
    decide +kernel
  refine ⟨hs, hsound, hnamed, hname, hunused, hreword, ?_⟩
  rw [← hreword]
  exact (run_rename hs hsound hlocal hname hunused).2.2.1

end Session

end Lox
