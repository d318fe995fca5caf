import Lox.Proofs.Session.Reached

/-! Completions: a `break` ends in its loop, a `return` in its function, and nothing is evaluated
that a program without errors does not contain. -/

namespace Lox

namespace Evaluator

variable {E : Evaluator} {frame : FrameId} {s s' : Store}

lemma loop_ne_broke {c : Eval Bool} {b : Eval Completion} {turns : Nat} :
    loop c b turns s ≠ .ok .broke s' := by
  induction turns generalizing s with
  | zero => exact fun h => nomatch h
  | succ turns ih =>
    intro h
    obtain ⟨goesOn, s₁, -, h⟩ := Eval.bind_ok h
    split at h
    · obtain ⟨outcome, s₂, -, h⟩ := Eval.bind_ok h
      cases outcome with
      | normal => exact ih h
      | broke => cases Eval.pure_ok h
      | returned v => cases Eval.pure_ok h
    · cases Eval.pure_ok h

structure Bounds (E : Evaluator) : Prop where
  exec {frame : FrameId} {st : Stmt} {s s' : Store} (h : E.exec frame st s = .ok .broke s') :
    st.breaks = true

lemma Bounds.execAll (hE : E.Bounds) {body : List Stmt}
    (h : E.execAll frame body s = .ok .broke s') : anyBreaks body = true := by
  induction body generalizing s with
  | nil => cases Eval.pure_ok h
  | cons st body ih =>
    obtain ⟨outcome, s₁, hst, h⟩ := Eval.bind_ok h
    cases outcome with
    | normal => rw [anyBreaks, ih h, Bool.or_true]
    | returned v => cases Eval.pure_ok h
    | broke => rw [anyBreaks, hE.exec hst, Bool.true_or]

lemma Bounds.execStmt (hE : E.Bounds) {st : Stmt}
    (h : E.execStmt frame st s = .ok .broke s') : st.breaks = true := by
  cases st with
  | expression line value =>
    obtain ⟨-, s₁, -, h⟩ := Eval.bind_ok h
    cases Eval.pure_ok h
  | print keyword value =>
    obtain ⟨v, s₁, -, h⟩ := Eval.bind_ok h
    obtain ⟨-, s₂, -, h⟩ := Eval.bind_ok h
    obtain ⟨-, s₃, -, h⟩ := Eval.bind_ok h
    cases Eval.pure_ok h
  | var name init =>
    cases init with
    | none =>
      obtain ⟨-, s₁, -, h⟩ := Eval.bind_ok h
      cases Eval.pure_ok h
    | some init =>
      obtain ⟨v, s₁, -, h⟩ := Eval.bind_ok h
      obtain ⟨-, s₂, -, h⟩ := Eval.bind_ok h
      cases Eval.pure_ok h
  | block line body =>
    obtain ⟨id, s₁, -, h⟩ := Eval.bind_ok h
    exact hE.execAll h
  | ifElse keyword c yes no =>
    obtain ⟨v, s₁, -, h⟩ := Eval.bind_ok h
    cases no with
    | none =>
      split at h
      · exact (hE.exec h : yes.breaks = true)
      · cases Eval.pure_ok h
    | some no =>
      split at h
      · rw [Stmt.breaks, hE.exec h, Bool.true_or]
      · rw [Stmt.breaks, hE.exec h, Bool.or_true]
  | whileLoop keyword c body => exact absurd h loop_ne_broke
  | breakLoop keyword => rfl
  | returnValue keyword value =>
    cases value with
    | none => cases Eval.pure_ok h
    | some value =>
      obtain ⟨v, s₁, -, h⟩ := Eval.bind_ok h
      cases Eval.pure_ok h
  | function f =>
    obtain ⟨g, s₁, -, h⟩ := Eval.bind_ok h
    obtain ⟨-, s₂, -, h⟩ := Eval.bind_ok h
    cases Eval.pure_ok h
  | classDecl name superclass line methods statics =>
    obtain ⟨-, s₁, -, h⟩ := Eval.bind_ok h
    cases Eval.pure_ok h
  | invalid token => cases h

lemma bounds_deep (turns levels : Nat) : (deep turns levels).Bounds := by
  induction levels with
  | zero => exact ⟨fun h => nomatch h⟩
  | succ levels ih => exact ⟨fun h => ih.execStmt h⟩

end Evaluator

mutual

lemma Site.breaks_stmt : (st : Stmt) → (p : Site) → (p.stmt st).breaks = st.breaks
  | .expression _ _, _ | .print _ _, _ | .whileLoop _ _ _, _ | .breakLoop _, _ | .function _, _
  | .classDecl _ _ _ _ _, _ | .invalid _, _ | .var _ none, _ | .var _ (some _), _
  | .returnValue _ none, _ | .returnValue _ (some _), _ => rfl
  | .block _ body, p => anyBreaks_stmts body (p.inside (pure ()) (Resolver.resolveStmts p.around body))
  | .ifElse _ c yes none, p => breaks_stmt yes (p.afterExpr c)
  | .ifElse _ c yes (some no), p => by
    have hyes := breaks_stmt yes (p.afterExpr c)
    have hno := breaks_stmt no ((p.afterExpr c).afterStmt yes)
    change (((p.afterExpr c).stmt yes).breaks || (((p.afterExpr c).afterStmt yes).stmt no).breaks) =
      (yes.breaks || no.breaks)
    rw [hyes, hno]

lemma Site.anyBreaks_stmts :
    (body : List Stmt) → (p : Site) → anyBreaks (p.stmts body) = anyBreaks body
  | [], _ => rfl
  | st :: body, p => by
    have hst := breaks_stmt st p
    have hbody := anyBreaks_stmts body (p.afterStmt st)
    change ((p.stmt st).breaks || anyBreaks ((p.afterStmt st).stmts body)) =
      (st.breaks || anyBreaks body)
    rw [hst, hbody]

end

def Function.HoldsBreaks (f : Function) : Prop :=
  ∀ turns levels frame s s',
    (Evaluator.deep turns levels).execAll frame f.body s ≠ .ok .broke s'

lemma Function.WellFormed.holdsBreaks {f : Function} (h : f.WellFormed) (p : Site)
    (routine : Routine) : (p.function routine f).HoldsBreaks := by
  intro turns levels frame s s' hbroke
  obtain ⟨head, params, line, body⟩ := f
  have hbody := (Evaluator.bounds_deep turns levels).execAll hbroke
  rw [Site.function_mk, Function.body, Site.anyBreaks_stmts, h.2.2] at hbody
  cases hbody

/-- An operator that evaluation knows, a function that holds its `break`s, or another expression,
but not one that could not be read. -/
def Expr.Regular : Expr → Prop
  | .binary _ op _ => op.kind ∈ binaryOperators
  | .logical _ op _ => op.kind ∈ [.orWord, .andWord]
  | .unary op _ => op.kind ∈ [.bang, .minus]
  | .lambda f => f.HoldsBreaks
  | .invalid _ => False
  | _ => True

def Stmt.Regular : Stmt → Prop
  | .whileLoop keyword c body => ∀ turns levels frame s s',
    (Evaluator.deep turns levels).exec frame (.whileLoop keyword c body) s ≠ .ok .broke s'
  | .function f => f.HoldsBreaks
  | .classDecl _ _ _ methods statics => ∀ f ∈ methods ++ statics, f.HoldsBreaks
  | .invalid _ => False
  | _ => True

def Node.Regular : Node → Prop
  | expr e => e.Regular
  | stmt st => st.Regular

lemma Evaluator.deep_ne_broke (turns levels : Nat) (frame : FrameId) (keyword : Token) (c : Expr)
    (body : Stmt) (s s' : Store) :
    (deep turns levels).exec frame (.whileLoop keyword c body) s ≠ .ok .broke s' := fun h =>
  nomatch (bounds_deep turns levels).exec h

lemma Site.holdsBreaks_members {isStatic : Bool} {fs : List Function}
    (h : allWellFormedMember fs) (p : Site) : ∀ f ∈ p.members isStatic fs, f.HoldsBreaks := by
  induction fs generalizing p with
  | nil => exact fun f hf => absurd hf List.not_mem_nil
  | cons g fs ih =>
    have hmore := ih h.2
      (p.passed (Resolver.resolveFunction p.around (Resolver.memberRoutine isStatic g) g))
    exact List.forall_mem_cons.mpr ⟨h.1.holdsBreaks p _, hmore⟩

lemma holds_regular {sources : List String} (hsound : AllSound sources) :
    Holds sources fun _ node _ => node.Regular where
  expr {w s frame p e} hs h := by
    have hwell := (h.visits.sound hsound).wellFormed
    cases e with
    | binary => exact hwell.1
    | logical => exact hwell.1
    | unary => exact hwell.1
    | lambda f => exact hwell.holdsBreaks p .ordinary
    | invalid => exact hwell
    | _ => exact trivial
  stmt {w s frame p st} hs h := by
    have hwell := (h.visits.sound hsound).wellFormed
    cases st with
    | whileLoop =>
      exact fun turns levels frame => Evaluator.deep_ne_broke turns levels frame _ _ _
    | function f =>
      exact hwell.2.holdsBreaks (p.passed (Resolver.declareReady f.head true)) .ordinary
    | classDecl name target line methods statics =>
      rw [Site.stmt_classDecl]
      intro f hf
      rcases List.mem_append.mp hf with hf | hf
      · exact Site.holdsBreaks_members hwell.2.2.1 _ f hf
      · exact Site.holdsBreaks_members hwell.2.2.2 _ f hf
    | var name init => cases init <;> exact trivial
    | ifElse keyword c yes no => cases no <;> exact trivial
    | returnValue keyword value => cases value <;> exact trivial
    | invalid => exact hwell
    | _ => exact trivial

/-- In a session in which only sources without errors have been run, a source without errors runs
into no defect: a watch that looks at every piece before it is evaluated finds it regular, no
`return` or `break` gets out to the top level, and no operator is unknown. -/
theorem Session.completions_stay_inside {sources : List String} {session : Session}
    {source : String} (h : Reached sources session)
    (hsource : (Program.compile source).hasError = false) :
    (∀ alarm, session.forceWatched (fun _ node _ => node.Regular) alarm (.compile source) =
      session.force (.compile source)) ∧
      (∀ d, (session.force (.compile source)).result ≠ .error (.defect d)) ∧
      ∀ op token, (session.force (.compile source)).result ≠
          .error (.failure ⟨.unknownOperator op, token⟩) ∧
        (session.force (.compile source)).result ≠
          .error (.failure ⟨.unknownUnaryOperator op, token⟩) := by
  have hsound : AllSound (source :: sources) := List.forall_mem_cons.mpr ⟨hsource, h.allSound⟩
  refine ⟨fun alarm => forceWatched_eq h hsource (holds_regular hsound) alarm, ?_, ?_⟩
  · exact fun d hdefect => harmless_force h hsource hdefect
  · intro op token
    constructor
    · exact fun hunknown => nomatch harmless_force h hsource hunknown
    · exact fun hunknown => nomatch harmless_force h hsource hunknown

theorem Session.completions_stay_inside_loop :
    let first := "while (true) \x7b if (1 < nil) break; \x7d"
    let second := "fun f() \x7b while (true) \x7b return 1; \x7d \x7d print f();"
    let session := (Session.run ⟨false, .standard, .initial 0⟩ first).session
    Reached [first] session ∧ (Program.compile second).hasError = false ∧
      (∀ alarm, session.forceWatched (fun _ node _ => node.Regular) alarm (.compile second) =
        session.force (.compile second)) ∧
      (∀ d, (session.force (.compile second)).result ≠ .error (.defect d)) ∧
      ∀ op token, (session.force (.compile second)).result ≠
          .error (.failure ⟨.unknownOperator op, token⟩) ∧
        (session.force (.compile second)).result ≠
          .error (.failure ⟨.unknownUnaryOperator op, token⟩) := by
  intro first second session
  have hreached : Reached [first] session := .run (.new false .standard 0) (by decide +kernel)
  have hsecond : (Program.compile second).hasError = false := by decide +kernel
  exact ⟨hreached, hsecond, completions_stay_inside hreached hsecond⟩

end Lox
