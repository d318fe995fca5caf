import Lox.Proofs.Eval.Stand

namespace Lox

structure Value.Returned (sources : List String) (w : World) (s : Store) (routine : Routine)
    (v : Value) : Prop where
  fits : v.Fits sources w s
  inside : routine ≠ .topLevel
  initializer : routine = .initializer → v = .nil

def Completes (sources : List String) (frame : FrameId) (p : Site) (st : Stmt) :
    Outcome Completion := fun w s outcome =>
  match outcome with
  | .normal => Follows w s frame (p.afterStmt st).scopes.outline p.closing
  | .returned v => v.Returned sources w s p.around.routine
  | .broke => st.breaks = true

/-- The second evaluator does what the first does, wherever a program without errors comes. -/
structure Agrees (sources : List String) (E F : Evaluator) : Prop where
  levels : F.levels = E.levels
  turns : F.turns = E.turns
  eval {w : World} {s : Store} {frame : FrameId} {p : Site} {e : Expr}
    (h : Stands sources w s frame p (.expr e)) :
    Runs sources w s (E.eval frame (p.expr e)) (F.eval frame (p.expr e))
      fun w' s' v => v.Fits sources w' s'
  exec {w : World} {s : Store} {frame : FrameId} {p : Site} {st : Stmt}
    (h : Stands sources w s frame p (.stmt st)) :
    Runs sources w s (E.exec frame (p.stmt st)) (F.exec frame (p.stmt st))
      (Completes sources frame p st)

namespace Agrees

variable {sources : List String} {E F : Evaluator} {w : World} {s : Store} {frame : FrameId}
  {p : Site}

lemma guardDepth (hE : Agrees sources E F) (v : Value) :
    Runs sources w s (E.guardDepth v) (F.guardDepth v) fun _ _ _ => True := by
  unfold Evaluator.guardDepth
  rw [hE.levels]
  split
  · exact .pure trivial
  · exact .throw trivial

lemma evalAll (hE : Agrees sources E F) (hsound : AllSound sources) {es : List Expr}
    (h : Stands sources w s frame p (.exprs es)) :
    Runs sources w s (E.evalAll frame (p.exprs es)) (F.evalAll frame (p.exprs es))
      fun w' s' vs => ∀ v ∈ vs, v.Fits sources w' s' := by
  induction es generalizing w s p with
  | nil => exact .pure fun v hv => absurd hv List.not_mem_nil
  | cons e es ih =>
    refine (hE.eval h.head).bind fun w₁ s₁ v h₁ hv => ?_
    refine (ih ((h.tail hsound).later h₁)).bind fun w₂ s₂ vs h₂ hvs => .pure ?_
    exact List.forall_mem_cons.mpr ⟨hv.later h₂, hvs⟩

theorem execAll (hE : Agrees sources E F) {body : List Stmt}
    (h : Stands sources w s frame p (.stmts body)) :
    Runs sources w s (E.execAll frame (p.stmts body)) (F.execAll frame (p.stmts body))
      fun w' s' outcome =>
        (∀ v, outcome = .returned v → v.Returned sources w' s' p.around.routine) ∧
          (outcome = .broke → anyBreaks body = true) := by
  induction body generalizing w s p with
  | nil =>
    refine .pure ⟨fun v hv => ?_, fun hb => ?_⟩
    · cases hv
    · cases hb
  | cons st body ih =>
    have hhead := h.part .headStmt rfl rfl
    refine (hE.exec hhead).bind fun w₁ s₁ outcome h₁ ho => ?_
    cases outcome with
    | normal =>
      have htail : Stands sources w₁ s₁ frame (p.afterStmt st) (.stmts body) :=
        ⟨h.visits.enter .tailStmts, ho⟩
      refine (ih htail).mono fun w₂ s₂ outcome _ _ ho' => ⟨ho'.1, fun hb => ?_⟩
      rw [anyBreaks, ho'.2 hb, Bool.or_true]
    | returned v =>
      refine .pure ⟨fun u hu => ?_, fun hb => ?_⟩
      · cases hu
        exact ho
      · cases hb
    | broke =>
      have hbreaks : st.breaks = true := ho
      refine .pure ⟨fun v hv => ?_, fun _ => ?_⟩
      · cases hv
      · rw [anyBreaks, hbreaks, Bool.true_or]

end Agrees

end Lox
