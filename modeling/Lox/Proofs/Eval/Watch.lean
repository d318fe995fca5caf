import Lox.Proofs.Eval.Parts
import Lox.Proofs.Eval.Statement

/-! Watched evaluation: an evaluator that looks at every piece before it evaluates it. What a watch
never finds fault with holds of every evaluation in a run. -/

namespace Lox

namespace Evaluator

open Classical in
noncomputable def watched (proper : FrameId → Node → Store → Prop) (alarm : Abort)
    (E : Evaluator) : Evaluator where
  eval := fun frame e s => if proper frame (.expr e) s then E.eval frame e s else .error alarm s
  exec := fun frame st s => if proper frame (.stmt st) s then E.exec frame st s else .error alarm s
  levels := E.levels
  turns := E.turns

noncomputable def deepWatched (proper : FrameId → Node → Store → Prop) (alarm : Abort)
    (turns : Nat) : Nat → Evaluator
  | 0 => (exhausted turns).watched proper alarm
  | levels + 1 => (within (deepWatched proper alarm turns levels)).watched proper alarm

end Evaluator

variable {sources : List String} {w : World} {s : Store} {E F : Evaluator}
  {proper : FrameId → Node → Store → Prop} {alarm : Abort}

structure Holds (sources : List String) (proper : FrameId → Node → Store → Prop) : Prop where
  expr {w : World} {s : Store} {frame : FrameId} {p : Site} {e : Expr} (hs : s.Fits sources w)
    (h : Stands sources w s frame p (.expr e)) : proper frame (.expr (p.expr e)) s
  stmt {w : World} {s : Store} {frame : FrameId} {p : Site} {st : Stmt} (hs : s.Fits sources w)
    (h : Stands sources w s frame p (.stmt st)) : proper frame (.stmt (p.stmt st)) s

lemma Agrees.watched (h : Holds sources proper) (hE : Agrees sources E F) (alarm : Abort) :
    Agrees sources E (F.watched proper alarm) where
  levels := hE.levels
  turns := hE.turns
  eval hst hs := by
    obtain ⟨heq, hends⟩ := hE.eval hst hs
    refine ⟨Eq.trans ?_ heq, hends⟩
    exact if_pos (h.expr hs hst)
  exec hst hs := by
    obtain ⟨heq, hends⟩ := hE.exec hst hs
    refine ⟨Eq.trans ?_ heq, hends⟩
    exact if_pos (h.stmt hs hst)

theorem Agrees.left (hE : Agrees sources E F) : Agrees sources E E where
  levels := rfl
  turns := rfl
  eval hst hs := ⟨rfl, (hE.eval hst hs).2⟩
  exec hst hs := ⟨rfl, (hE.exec hst hs).2⟩

lemma Agrees.within (hE : Agrees sources E F) (hsound : AllSound sources) :
    Agrees sources (.within E) (.within F) where
  levels := congrArg Nat.succ hE.levels
  turns := hE.turns
  eval hst := hE.evalExpr hsound hst
  exec hst := hE.execStmt hsound hst

theorem agrees_deepWatched (hsound : AllSound sources) (h : Holds sources proper) (alarm : Abort)
    (turns levels : Nat) :
    Agrees sources (.deep turns levels) (.deepWatched proper alarm turns levels) := by
  induction levels with
  | zero =>
    have hexhausted : Agrees sources (.exhausted turns) (.exhausted turns) :=
      ⟨rfl, rfl, fun _ => .throw trivial, fun _ => .throw trivial⟩
    exact hexhausted.watched h alarm
  | succ levels ih => exact (ih.within hsound).watched h alarm

lemma holds_true (sources : List String) : Holds sources fun _ _ _ => True :=
  ⟨fun _ _ => trivial, fun _ _ => trivial⟩

lemma agrees_deep (hsound : AllSound sources) (turns levels : Nat) :
    Agrees sources (.deep turns levels) (.deep turns levels) :=
  (agrees_deepWatched hsound (holds_true sources) .endless turns levels).left

theorem Agrees.program (hE : Agrees sources E F) (hsound : AllSound sources) {p : Site}
    {body : List Stmt} {last : Value}
    (h : Stands sources w s Store.globals p (.stmts body)) (htop : p.around.routine = .topLevel)
    (hbreaks : anyBreaks body = false) (hlast : last.Fits sources w s) :
    Runs sources w s (Eval.program E last (p.stmts body)) (Eval.program F last (p.stmts body))
      fun w' s' v => v.Fits sources w' s' := by
  induction body generalizing w s p last with
  | nil => exact .pure hlast
  | cons st body ih =>
    have hst := h.part .headStmt rfl rfl
    have hbreaks' := Bool.or_eq_false_iff.mp hbreaks
    have htail {w' s'} (hf : Follows w' s' Store.globals (p.afterStmt st).scopes.outline p.closing) :
        Stands sources w' s' Store.globals (p.afterStmt st) (.stmts body) :=
      ⟨h.visits.enter .tailStmts, hf⟩
    have hother : Runs sources w s
        (Eval.reportingDepth (p.stmt st).firstToken? (E.exec Store.globals (p.stmt st)) >>=
          Eval.proceed E last ((p.afterStmt st).stmts body))
        (Eval.reportingDepth (p.stmt st).firstToken? (F.exec Store.globals (p.stmt st)) >>=
          Eval.proceed F last ((p.afterStmt st).stmts body))
        fun w' s' v => v.Fits sources w' s' := by
      refine ((hE.exec hst).reportingDepth _).bind fun w₁ s₁ outcome h₁ ho => ?_
      cases outcome with
      | normal => exact ih (htail ho) htop hbreaks'.2 (hlast.later h₁)
      | returned v => exact absurd htop ho.inside
      | broke =>
        have hbroke : st.breaks = true := ho
        rw [hbreaks'.1] at hbroke
        cases hbroke
    cases st with
    | expression line value =>
      refine ((hE.eval (hst.leading rfl)).reportingDepth _).bind fun w₁ s₁ v h₁ hv => ?_
      refine ih (htail ?_) htop hbreaks'.2 hv
      rw [hst.undeclaring hsound rfl]
      exact hst.follows.later h₁
    | var name init => cases init <;> exact hother
    | ifElse keyword c yes no => cases no <;> exact hother
    | returnValue keyword value => cases value <;> exact hother
    | _ => exact hother

end Lox
