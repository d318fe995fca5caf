import Lox.Proofs.Eval.Raise

namespace Lox

def Node.Grounded (frame : FrameId) (node : Node) (s : Store) : Prop :=
  ∀ target method depth, node = .expr (.super target method) → target.depth = some depth →
    (∃ v, Eval.readAt frame depth target.name s = .ok v s) ∧
      ∃ v, Eval.readAt frame (depth - 1)
        { target.name with kind := .thisWord, lexeme := Eval.thisName } s = .ok v s

namespace Evaluator

def Silent (E : Evaluator) : Prop := ∀ P : Failure → Prop, E.Raises P

namespace Silent

variable {E : Evaluator} (hE : E.Silent)

include hE

lemma readSuper {frame : FrameId} {target : Reference} {method : Token} {s s' : Store}
    {f : Failure} (hground : (Node.expr (.super target method)).Grounded frame s)
    (h : E.readSuper frame target method s = .error (.failure f) s') : f.FoundAt method := by
  unfold Evaluator.readSuper at h
  cases hdepth : target.depth with
  | none =>
    rw [hdepth] at h
    cases h
  | some depth =>
    obtain ⟨⟨superclass, hsuper⟩, object, hthis⟩ := hground target method depth rfl hdepth
    rw [hdepth] at h
    dsimp only at h
    rw [Eval.bind_of_ok hsuper, Eval.bind_of_ok hthis] at h
    cases superclass with
    | cls parent =>
      have hfound (found : Option Method) :
          (E.accessFound found object method).Raises (Failure.FoundAt method) :=
        (hE _).accessFound found object fun _ hf => hf
      exact hfound _ s f s' h
    | _ => cases h

lemma evalExpr {frame : FrameId} {e : Expr} {s s' : Store} {f : Failure}
    (hground : (Node.expr e).Grounded frame s)
    (h : E.evalExpr frame e s = .error (.failure f) s') : (Node.expr e).Blames f := by
  by_cases hsuper : ∃ target method, e = .super target method
  · obtain ⟨target, method, rfl⟩ := hsuper
    exact .of_foundAt rfl (hE.readSuper hground h)
  · have hraises : (E.evalExpr frame e).Raises (Node.expr e).Blames :=
      (hE _).evalExpr (fun _ hf => hf) fun target method he => hsuper ⟨target, method, he⟩
    exact hraises s f s' h

lemma execStmt (frame : FrameId) (st : Stmt) :
    (E.execStmt frame st).Raises (Node.stmt st).Blames :=
  (hE _).execStmt fun _ hf => hf

end Silent

end Evaluator

end Lox
