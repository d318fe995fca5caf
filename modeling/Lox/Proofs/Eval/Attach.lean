import Lox.Proofs.Eval.Raise

/-! Where a fault of a native function ends up. It is raised away from any token, and every node that
it comes out of puts it down to its first token if it has none yet. The innermost of these nodes is
the call, so the evaluators that programs are run with do the same as those that put the fault down
to the call at once. -/

namespace Lox

def Failure.IsPlaced (f : Failure) : Prop := f.token.isSome

lemma Failure.attach_of_isPlaced {f : Failure} (h : f.IsPlaced) (t : Option Token) :
    f.attach t = f := by
  obtain ⟨fault, token⟩ := f
  cases token with
  | none => cases h
  | some _ => rfl

lemma Failure.isPlaced_of_token {f : Failure} {t : Token} (h : f.token = some t) :
    f.IsPlaced := by
  rw [IsPlaced, h]
  rfl

lemma Node.Blames.isPlaced {node : Node} {f : Failure} (h : node.Blames f) : f.IsPlaced := by
  unfold Node.Blames at h
  split at h
  · obtain ⟨hcall, htoken⟩ := h
    cases node with
    | expr e => exact Failure.isPlaced_of_token (htoken.trans e.head?_tokens)
    | stmt st => cases hcall
  · obtain ⟨t, -, htoken⟩ := h
    exact Failure.isPlaced_of_token htoken

namespace Eval

variable {α β : Type} {first : Unit → Option Token}

lemma attaching_bind (x : Eval α) (k : α → Eval β) :
    attaching first (x >>= k) = attaching first x >>= fun a => attaching first (k a) := by
  funext s
  cases hx : x s with
  | ok a s' =>
    have hattach : attaching first x s = .ok a s' := by simp only [attaching, hx]
    rw [bind_of_ok hattach]
    simp only [attaching, bind_of_ok hx]
  | error e s' =>
    have hattach : attaching first x s = .error (e.attach (first ())) s' := by
      simp only [attaching, hx]
    rw [bind_of_error hattach]
    simp only [attaching, bind_of_error hx]

lemma attaching_of_raises {x : Eval α} (h : x.Raises Failure.IsPlaced) :
    attaching first x = x := by
  funext s
  unfold attaching
  cases hx : x s with
  | ok a s' => rfl
  | error e s' =>
    cases e with
    | failure f =>
      dsimp only [Abort.attach]
      rw [Failure.attach_of_isPlaced (h s f s' hx)]
    | _ => rfl

lemma attaching_raising (t : Token) (x : Except Fault α) :
    attaching (fun _ => some t) (raising x) = located t x := by
  cases x <;> rfl

end Eval

namespace Evaluator

variable {E : Evaluator} (hE : E.Raises Failure.IsPlaced)

include hE

lemma raises_evalExpr (frame : FrameId) (e : Expr) :
    (E.evalExpr frame e).Raises Failure.IsPlaced := by
  by_cases hsuper : ∃ target method, e = .super target method
  · obtain ⟨target, method, rfl⟩ := hsuper
    exact hE.readSuper frame target method fun f t hf => f.isPlaced_of_token hf.2
  · exact hE.evalExpr (fun _ hf => hf.isPlaced) fun t m he => hsuper ⟨t, m, he⟩

lemma raises_execStmt (frame : FrameId) (st : Stmt) :
    (E.execStmt frame st).Raises Failure.IsPlaced := hE.execStmt fun _ hf => hf.isPlaced

lemma attaching_callValue (first paren : Token) (callee : Value) (args : List Value) :
    Eval.attaching (fun _ => some first) (E.callValue paren callee args) =
      E.call first paren callee args := by
  have hplaced {α : Type} {x : Eval α} (h : x.Raises Failure.IsPlaced) :
      Eval.attaching (fun _ => some first) x = x := Eval.attaching_of_raises h
  have hfail (fault : Fault) : (Eval.fail fault paren : Eval Value).Raises Failure.IsPlaced :=
    .fail rfl
  unfold callValue call
  cases callee.arity? with
  | none => exact hplaced (hfail _)
  | some expected =>
    dsimp only
    split
    · exact hplaced (hfail _)
    · cases callee with
      | function f => exact hplaced (hE.invoke f args)
      | cls c => exact hplaced (hE.instantiate c args)
      | native f =>
        dsimp only
        rw [Eval.attaching_bind, hplaced .get]
        simp only [Eval.attaching_raising]
      | _ => exact hplaced (hfail _)

lemma attaching_evalNode (frame : FrameId) (e : Expr) :
    Eval.attaching (fun _ => some e.firstToken) (E.evalNode frame e) = E.evalExpr frame e := by
  have hplaced : Eval.attaching (fun _ => some e.firstToken) (E.evalExpr frame e) =
      E.evalExpr frame e := Eval.attaching_of_raises (raises_evalExpr hE frame e)
  cases e with
  | call callee paren arguments =>
    unfold evalNode evalExpr
    rw [Eval.attaching_bind, Eval.attaching_of_raises (hE.eval frame callee)]
    refine congrArg _ (funext fun v => ?_)
    rw [Eval.attaching_bind, Eval.attaching_of_raises (hE.evalAll frame arguments)]
    exact congrArg _ (funext fun args => attaching_callValue hE _ paren v args)
  | _ => exact hplaced

lemma around_eq_within : around E = within E := by
  have heval : (around E).eval = E.evalExpr := by
    funext frame e
    exact attaching_evalNode hE frame e
  have hexec : (around E).exec = E.execStmt := by
    funext frame st
    change Eval.attaching (fun _ => st.firstToken?) (E.execStmt frame st) = E.execStmt frame st
    exact Eval.attaching_of_raises (raises_execStmt hE frame st)
  rw [within, ← heval, ← hexec]
  rfl

lemma raises_within : (within E).Raises Failure.IsPlaced :=
  ⟨raises_evalExpr hE, raises_execStmt hE⟩

omit hE in
lemma raises_deep (turns levels : Nat) : (deep turns levels).Raises Failure.IsPlaced := by
  induction levels with
  | zero => exact ⟨fun _ _ => .tooDeep, fun _ _ => .tooDeep⟩
  | succ levels ih => exact raises_within ih

omit hE in
lemma nested_eq_deep (turns levels : Nat) : nested turns levels = deep turns levels := by
  induction levels with
  | zero => rfl
  | succ levels ih =>
    rw [nested, ih]
    exact around_eq_within (raises_deep turns levels)

end Evaluator

lemma Limits.evaluator_eq (limits : Limits) :
    limits.evaluator = .deep limits.turns limits.levels :=
  Evaluator.nested_eq_deep limits.turns limits.levels

end Lox
