import Lox.Proofs.Eval.Parts

/-! Evaluation takes what it evaluates inside as it comes: a relation among runs that holds of equal
steps and of steps in a row holds of what evaluators do as soon as it holds of what they evaluate
inside. -/

namespace Lox

structure Congruence (ι : Type) where
  Rel {α : Type} : (ι → Eval α) → Prop
  same {α : Type} (act : Eval α) : Rel fun _ => act
  bind {α β : Type} {x : ι → Eval α} {k : ι → α → Eval β} (hx : Rel x)
    (hk : ∀ a, Rel fun i => k i a) : Rel fun i => x i >>= k i

namespace Congruence

variable {ι α β : Type} {R : Congruence ι}

lemma seq {x : ι → Eval α} {k : α → Eval β} (h : R.Rel x) : R.Rel fun i => x i >>= k :=
  R.bind h fun a => R.same (k a)

lemma map {x : ι → Eval α} (h : R.Rel x) (f : α → β) : R.Rel fun i => f <$> x i := by
  simp only [map_eq_pure_bind]
  exact seq h

lemma loop {condition : ι → Eval Bool} {body : ι → Eval Completion} (hc : R.Rel condition)
    (hb : R.Rel body) (turns : Nat) :
    R.Rel fun i => Evaluator.loop (condition i) (body i) turns := by
  induction turns with
  | zero => exact R.same _
  | succ turns ih =>
    refine R.bind hc fun goesOn => ?_
    split
    · refine R.bind hb fun outcome => ?_
      cases outcome with
      | normal => exact ih
      | _ => exact R.same _
    · exact R.same _

end Congruence

namespace Evaluator

def guardEither (levels : Nat) (a b : Value) : Eval Unit :=
  if a.nestsWithin levels || b.nestsWithin levels then return () else throw .tooDeep

lemma guardDepth_eq (E : Evaluator) (v : Value) : E.guardDepth v = guardEither E.levels v v := by
  rw [guardEither, Bool.or_self]
  rfl

lemma applyBinary_eq (E : Evaluator) (op : Token) (a b : Value) :
    E.applyBinary op a b =
      if op.kind = .equalEqual || op.kind = .bangEqual then
        guardEither E.levels a b >>= fun _ => Eval.operate op a b
      else Eval.operate op a b := by
  unfold applyBinary Evaluator.guardDepth guardEither
  cases a.nestsWithin E.levels <;> cases b.nestsWithin E.levels <;> rfl

end Evaluator

structure Evaluator.Congruent {ι : Type} (R : Congruence ι) (E : ι → Evaluator) : Prop where
  guards (around : Nat) (a b : Value) : R.Rel fun i => guardEither ((E i).levels + around) a b
  loops {condition : ι → Eval Bool} {body : ι → Eval Completion} (hc : R.Rel condition)
    (hb : R.Rel body) : R.Rel fun i => loop (condition i) (body i) (E i).turns
  eval (frame : FrameId) (e : Expr) : R.Rel fun i => (E i).eval frame e
  exec (frame : FrameId) (st : Stmt) : R.Rel fun i => (E i).exec frame st

namespace Evaluator.Congruent

variable {ι : Type} {R : Congruence ι} {E : ι → Evaluator}

theorem ofRoom {levels turns : Nat} (hlevels : ∀ i, (E i).levels = levels)
    (hturns : ∀ i, (E i).turns = turns) (eval : ∀ frame e, R.Rel fun i => (E i).eval frame e)
    (exec : ∀ frame st, R.Rel fun i => (E i).exec frame st) : Congruent R E where
  guards around a b := by
    simp only [hlevels]
    exact R.same _
  loops hc hb := by
    simp only [hturns]
    exact Congruence.loop hc hb turns
  eval := eval
  exec := exec

variable (h : Congruent R E)

include h

lemma guardDepth (v : Value) : R.Rel fun i => (E i).guardDepth v := by
  simp only [guardDepth_eq]
  exact h.guards 0 v v

lemma evalAll (frame : FrameId) (es : List Expr) : R.Rel fun i => (E i).evalAll frame es := by
  induction es with
  | nil => exact R.same _
  | cons e es ih => exact R.bind (h.eval frame e) fun v => R.seq ih

lemma execAll (frame : FrameId) (body : List Stmt) :
    R.Rel fun i => (E i).execAll frame body := by
  induction body with
  | nil => exact R.same _
  | cons st body ih =>
    refine R.bind (h.exec frame st) fun outcome => ?_
    cases outcome with
    | normal => exact ih
    | returned v => exact R.same _
    | broke => exact R.same _

lemma invoke (f : Closure) (args : List Value) : R.Rel fun i => (E i).invoke f args :=
  R.bind (R.same _) fun frame => R.bind (R.same _) fun _ => R.seq (h.execAll frame _)

lemma instantiate (c : Class) (args : List Value) : R.Rel fun i => (E i).instantiate c args := by
  refine R.bind (R.same _) fun id => ?_
  cases c.initializer? with
  | none => exact R.same _
  | some m => exact R.bind (R.same _) fun f => R.seq (h.invoke f args)

lemma access (m : Method) (receiver : Value) : R.Rel fun i => (E i).access m receiver := by
  refine R.bind (R.same _) fun f => ?_
  split
  · exact h.invoke f []
  · exact R.same _

lemma call (first paren : Token) (callee : Value) (args : List Value) :
    R.Rel fun i => (E i).call first paren callee args := by
  unfold Evaluator.call
  cases callee.arity? with
  | none => exact R.same _
  | some expected =>
    dsimp only
    split
    · exact R.same _
    · cases callee with
      | function f => exact h.invoke f args
      | cls c => exact h.instantiate c args
      | _ => exact R.same _

lemma readProperty (object : Value) (name : Token) :
    R.Rel fun i => (E i).readProperty object name := by
  unfold Evaluator.readProperty
  cases Eval.fields? object with
  | none => exact R.same _
  | some id =>
    refine R.bind (R.same _) fun s => ?_
    split
    · exact R.same _
    · split
      · exact h.access _ object
      · exact R.same _

lemma readSuper (frame : FrameId) (target : Reference) (method : Token) :
    R.Rel fun i => (E i).readSuper frame target method := by
  unfold Evaluator.readSuper
  cases target.depth with
  | none => exact R.same _
  | some depth =>
    refine R.bind (R.same _) fun superclass => R.bind (R.same _) fun object => ?_
    cases superclass with
    | cls parent =>
      dsimp only
      split
      · exact h.access _ object
      · exact R.same _
    | _ => exact R.same _

lemma applyBinary (op : Token) (a b : Value) : R.Rel fun i => (E i).applyBinary op a b := by
  simp only [applyBinary_eq]
  split
  · exact Congruence.seq (h.guards 0 a b)
  · exact R.same _

lemma evalExpr (frame : FrameId) (e : Expr) : R.Rel fun i => (E i).evalExpr frame e := by
  cases e with
  | literal | ref | lambda | this | invalid => exact R.same _
  | assign target value line => exact R.seq (h.eval frame value)
  | get object name => exact R.bind (h.eval frame object) fun v => h.readProperty v name
  | set object name value line =>
    exact R.bind (h.eval frame object) fun v => R.seq (h.eval frame value)
  | conditional condition mark yes no =>
    refine R.bind (h.eval frame condition) fun v => ?_
    split
    · exact h.eval frame yes
    · exact h.eval frame no
  | comma left op right => exact R.bind (h.eval frame left) fun _ => h.eval frame right
  | binary left op right =>
    exact R.bind (h.eval frame left) fun a => R.bind (h.eval frame right) fun b => h.applyBinary op a b
  | logical left op right =>
    refine R.bind (h.eval frame left) fun v => ?_
    split
    · exact R.same _
    · exact h.eval frame right
  | unary op operand => exact R.seq (h.eval frame operand)
  | call callee paren arguments =>
    exact R.bind (h.eval frame callee) fun f => R.bind (h.evalAll frame arguments) fun args =>
      h.call callee.firstToken paren f args
  | super target method => exact h.readSuper frame target method
  | grouping paren content => exact h.eval frame content
  | list bracket elements => exact R.seq (h.evalAll frame elements)

lemma execStmt (frame : FrameId) (st : Stmt) : R.Rel fun i => (E i).execStmt frame st := by
  cases st with
  | expression line value => exact R.seq (h.eval frame value)
  | print keyword value =>
    exact R.bind (h.eval frame value) fun v => R.seq (h.guardDepth v)
  | var name init =>
    cases init with
    | none => exact R.same _
    | some init => exact R.seq (h.eval frame init)
  | block line body => exact R.bind (R.same _) fun id => h.execAll id body
  | ifElse keyword condition yes no =>
    refine R.bind (h.eval frame condition) fun v => ?_
    split
    · exact h.exec frame yes
    · cases no with
      | none => exact R.same _
      | some no => exact h.exec frame no
  | whileLoop keyword condition body =>
    exact h.loops (R.map (h.eval frame condition) Value.isTruthy) (h.exec frame body)
  | returnValue keyword value =>
    cases value with
    | none => exact R.same _
    | some value => exact R.seq (h.eval frame value)
  | breakLoop | function | classDecl | invalid => exact R.same _

lemma within : Congruent R fun i => .within (E i) where
  guards around a b := by
    simp only [Evaluator.within, Nat.add_assoc]
    exact h.guards (1 + around) a b
  loops := h.loops
  eval := h.evalExpr
  exec := h.execStmt

end Evaluator.Congruent

end Lox
