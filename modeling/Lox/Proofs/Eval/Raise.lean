import Lox.Proofs.Eval.Parts
import Lox.Proofs.Syntax.Tokens

/-! What a failure is put down to: each piece puts the faults of its own down to one token, and the
faults of a native function to where the call of it begins. A property of these that also all
failures from inside have holds of whatever comes out of a piece. -/

namespace Lox

variable {α β : Type}

def Fault.isNative : Fault → Bool
  | notList _ _ => true
  | notSequence _ _ => true
  | _ => false

/-- A failure that no native function finds, put down to a token. -/
def Failure.FoundAt (t : Token) (f : Failure) : Prop := f.fault.isNative = false ∧ f.token = some t

def Expr.culprit? : Expr → Option Token
  | .ref target => some target.name
  | .assign target _ _ => some target.name
  | .get _ name => some name
  | .set _ name _ _ => some name
  | .binary _ op _ => some op
  | .unary op _ => some op
  | .call _ paren _ => some paren
  | .this target => some target.name
  | .super _ method => some method
  | _ => none

def Stmt.culprit? : Stmt → Option Token
  | .classDecl _ superclass _ _ _ => superclass.map Reference.name
  | _ => none

namespace Node

def culprit? : Node → Option Token
  | expr e => e.culprit?
  | stmt st => st.culprit?

def tree : Node → Tree
  | expr e => e.tree
  | stmt st => st.tree

def isCall : Node → Bool
  | expr (.call _ _ _) => true
  | _ => false

/-- The failures that a piece itself ends in. Only calls run natives, whose faults are put down to
the first token of the call. -/
def Blames (node : Node) (f : Failure) : Prop :=
  if f.fault.isNative then node.isCall ∧ f.token = node.tree.tokens.head?
  else ∃ t, node.culprit? = some t ∧ f.token = some t

lemma Blames.of_foundAt {node : Node} {t : Token} {f : Failure} (ht : node.culprit? = some t)
    (h : f.FoundAt t) : node.Blames f := by
  rw [Blames, h.1]
  exact ⟨t, ht, h.2⟩

end Node

def Eval.Raises (P : Failure → Prop) (act : Eval α) : Prop :=
  ∀ s f s', act s = .error (.failure f) s' → P f

namespace Eval

variable {P Q : Failure → Prop}

namespace Raises

lemma bind {x : Eval α} {k : α → Eval β} (hx : x.Raises P) (hk : ∀ a, (k a).Raises P) :
    (x >>= k).Raises P := by
  intro s f s' h
  rcases bind_error h with h | ⟨a, s₁, _, h⟩
  · exact hx s f s' h
  · exact hk a s₁ f s' h

lemma mono {act : Eval α} (h : act.Raises P) (hPQ : ∀ f, P f → Q f) : act.Raises Q :=
  fun s f s' hf => hPQ f (h s f s' hf)

lemma fail {fault : Fault} {t : Token} (h : P ⟨fault, some t⟩) :
    (Eval.fail fault t : Eval α).Raises P := by
  intro s f s' hf
  cases hf
  exact h

lemma located {t : Token} {x : Except Fault α}
    (h : ∀ fault, x = .error fault → P ⟨fault, some t⟩) : (Eval.located t x).Raises P := by
  cases x with
  | ok v => exact fun s f s' hf => nomatch hf
  | error fault => exact fail (h fault rfl)

lemma pure (v : α) : (Pure.pure v : Eval α).Raises P := fun _ _ _ h => nomatch h

lemma modifyGet (g : Store → α × Store) : (modifyGet g : Eval α).Raises P :=
  fun _ _ _ h => nomatch h

lemma get : (MonadState.get : Eval Store).Raises P := fun _ _ _ h => nomatch h

lemma defect (d : Defect) : (Eval.defect d : Eval α).Raises P := fun _ _ _ h => nomatch h

lemma tooDeep : (throw .tooDeep : Eval α).Raises P := fun _ _ _ h => nomatch h

lemma noRemainder : (throw .noRemainder : Eval α).Raises P := fun _ _ _ h => nomatch h

lemma endless : (throw .endless : Eval α).Raises P := fun _ _ _ h => nomatch h

lemma map {x : Eval α} (h : x.Raises P) (g : α → β) : (g <$> x).Raises P := by
  rw [map_eq_pure_bind]
  exact h.bind fun a => pure (g a)

lemma define (frame : FrameId) (name : String) (v : Value) : (Eval.define frame name v).Raises P :=
  modifyGet _

lemma bindArguments (frame : FrameId) : (params : List Token) → (args : List Value) →
    (Eval.bindArguments frame params args).Raises P
  | [], _ | _ :: _, [] => pure ()
  | param :: params, v :: args =>
    (define frame param.lexeme v).bind fun _ => bindArguments frame params args

lemma closure (g : Function) (frame : FrameId) (isInitializer : Bool) :
    (Eval.closure g frame isInitializer).Raises P :=
  (modifyGet _).bind fun _ => pure _

lemma newClass (name : String) (superclass metaclass : Option Class) (methods : Table Method) :
    (Eval.newClass name superclass metaclass methods).Raises P :=
  (modifyGet _).bind fun _ => pure _

lemma bind_member (m : Method) (receiver : Value) : (Eval.bind m receiver).Raises P :=
  (modifyGet _).bind fun frame => (define frame _ receiver).bind fun _ => closure _ frame _

lemma receiver (f : Closure) : (Eval.receiver f).Raises P := by
  refine get.bind fun s => ?_
  split
  · exact pure _
  · exact defect _

lemma ancestor (frame : FrameId) (distance : Nat) : (Eval.ancestor frame distance).Raises P := by
  refine get.bind fun s => ?_
  split
  · exact pure _
  · exact defect _

end Raises

end Eval

lemma Store.readIn_isNative {s : Store} {frame : FrameId} {name : String} {fault : Fault}
    (h : s.readIn frame name = .error fault) : fault.isNative = false := by
  unfold readIn Frame.read at h
  split at h
  · split at h
    · split at h
      · cases h
      · cases h
        rfl
    · cases h
      rfl
  · cases h
    rfl

lemma Store.readNearest_isNative {s : Store} {frame : FrameId} {name : String} {fault : Fault}
    (h : s.readNearest frame name = .error fault) : fault.isNative = false := by
  unfold readNearest at h
  split at h
  · exact readIn_isNative h
  · cases h
    rfl

lemma Value.ofNumbers_isNative {op : Token} {x y : Float} {fault : Fault}
    (h : ofNumbers op x y = .error fault) : fault.isNative = false := by
  unfold ofNumbers at h
  split at h
  case h_3 | h_4 =>
    split at h
    · cases h
      rfl
    · cases h
  case h_9 =>
    cases h
    rfl
  all_goals cases h

lemma Value.binary_isNative {op : Token} {a b : Value} {fault : Fault}
    (h : a.binary op b = .error fault) : fault.isNative = false := by
  unfold binary at h
  split at h
  · cases h
  · cases h
  · unfold add at h
    split at h
    · cases h
    · cases h
    · cases h
      rfl
  · split at h
    · exact ofNumbers_isNative h
    · cases h
      rfl

lemma Value.unary_isNative {op : Token} {v : Value} {fault : Fault}
    (h : v.unary op = .error fault) : fault.isNative = false := by
  unfold unary at h
  split at h
  · split at h
    · cases h
    · cases h
      rfl
  · cases h
  · cases h
    rfl

lemma Native.ofSequence_isNative {native : Native} {ofItems : List Value → Value}
    {ofChars : List Char → Value} {v : Value} {fault : Fault}
    (h : ofSequence native ofItems ofChars v = .error fault) : fault.isNative = true := by
  unfold ofSequence at h
  split at h
  · cases h
  · cases h
  · cases h
    rfl

lemma Native.apply_isNative {time : Float} {native : Native} {args : List Value} {fault : Fault}
    (h : native.apply time args = .error fault) : fault.isNative = true := by
  unfold apply at h
  split at h
  · cases h
  · split at h
    · cases h
    · cases h
      rfl
  all_goals exact ofSequence_isNative h

namespace Eval

lemma raises_readAt (frame : FrameId) (distance : Nat) (name : Token) :
    (readAt frame distance name).Raises (Failure.FoundAt name) :=
  .bind (.ancestor frame distance) fun _ => .bind .get fun _ =>
    .located fun _ h => ⟨Store.readIn_isNative h, rfl⟩

lemma raises_readName (frame : FrameId) (target : Reference) :
    (readName frame target).Raises (Failure.FoundAt target.name) := by
  unfold readName
  split
  · exact raises_readAt frame _ _
  · exact .bind .get fun _ => .located fun _ h => ⟨Store.readNearest_isNative h, rfl⟩

lemma raises_assignName (frame : FrameId) (target : Reference) (v : Value) :
    (assignName frame target v).Raises (Failure.FoundAt target.name) := by
  unfold assignName
  split
  · exact .bind (.ancestor frame _) fun _ => .modifyGet _
  · refine .bind .get fun s => ?_
    split
    · exact .modifyGet _
    · exact .fail ⟨rfl, rfl⟩

end Eval

namespace Evaluator

structure Raises (P : Failure → Prop) (E : Evaluator) : Prop where
  eval (frame : FrameId) (e : Expr) : (E.eval frame e).Raises P
  exec (frame : FrameId) (st : Stmt) : (E.exec frame st).Raises P

variable {P : Failure → Prop} {E : Evaluator}

lemma raises_guardDepth (E : Evaluator) (v : Value) : (E.guardDepth v).Raises P := by
  unfold guardDepth
  split
  · exact .pure ()
  · exact .tooDeep

lemma raises_applyBinary (E : Evaluator) (op : Token) (a b : Value) :
    (E.applyBinary op a b).Raises (Failure.FoundAt op) := by
  have hoperate : (Eval.operate op a b).Raises (Failure.FoundAt op) := by
    refine .bind (.located fun _ h => ⟨Value.binary_isNative h, rfl⟩) fun result => ?_
    cases result with
    | some v => exact .pure v
    | none => exact .noRemainder
  unfold applyBinary
  split
  · split
    · exact .bind (E.raises_guardDepth a) fun _ => hoperate
    · exact hoperate
  · exact hoperate

lemma raises_assignProperty (object : Value) (name : Token) (v : Value) :
    (assignProperty object name v).Raises (Failure.FoundAt name) := by
  unfold assignProperty
  split
  · exact .fail ⟨rfl, rfl⟩
  · exact .bind (.modifyGet _) fun _ => .pure v

lemma raises_superclass (frame : FrameId) (target : Reference) :
    (superclass frame (some target)).Raises (Failure.FoundAt target.name) := by
  refine (Eval.raises_readName frame target).bind fun v => ?_
  split
  · exact .pure _
  · exact .fail ⟨rfl, rfl⟩

lemma raises_memberFrame (frame : FrameId) : (parent : Option Class) →
    (memberFrame frame parent).Raises P
  | none => .pure frame
  | some _ => .bind (.modifyGet _) fun inside =>
    .bind (.define inside _ _) fun _ => .pure inside

namespace Raises

variable (hE : E.Raises P)

include hE

lemma evalAll (frame : FrameId) (es : List Expr) : (E.evalAll frame es).Raises P := by
  induction es with
  | nil => exact .pure []
  | cons e es ih =>
    refine (hE.eval frame e).bind fun v => ?_
    refine ih.bind fun vs => ?_
    exact .pure (v :: vs)

lemma execAll (frame : FrameId) (body : List Stmt) : (E.execAll frame body).Raises P := by
  induction body with
  | nil => exact .pure _
  | cons st body ih =>
    refine (hE.exec frame st).bind fun outcome => ?_
    cases outcome with
    | normal => exact ih
    | _ => exact .pure _

lemma invoke (f : Closure) (args : List Value) : (E.invoke f args).Raises P := by
  refine .bind (.modifyGet _) fun frame => ?_
  refine .bind (.bindArguments frame _ args) fun _ => ?_
  refine .bind (hE.execAll frame _) fun outcome => ?_
  split
  · exact .receiver f
  · cases outcome with
    | broke => exact .defect _
    | _ => exact .pure _

lemma instantiate (c : Class) (args : List Value) : (E.instantiate c args).Raises P := by
  refine .bind (.modifyGet _) fun id => ?_
  cases c.initializer? with
  | none => exact .pure _
  | some m =>
    refine .bind (.bind_member m _) fun f => ?_
    refine .bind (hE.invoke f args) fun _ => ?_
    exact .pure _

lemma access (m : Method) (receiver : Value) : (E.access m receiver).Raises P := by
  refine .bind (.bind_member m receiver) fun f => ?_
  split
  · exact hE.invoke f []
  · exact .pure _

lemma call (callee : Expr) (paren : Token) (arguments : List Expr)
    (hP : ∀ f, (Node.expr (.call callee paren arguments)).Blames f → P f) (v : Value)
    (args : List Value) : (E.call callee.firstToken paren v args).Raises P := by
  have hfail {fault : Fault} (h : fault.isNative = false) :
      (Eval.fail fault paren : Eval Value).Raises P :=
    .fail (hP _ (.of_foundAt rfl ⟨h, rfl⟩))
  unfold Evaluator.call
  split
  · exact hfail rfl
  · split
    · exact hfail rfl
    · split
      · exact hE.invoke _ args
      · exact hE.instantiate _ args
      · refine .bind .get fun s => .located fun fault h => hP _ ?_
        rw [Node.Blames, if_pos (Native.apply_isNative h)]
        exact ⟨rfl, (Expr.head?_tokens (.call callee paren arguments)).symm⟩
      · exact hfail rfl

lemma accessFound (found : Option Method) (object : Value) {name : Token}
    (hP : ∀ f, f.FoundAt name → P f) : (E.accessFound found object name).Raises P := by
  cases found with
  | none => exact .fail (hP _ ⟨rfl, rfl⟩)
  | some m => exact hE.access m object

lemma readProperty (object : Value) {name : Token} (hP : ∀ f, f.FoundAt name → P f) :
    (E.readProperty object name).Raises P := by
  cases hfields : Eval.fields? object with
  | none =>
    unfold Evaluator.readProperty
    rw [hfields]
    exact .fail (hP _ ⟨rfl, rfl⟩)
  | some id =>
    intro s
    rw [E.readProperty_eq hfields name s]
    cases s.field? id name.lexeme with
    | some v => exact Eval.Raises.pure v s
    | none => exact hE.accessFound _ object hP s

lemma readSuper (frame : FrameId) (target : Reference) (method : Token)
    (hP : ∀ f t, f.FoundAt t → P f) : (E.readSuper frame target method).Raises P := by
  unfold Evaluator.readSuper
  cases target.depth with
  | none => exact .defect _
  | some depth =>
    refine ((Eval.raises_readAt frame depth target.name).mono fun f => hP f _).bind
      fun superclass => ?_
    refine ((Eval.raises_readAt frame _ _).mono fun f => hP f _).bind fun object => ?_
    cases superclass with
    | cls parent => exact hE.accessFound _ object fun f => hP f method
    | _ => exact .defect _

theorem evalExpr {frame : FrameId} {e : Expr} (hP : ∀ f, (Node.expr e).Blames f → P f)
    (hsuper : ∀ target method, e ≠ .super target method) : (E.evalExpr frame e).Raises P := by
  have hown {t : Token} (ht : e.culprit? = some t) (f : Failure) (hf : f.FoundAt t) : P f :=
    hP f (.of_foundAt ht hf)
  cases e with
  | literal line value => exact .pure _
  | ref target => exact (Eval.raises_readName frame target).mono (hown rfl)
  | assign target value line =>
    refine (hE.eval frame value).bind fun v => ?_
    refine ((Eval.raises_assignName frame target v).mono (hown rfl)).bind fun _ => ?_
    exact .pure v
  | get object name =>
    refine (hE.eval frame object).bind fun v => ?_
    exact hE.readProperty v (hown rfl)
  | set object name value line =>
    refine (hE.eval frame object).bind fun v => ?_
    refine (hE.eval frame value).bind fun v' => ?_
    exact (raises_assignProperty v name v').mono (hown rfl)
  | conditional condition mark yes no =>
    refine (hE.eval frame condition).bind fun v => ?_
    split
    · exact hE.eval frame yes
    · exact hE.eval frame no
  | lambda function =>
    refine (Eval.Raises.closure function frame false).bind fun f => ?_
    exact .pure _
  | comma left op right =>
    refine (hE.eval frame left).bind fun _ => ?_
    exact hE.eval frame right
  | binary left op right =>
    refine (hE.eval frame left).bind fun a => ?_
    refine (hE.eval frame right).bind fun b => ?_
    exact (E.raises_applyBinary op a b).mono (hown rfl)
  | logical left op right =>
    refine (hE.eval frame left).bind fun v => ?_
    split
    · exact .pure v
    · exact hE.eval frame right
  | unary op operand =>
    refine (hE.eval frame operand).bind fun v => ?_
    exact .located fun _ h => hown rfl _ ⟨Value.unary_isNative h, rfl⟩
  | call callee paren arguments =>
    refine (hE.eval frame callee).bind fun v => ?_
    refine (hE.evalAll frame arguments).bind fun args => ?_
    exact hE.call callee paren arguments hP v args
  | this target => exact (Eval.raises_readName frame target).mono (hown rfl)
  | super target method => exact absurd rfl (hsuper target method)
  | grouping paren content => exact hE.eval frame content
  | list bracket elements =>
    refine (hE.evalAll frame elements).bind fun vs => ?_
    exact .pure _
  | invalid line => exact .defect _

omit hE in
lemma loop {condition : Eval Bool} {body : Eval Completion} (hc : condition.Raises P)
    (hb : body.Raises P) (turns : Nat) : (Evaluator.loop condition body turns).Raises P := by
  induction turns with
  | zero => exact .endless
  | succ turns ih =>
    refine hc.bind fun goesOn => ?_
    split
    · refine hb.bind fun outcome => ?_
      cases outcome with
      | normal => exact ih
      | _ => exact .pure _
    · exact .pure _

omit hE in
lemma declareClass (frame : FrameId) (name : Token) (target : Option Reference)
    (methods statics : List Function)
    (hP : ∀ r, target = some r → ∀ f, f.FoundAt r.name → P f) :
    (Evaluator.declareClass frame name target methods statics).Raises P := by
  have hsuperclass : (superclass frame target).Raises P := by
    cases target with
    | none => exact .pure _
    | some target => exact (raises_superclass frame target).mono (hP target rfl)
  refine hsuperclass.bind fun parent => ?_
  refine (raises_memberFrame frame parent).bind fun inside => ?_
  refine (Eval.Raises.newClass _ _ _ _).bind fun mc => ?_
  refine (Eval.Raises.newClass _ _ _ _).bind fun c => ?_
  exact .define frame _ _

theorem execStmt {frame : FrameId} {st : Stmt} (hP : ∀ f, (Node.stmt st).Blames f → P f) :
    (E.execStmt frame st).Raises P := by
  cases st with
  | expression line value =>
    refine (hE.eval frame value).bind fun _ => ?_
    exact .pure _
  | print keyword value =>
    refine (hE.eval frame value).bind fun v => ?_
    refine (E.raises_guardDepth v).bind fun _ => ?_
    refine .bind (.modifyGet _) fun _ => ?_
    exact .pure _
  | var name init =>
    cases init with
    | none =>
      refine .bind (.modifyGet _) fun _ => ?_
      exact .pure _
    | some init =>
      refine (hE.eval frame init).bind fun v => ?_
      refine .bind (.define frame _ v) fun _ => ?_
      exact .pure _
  | block line body =>
    refine .bind (.modifyGet _) fun id => ?_
    exact hE.execAll id body
  | ifElse keyword condition yes no =>
    refine (hE.eval frame condition).bind fun v => ?_
    split
    · exact hE.exec frame yes
    · cases no with
      | none => exact .pure _
      | some no => exact hE.exec frame no
  | whileLoop keyword condition body =>
    have hcondition := (hE.eval frame condition).map Value.isTruthy
    exact loop hcondition (hE.exec frame body) E.turns
  | returnValue keyword value =>
    cases value with
    | none => exact .pure _
    | some value =>
      refine (hE.eval frame value).bind fun _ => ?_
      exact .pure _
  | breakLoop keyword => exact .pure _
  | function g =>
    refine (Eval.Raises.closure g frame false).bind fun f => ?_
    refine .bind (.define frame _ _) fun _ => ?_
    exact .pure _
  | classDecl name superclass closing methods statics =>
    have hdeclare : (Evaluator.declareClass frame name superclass methods statics).Raises P := by
      refine declareClass frame name superclass methods statics fun r hr f hf => ?_
      exact hP f (.of_foundAt (congrArg (Option.map Reference.name) hr) hf)
    refine hdeclare.bind fun _ => ?_
    exact .pure _
  | invalid line => exact .defect _

end Raises

end Evaluator

end Lox
