import Lox.Proofs.Eval.Contents
import Lox.Proofs.Eval.Watch

/-! Invocations: the ways in which evaluation comes to run a function, and what functions that set
up objects give. -/

namespace Lox

namespace Evaluator

/-- The evaluation of an expression comes to run a function, which is called, sets up an object or
is a getter. The last store is the one that the function is run in. -/
inductive Invokes (E : Evaluator) (frame : FrameId) (s : Store) :
    Expr → Closure → List Value → Store → Prop where
  | call {callee : Expr} {paren : Token} {arguments : List Expr} {f : Closure} {args : List Value}
      {s₁ s₂ : Store} (hcallee : E.eval frame callee s = .ok (.function f) s₁)
      (hargs : E.evalAll frame arguments s₁ = .ok args s₂)
      (hlength : args.length = f.function.arity) :
    Invokes E frame s (.call callee paren arguments) f args s₂
  | construct {callee : Expr} {paren : Token} {arguments : List Expr} {c : Class} {m : Method}
      {f : Closure} {args : List Value} {s₁ s₂ s₃ : Store}
      (hcallee : E.eval frame callee s = .ok (.cls c) s₁)
      (hargs : E.evalAll frame arguments s₁ = .ok args s₂) (hlength : args.length = c.arity)
      (hm : c.initializer? = some m)
      (hbind : Eval.bind m (.object ⟨s₂.fields.size, c⟩) s₂.newFields.2 = .ok f s₃) :
    Invokes E frame s (.call callee paren arguments) f args s₃
  | get {object : Expr} {name : Token} {v : Value} {id : ObjectId} {m : Method} {f : Closure}
      {s₁ s₂ : Store} (hobject : E.eval frame object s = .ok v s₁)
      (hid : Eval.fields? v = some id) (hfield : s₁.field? id name.lexeme = none)
      (hm : Eval.member? name.lexeme v = some m) (hbind : Eval.bind m v s₁ = .ok f s₂)
      (hgetter : f.function.isGetter = true) :
    Invokes E frame s (.get object name) f [] s₂
  | super {target : Reference} {method : Token} {depth : Nat} {parent : Class} {v : Value}
      {m : Method} {f : Closure} {s₁ s₂ s₃ : Store} (hdepth : target.depth = some depth)
      (hparent : Eval.readAt frame depth target.name s = .ok (.cls parent) s₁)
      (hthis : Eval.readAt frame (depth - 1)
        { target.name with kind := .thisWord, lexeme := Eval.thisName } s₁ = .ok v s₂)
      (hm : parent.inherited? v method.lexeme = some m) (hbind : Eval.bind m v s₂ = .ok f s₃)
      (hgetter : f.function.isGetter = true) :
    Invokes E frame s (.super target method) f [] s₃

structure Initializes (E : Evaluator) (f : Closure) (args : List Value) (s : Store) (o : Object) :
    Prop where
  bound : s.lookup? f.frame Eval.thisName = some ⟨.object o, true⟩
  completes : ∀ outcome s', E.runBody f args s = .ok outcome s' →
    (outcome = .normal ∨ outcome = .returned .nil) ∧ E.invoke f args s = .ok (.object o) s'
  fails : ∀ a s', E.runBody f args s = .error a s' → E.invoke f args s = .error a s'

variable {E : Evaluator} {frame : FrameId} {s : Store} (run : FrameId → Stmt → Eval Completion)

def running (E : Evaluator) : Evaluator := { E with exec := run }

lemma evalAll_running (frame : FrameId) (es : List Expr) :
    (E.running run).evalAll frame es = E.evalAll frame es := by
  induction es with
  | nil => rfl
  | cons e es ih =>
    unfold evalAll
    rw [ih]
    rfl

variable {run}

lemma access_running {m : Method} {v : Value} (h : ∀ f s', Eval.bind m v s = .ok f s' →
      f.function.isGetter = true → (E.running run).invoke f [] s' = E.invoke f [] s') :
    (E.running run).access m v s = E.access m v s := by
  refine Eval.bind_congr rfl fun f s' hf => ?_
  split
  · next hgetter => exact h f s' hf hgetter
  · rfl

lemma call_running {first paren : Token} {callee : Value} {args : List Value}
    (hcall : ∀ f, callee = .function f → args.length = f.function.arity →
      (E.running run).invoke f args s = E.invoke f args s)
    (hconstruct : ∀ c m f s', callee = .cls c → args.length = c.arity → c.initializer? = some m →
      Eval.bind m (.object ⟨s.fields.size, c⟩) s.newFields.2 = .ok f s' →
        (E.running run).invoke f args s' = E.invoke f args s') :
    (E.running run).call first paren callee args s = E.call first paren callee args s := by
  unfold call
  cases callee with
  | function f =>
    dsimp only [Value.arity?]
    split
    · rfl
    · next hlength => exact hcall f rfl (Decidable.not_not.mp hlength)
  | cls c =>
    dsimp only [Value.arity?]
    split
    · rfl
    · next hlength =>
      have hnew : Eval.newFields s = .ok s.fields.size s.newFields.2 := rfl
      unfold instantiate
      rw [Eval.bind_of_ok hnew, Eval.bind_of_ok hnew]
      cases hm : c.initializer? with
      | none => rfl
      | some m =>
        refine Eval.bind_congr rfl fun f s' hf => Eval.bind_congr ?_ fun _ _ _ => rfl
        exact hconstruct c m f s' rfl (Decidable.not_not.mp hlength) hm hf
  | _ => rfl

lemma readProperty_running {v : Value} {name : Token}
    (h : ∀ id m f s', Eval.fields? v = some id → s.field? id name.lexeme = none →
      Eval.member? name.lexeme v = some m → Eval.bind m v s = .ok f s' →
        f.function.isGetter = true → (E.running run).invoke f [] s' = E.invoke f [] s') :
    (E.running run).readProperty v name s = E.readProperty v name s := by
  cases hid : Eval.fields? v with
  | none =>
    unfold readProperty
    rw [hid]
  | some id =>
    rw [readProperty_eq _ hid, readProperty_eq _ hid]
    cases hfield : s.field? id name.lexeme with
    | some u => rfl
    | none =>
      cases hm : Eval.member? name.lexeme v with
      | none => rfl
      | some m => exact access_running fun f s' => h id m f s' hid hfield hm

lemma readSuper_running {target : Reference} {method : Token}
    (h : ∀ f s', E.Invokes frame s (.super target method) f [] s' →
      (E.running run).invoke f [] s' = E.invoke f [] s') :
    (E.running run).readSuper frame target method s = E.readSuper frame target method s := by
  unfold readSuper
  cases hdepth : target.depth with
  | none => rfl
  | some depth =>
    refine Eval.bind_congr rfl fun superclass s₁ hparent =>
      Eval.bind_congr rfl fun object s₂ hthis => ?_
    cases superclass with
    | cls parent =>
      change (E.running run).accessFound (parent.inherited? object method.lexeme) object method s₂ =
        E.accessFound (parent.inherited? object method.lexeme) object method s₂
      cases hm : parent.inherited? object method.lexeme with
      | none => rfl
      | some m =>
        exact access_running fun f s' hbind hgetter =>
          h f s' (.super hdepth hparent hthis hm hbind hgetter)
    | _ => rfl

theorem evalExpr_running {e : Expr} (h : ∀ f args s', E.Invokes frame s e f args s' →
      (E.running run).invoke f args s' = E.invoke f args s') :
    (E.running run).evalExpr frame e s = E.evalExpr frame e s := by
  cases e with
  | call callee paren arguments =>
    refine Eval.bind_congr rfl fun f s₁ hcallee => ?_
    refine Eval.bind_congr (congrFun (evalAll_running run frame arguments) s₁)
      fun args s₂ hargs => call_running (fun g hg hlength => ?_) fun c m g s₃ hc hlength hm hbind => ?_
    · subst hg
      exact h g args s₂ (.call hcallee hargs hlength)
    · subst hc
      exact h g args s₃ (.construct hcallee hargs hlength hm hbind)
  | get object name =>
    refine Eval.bind_congr rfl fun v s₁ hobject => readProperty_running ?_
    exact fun id m f s₂ hid hfield hm hbind hgetter =>
      h f [] s₂ (.get hobject hid hfield hm hbind hgetter)
  | super target method => exact readSuper_running fun f s' hf => h f [] s' hf
  | list bracket elements =>
    exact Eval.bind_congr (congrFun (evalAll_running run frame elements) s) fun _ _ _ => rfl
  | _ => rfl

end Evaluator

variable {sources : List String} {w : World} {s : Store} {E F : Evaluator} {frame : FrameId}
  {p : Site}

lemma Site.Sound.call {e callee : Expr} {paren : Token} {arguments : List Expr}
    (h : p.Sound (.expr e)) (he : p.expr e = .call callee paren arguments) :
    ∃ raw raws, e = .call raw paren raws ∧ callee = p.expr raw ∧
      arguments = (p.afterExpr raw).exprs raws := by
  cases e with
  | call raw _ raws =>
    cases he
    exact ⟨raw, raws, rfl, rfl, rfl⟩
  | ref target =>
    rw [h.ref.1] at he
    cases he
  | assign target value line =>
    rw [h.assign] at he
    cases he
  | this target =>
    rw [h.this.1] at he
    cases he
  | super target method =>
    rw [h.super.1] at he
    cases he
  | _ => cases he

structure Closure.Ready (sources : List String) (w : World) (s : Store) (f : Closure)
    (args : List Value) : Prop where
  closure : f.Fits sources w s
  length : args.length = f.function.paramNames.length
  args : ∀ v ∈ args, v.Fits sources w s

structure Class.SetsUp (sources : List String) (w : World) (s : Store) (c : Class) (m : Method)
    (f : Closure) (args : List Value) (w' : World) (s' : Store) : Prop where
  later : Later w s w' s'
  fits : s'.Fits sources w'
  object : (Value.object ⟨s.fields.size, c⟩).Fits sources w' s'
  ready : f.Ready sources w' s' args
  function : f.function = m.function
  receiver : s'.lookup? f.frame Eval.thisName = some ⟨.object ⟨s.fields.size, c⟩, true⟩

lemma Class.Fits.setsUp (hsound : AllSound sources) {c : Class} (hc : c.Fits sources w s false)
    (hs : s.Fits sources w) {args : List Value} (hargs : ∀ v ∈ args, v.Fits sources w s)
    (hlength : args.length = c.arity) {m : Method} (hm : c.initializer? = some m) {f : Closure}
    {s' : Store} (hbind : Eval.bind m (.object ⟨s.fields.size, c⟩) s.newFields.2 = .ok f s') :
    ∃ w', c.SetsUp sources w s m f args w' s' := by
  have hnew : Runs sources w s Eval.newFields Eval.newFields
      fun w' _ id => w'.owners[id]? = some (.object ⟨id, c⟩) := Eval.runs_newFields _
  obtain ⟨w₁, h₁, hs₁, howner⟩ := hnew.ok hs rfl
  have hobject : (Value.object ⟨s.fields.size, c⟩).Fits sources w₁ s.newFields.2 :=
    .object howner (hc.later h₁)
  have hmethod : m.Fits sources w₁ s.newFields.2 false := (hc.findMethod? hm).later h₁
  obtain ⟨w₂, h₂, hs₂, hf, hfunction, -, hthis⟩ :=
    (Eval.runs_bind hsound hmethod hobject trivial).ok hs₁ hbind
  have hl := h₁.trans h₂
  refine ⟨w₂, hl, hs₂, hobject.later h₂, ⟨hf, ?_, fun v hv => (hargs v hv).later hl⟩, hfunction,
    hthis⟩
  rw [hlength, Class.arity, hm, hfunction]
  rfl

lemma ready_getter (hsound : AllSound sources) (hs : s.Fits sources w) {isStatic : Bool}
    {m : Method} {v : Value} (hm : m.Fits sources w s isStatic) (hv : v.Fits sources w s)
    (hreceives : v.Receives m.isInitializer) {f : Closure} {s' : Store}
    (hbind : Eval.bind m v s = .ok f s') (hgetter : f.function.isGetter = true) :
    ∃ w', s'.Fits sources w' ∧ f.Ready sources w' s' [] := by
  obtain ⟨w', -, hs', hf, -⟩ := (Eval.runs_bind hsound hm hv hreceives).ok hs hbind
  refine ⟨w', hs', hf, ?_, fun u hu => absurd hu List.not_mem_nil⟩
  rw [Function.paramNames_of_isGetter hgetter]
  rfl

namespace Agrees

lemma initializes (hE : Agrees sources E F) (hsound : AllSound sources)
    (hs : s.Fits sources w) {f : Closure} {args : List Value} (h : f.Ready sources w s args)
    (hinit : f.isInitializer = true) : ∃ o, E.Initializes f args s o := by
  obtain ⟨o, hthis⟩ := h.closure.2 hinit
  have hbody := hE.left.runBody hsound h.closure h.args h.length
  refine ⟨o, hthis, fun outcome s' hrun => ?_, fun a s' hrun => ?_⟩
  · obtain ⟨w', hl, -, ho⟩ := hbody.ok hs hrun
    constructor
    · cases outcome with
      | normal => exact .inl rfl
      | returned v => exact .inr (congrArg _ (ho.2 hinit))
      | broke => exact ho.elim
    · have hgives : Eval.conclude f outcome = Eval.receiver f := if_pos hinit
      rw [E.invoke_eq_runBody, Eval.bind_of_ok hrun, hgives]
      exact Eval.receiver_eq (hl.receiver _ _ hthis)
  · rw [E.invoke_eq_runBody, Eval.bind_of_error hrun]

theorem fits_callee (hE : Agrees sources E F) (hsound : AllSound sources) {e callee : Expr}
    {paren : Token} {arguments : List Expr} (hst : Stands sources w s frame p (.expr e))
    (he : p.expr e = .call callee paren arguments) (hs : s.Fits sources w) {v : Value}
    {args : List Value} {s₁ s₂ : Store} (hcallee : E.eval frame callee s = .ok v s₁)
    (hargs : E.evalAll frame arguments s₁ = .ok args s₂) :
    ∃ w₂, s₂.Fits sources w₂ ∧ v.Fits sources w₂ s₂ ∧ ∀ u ∈ args, u.Fits sources w₂ s₂ := by
  obtain ⟨callee, arguments, rfl, rfl, rfl⟩ := (hst.visits.sound hsound).call he
  have hparts := hst.operands
  obtain ⟨w₁, h₁, hs₁, hv⟩ := (hE.left.eval hparts.head).ok hs hcallee
  obtain ⟨w₂, h₂, hs₂, hargs⟩ :=
    (hE.left.evalAll hsound ((hparts.tail hsound).later h₁)).ok hs₁ hargs
  exact ⟨w₂, hs₂, hv.later h₂, hargs⟩

lemma invoked (hE : Agrees sources E F) (hsound : AllSound sources) {e : Expr}
    (hst : Stands sources w s frame p (.expr e)) (hs : s.Fits sources w) {f : Closure}
    {args : List Value} {s' : Store} (h : E.Invokes frame s (p.expr e) f args s') :
    ∃ w', s'.Fits sources w' ∧ f.Ready sources w' s' args := by
  have hsite := hst.visits.sound hsound
  have hparts := hst.operands
  cases e with
  | call callee paren arguments =>
    have h : E.Invokes frame s (.call (p.expr callee) paren ((p.afterExpr callee).exprs arguments))
      f args s' := h
    cases h with
    | call hcallee hargs hlength =>
      obtain ⟨w₂, hs₂, hf, hargs⟩ := hE.fits_callee hsound hst rfl hs hcallee hargs
      cases hf with
      | function hf => exact ⟨w₂, hs₂, hf, hlength, hargs⟩
    | construct hcallee hargs hlength hm hbind =>
      obtain ⟨w₂, hs₂, hc, hargs⟩ := hE.fits_callee hsound hst rfl hs hcallee hargs
      cases hc with
      | cls hc =>
        obtain ⟨w₃, hsetUp⟩ := hc.setsUp hsound hs₂ hargs hlength hm hbind
        exact ⟨w₃, hsetUp.fits, hsetUp.ready⟩
  | get object name =>
    have h : E.Invokes frame s (.get (p.expr object) name) f args s' := h
    cases h with
    | get hobject hid hfield hm hbind hgetter =>
      obtain ⟨w₁, h₁, hs₁, hv⟩ := (hE.left.eval hparts.head).ok hs hobject
      obtain ⟨⟨_, hfits⟩, hreceives⟩ := hv.member? hm
      exact ready_getter hsound hs₁ hfits hv hreceives hbind hgetter
  | super target method =>
    obtain ⟨depth, hdepth, hsuper, hthis⟩ := hst.runs_super hsound
    rw [hsite.super.1] at h
    cases h with
    | super hdepth' hparent hobject hm hbind hgetter =>
      rw [hdepth] at hdepth'
      cases hdepth'
      obtain ⟨w₁, h₁, hs₁, c, hc, hcfits⟩ := hsuper.ok hs hparent
      cases hc
      obtain ⟨w₂, h₂, hs₂, hv⟩ := (hthis h₁).ok hs₁ hobject
      obtain ⟨⟨_, hfits⟩, hreceives⟩ := (hcfits.later h₂).inherited? (hv.receiver rfl) hm
      exact ready_getter hsound hs₂ hfits hv.fits hreceives hbind hgetter
  | ref target =>
    rw [hsite.ref.1] at h
    cases h
  | assign target value line =>
    rw [hsite.assign] at h
    cases h
  | this target =>
    rw [hsite.this.1] at h
    cases h
  | _ => cases h

end Agrees

end Lox
