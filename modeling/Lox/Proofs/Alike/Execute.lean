import Lox.Proofs.Alike.Evaluate
import Lox.Proofs.Eval.Parts

namespace Lox

variable {V : Variation} {W : Naming V} {earlier : String} {E : Evaluator} {frame : FrameId}

lemma Naming.Later.known {W' : Naming V} (h : W.Later W') (hid : W.known frame) :
    W'.known frame := (h frame hid).1

lemma Naming.Later.names {W' : Naming V} (h : W.Later W') (hid : W.known frame) :
    W'.names frame = W.names frame := (h frame hid).2

namespace Evaluator

namespace Uniform

theorem evalExpr (hE : E.Uniform V earlier) (hframe : W.known frame) {e e' : Expr}
    (h : e.Alike V.resolved (W.names frame) e') :
    Together W earlier (E.evalExpr frame e) (E.evalExpr frame e') Value.Alike := by
  have hpart : ∀ {W' : Naming V} {e e'}, W.Later W' → e.Alike V.resolved (W.names frame) e' →
      Together W' earlier (E.eval frame e) (E.eval frame e') Value.Alike := by
    intro W' e e' hl he
    rw [← hl.names hframe] at he
    exact hE.eval (hl.known hframe) he
  have hnow := Naming.Later.refl W
  cases h with
  | @literal _ _ _ v => exact .pure (.ofLiteral W v)
  | ref hr => exact Eval.together_readName hframe hr
  | assign hr hv =>
    refine (hpart hnow hv).bind fun W₁ v v' h₁ hv => ?_
    rw [← h₁.names hframe] at hr
    refine (Eval.together_assignName (h₁.known hframe) hr hv).bind fun W₂ _ _ h₂ _ => ?_
    exact .pure (hv.later h₂ _ _)
  | get ho ht => exact (hpart hnow ho).bind fun W₁ v v' _ hv => hE.readProperty hv ht
  | set ho ht hv =>
    refine (hpart hnow ho).bind fun W₁ object object' h₁ ho => ?_
    refine (hpart h₁ hv).bind fun W₂ v v' h₂ hv => ?_
    exact assignProperty (ho.later h₂ _ _) hv ht
  | conditional hc _ hy hn =>
    refine (hpart hnow hc).bind fun W₁ v v' h₁ hv => ?_
    rw [hv.isTruthy]
    split
    · exact hpart h₁ hy
    · exact hpart h₁ hn
  | lambda hf =>
    exact (Eval.together_closure hframe hf false).bind fun W₁ f f' _ hf => .pure (.function hf.1)
  | comma hl _ hr => exact (hpart hnow hl).bind fun W₁ _ _ h₁ _ => hpart h₁ hr
  | binary hl ht hr =>
    refine (hpart hnow hl).bind fun W₁ a a' h₁ ha => ?_
    refine (hpart h₁ hr).bind fun W₂ b b' h₂ hb => ?_
    exact applyBinary E ht (ha.later h₂ _ _) hb
  | logical hl ht hr =>
    refine (hpart hnow hl).bind fun W₁ v v' h₁ hv => ?_
    rw [hv.isTruthy, ht.kind]
    split
    · exact .pure hv
    · exact hpart h₁ hr
  | unary ht he => exact (hpart hnow he).bind fun W₁ v v' _ hv => .located ht.place (hv.unary ht)
  | call hc ht hes =>
    refine (hpart hnow hc).bind fun W₁ f f' h₁ hf => ?_
    rw [← h₁.names hframe] at hes
    refine (hE.evalAll (h₁.known hframe) hes).bind fun W₂ args args' h₂ hargs => ?_
    exact hE.call (hc.place_firstToken _ _) ht.place (hf.later h₂ _ _) hargs
  | this hr => exact Eval.together_readName hframe hr
  | super hr ht => exact hE.readSuper hframe hr ht
  | grouping _ he => exact hpart hnow he
  | list _ hes => exact (hE.evalAll hframe hes).bind fun W₁ vs vs' _ hvs => .pure (.list hvs)
  | invalid _ => exact .defect .invalidExpression fun _ => nofun

lemma loop {condition condition' : Eval Bool} {body body' : Eval Completion}
    (hcondition : ∀ {W' : Naming V}, W.Later W' →
      Together W' earlier condition condition' fun _ b b' => b' = b)
    (hbody : ∀ {W' : Naming V}, W.Later W' → Together W' earlier body body' Completion.Alike)
    (turns : Nat) {W' : Naming V} (hl : W.Later W') :
    Together W' earlier (Evaluator.loop condition body turns)
      (Evaluator.loop condition' body' turns) Completion.Alike := by
  induction turns generalizing W' with
  | zero => exact .throw .endless
  | succ turns ih =>
    refine (hcondition hl).bind fun W₁ b b' h₁ hb => ?_
    cases hb
    cases b with
    | false => exact .pure .normal
    | true =>
      refine (hbody (hl.trans h₁)).bind fun W₂ o o' h₂ ho => ?_
      cases ho with
      | normal => exact ih ((hl.trans h₁).trans h₂)
      | returned hv => exact .pure (.returned hv)
      | broke => exact .pure .normal

lemma superclass (hframe : W.known frame) {target target' : Option Reference}
    (h : Option.Rel (V.resolved.use (W.names frame)) target target') :
    Together W earlier (Evaluator.superclass frame target) (Evaluator.superclass frame target')
      fun W' c c' => Option.Rel (Class.Alike W') c c' ∧ c.isSome = target.isSome := by
  cases h with
  | none => exact .pure ⟨.none, rfl⟩
  | some hr =>
    refine (Eval.together_readName hframe hr).bind fun W₁ v v' _ hv => ?_
    cases hv with
    | cls hc => exact .pure ⟨.some hc, rfl⟩
    | _ => exact .fail (.same _) hr.2.place

lemma memberFrame (hframe : W.known frame) {parent parent' : Option Class}
    (h : Option.Rel (Class.Alike W) parent parent') :
    Together W earlier (Evaluator.memberFrame frame parent) (Evaluator.memberFrame frame parent')
      fun W' inside inside' => inside' = inside ∧ W'.known inside ∧
        V.resolved.members parent.isSome (W.names frame) = .cons V.same (W'.names inside) := by
  cases h with
  | none => exact .pure ⟨rfl, hframe, rfl⟩
  | some hc =>
    refine (Eval.together_newFrame hframe V.same).bind fun W₁ _ inside h₁ h => ?_
    obtain ⟨rfl, hknown, hnames⟩ := h
    have hsuper : Eval.superName = (W₁.names inside 0).val Eval.superName := by
      rw [hnames]
      rfl
    refine (Eval.together_define (.cls (hc.later h₁ _ _)) hsuper).bind fun W₂ _ _ h₂ _ => ?_
    refine .pure ⟨rfl, h₂.known hknown, ?_⟩
    rw [h₂.names hknown, hnames]
    rfl

lemma memberTable {inside : FrameId} (hinside : W.known inside) (isStatic : Bool)
    {ms ms' : List Function}
    (h : AlikeMembers V.resolved (.cons V.same (W.names inside)) ms ms') :
    Table.Alike (Method.Alike W) (Evaluator.memberTable inside isStatic ms)
      (Evaluator.memberTable inside isStatic ms') := by
  unfold Evaluator.memberTable
  suffices hfold : ∀ t t' : Table Method, Table.Alike (Method.Alike W) t t' →
      Table.Alike (Method.Alike W)
        (ms.foldl (fun t f => t.put f.name ⟨f, inside, f.isInitializer isStatic⟩) t)
        (ms'.foldl (fun t f => t.put f.name ⟨f, inside, f.isInitializer isStatic⟩) t') from
    hfold .empty .empty fun _ => .none
  induction ms generalizing ms' with
  | nil =>
    cases h
    exact fun t t' ht => ht
  | cons m ms ih =>
    cases h with
    | @cons _ _ m' _ _ hm hms =>
      refine fun t t' ht => ih hms _ _ fun name => ?_
      have hinit : m'.isInitializer isStatic = m.isInitializer isStatic := by
        rw [Function.isInitializer, Function.isInitializer, hm.name, hm.isGetter]
      rw [Table.find?_put, Table.find?_put, hm.name, hinit]
      split
      · exact .some ⟨rfl, hinside, hm, rfl⟩
      · exact ht name

lemma newClass (name : String) {parent parent' mc mc' : Option Class}
    {ms ms' : Table Method} (hp : Option.Rel (Class.Alike W) parent parent')
    (hmc : Option.Rel (Class.Alike W) mc mc') (hms : Table.Alike (Method.Alike W) ms ms') :
    Together W earlier (Eval.newClass name parent mc ms) (Eval.newClass name parent' mc' ms')
      Class.Alike := by
  refine Eval.together_newFields.bind fun W₁ place place' h₁ h => ?_
  cases h
  exact .pure (.mk (alikeClass_later h₁ _ _ hp) (alikeClass_later h₁ _ _ hmc)
    fun name => optionRel_mono (hms name) fun _ _ hm => hm.later h₁)

lemma declareClass (hframe : W.known frame) {t t' : Token} {target target' : Option Reference}
    {ms ms' ss ss' : List Function} (ht : V.resolved.title (W.names frame) t t')
    (htarget : Option.Rel (V.resolved.use (W.names frame)) target target')
    (hms : AlikeMembers V.resolved (V.resolved.members target.isSome (W.names frame)) ms ms')
    (hss : AlikeMembers V.resolved (V.resolved.members target.isSome (W.names frame)) ss ss') :
    Together W earlier (Evaluator.declareClass frame t target ms ss)
      (Evaluator.declareClass frame t' target' ms' ss') fun _ _ _ => True := by
  have hname : t'.lexeme = t.lexeme := ht.1.lexeme
  refine (superclass hframe htarget).bind fun W₁ parent parent' h₁ hparent => ?_
  obtain ⟨hparent, hsome⟩ := hparent
  refine (memberFrame (h₁.known hframe) hparent).bind fun W₂ _ inside h₂ h => ?_
  obtain ⟨rfl, hinside, hnames⟩ := h
  rw [h₁.names hframe, hsome] at hnames
  rw [hnames] at hms hss
  have hparent₂ := alikeClass_later h₂ _ _ hparent
  have hmeta : Option.Rel (Class.Alike W₂) (parent.bind Class.metaclass?)
      (parent'.bind Class.metaclass?) := by
    cases hparent₂ with
    | none => exact .none
    | some hc => exact hc.metaclass?
  rw [hname]
  refine (newClass _ hmeta .none (memberTable hinside true hss)).bind fun W₃ mc mc' h₃ hmc => ?_
  rw [← h₃.names hinside] at hms
  refine (newClass _ (alikeClass_later h₃ _ _ hparent₂) (.some hmc)
    (memberTable (h₃.known hinside) false hms)).bind fun W₄ c c' h₄ hc => ?_
  refine Eval.together_define (.cls hc) ?_
  rw [(((h₁.trans h₂).trans h₃).trans h₄).names hframe, ht.2]

theorem execStmt (hE : E.Uniform V earlier) (hframe : W.known frame) {s s' : Stmt}
    (h : s.Alike V.resolved (W.names frame) s') :
    Together W earlier (E.execStmt frame s) (E.execStmt frame s') Completion.Alike := by
  have hvalue : ∀ {W' : Naming V} {e e'}, W.Later W' → e.Alike V.resolved (W.names frame) e' →
      Together W' earlier (E.eval frame e) (E.eval frame e') Value.Alike := by
    intro W' e e' hl he
    rw [← hl.names hframe] at he
    exact hE.eval (hl.known hframe) he
  have hpart : ∀ {W' : Naming V} {s s'}, W.Later W' → s.Alike V.resolved (W.names frame) s' →
      Together W' earlier (E.exec frame s) (E.exec frame s') Completion.Alike := by
    intro W' s s' hl hs
    rw [← hl.names hframe] at hs
    exact hE.exec (hl.known hframe) hs
  have hnow := Naming.Later.refl W
  cases h with
  | expression he => exact (hvalue hnow he).bind fun W₁ _ _ _ _ => .pure .normal
  | print _ he =>
    refine (hvalue hnow he).bind fun W₁ v v' h₁ hv => ?_
    refine (guardDepth E hv).bind fun W₂ _ _ h₂ _ => ?_
    have htext : v'.text = v.text := hv.write false _ _
    rw [htext]
    exact (Together.change fun s s' hs => hs.printLine v.text).bind fun W₃ _ _ _ _ => .pure .normal
  | declare ht => exact (Eval.together_declare ht.lexeme).bind fun W₁ _ _ _ _ => .pure .normal
  | define ht he =>
    refine (hvalue hnow he).bind fun W₁ v v' h₁ hv => ?_
    refine (Eval.together_define hv ?_).bind fun W₂ _ _ _ _ => .pure .normal
    rw [h₁.names hframe]
    exact ht.lexeme
  | block henter hbody =>
    obtain ⟨r, rfl⟩ := henter
    refine (Eval.together_newFrame hframe r).bind fun W₁ _ inside h₁ h => ?_
    obtain ⟨rfl, hknown, hnames⟩ := h
    rw [← hnames] at hbody
    exact hE.execAll hknown hbody
  | ifOnly _ hc hy =>
    refine (hvalue hnow hc).bind fun W₁ v v' h₁ hv => ?_
    rw [hv.isTruthy]
    split
    · exact hpart h₁ hy
    · exact .pure .normal
  | ifElse _ hc hy hn =>
    refine (hvalue hnow hc).bind fun W₁ v v' h₁ hv => ?_
    rw [hv.isTruthy]
    split
    · exact hpart h₁ hy
    · exact hpart h₁ hn
  | whileLoop _ hc hb =>
    refine loop (W := W) (fun hl => ?_) (fun hl => hpart hl hb) E.turns hnow
    exact (hvalue hl hc).bind fun W₁ v v' _ hv => .pure hv.isTruthy
  | breakLoop _ => exact .pure .broke
  | returnNothing _ => exact .pure (.returned .nil)
  | returnValue _ he => exact (hvalue hnow he).bind fun W₁ v v' _ hv => .pure (.returned hv)
  | function ht hf =>
    refine (Eval.together_closure hframe hf false).bind fun W₁ f f' h₁ hf' => ?_
    refine (Eval.together_define (.function hf'.1) ?_).bind fun W₂ _ _ _ _ => .pure .normal
    rw [h₁.names hframe, hf.name]
    exact ht.2.symm
  | classDecl ht hp hms hss =>
    exact (declareClass hframe ht hp hms hss).bind fun W₁ _ _ _ _ => .pure .normal
  | invalid _ => exact .defect .invalidStatement fun _ => nofun

lemma within (hE : E.Uniform V earlier) : (Evaluator.within E).Uniform V earlier :=
  ⟨fun hframe h => hE.evalExpr hframe h, fun hframe h => hE.execStmt hframe h⟩

end Uniform

lemma uniform_deep (V : Variation) (earlier : String) (turns levels : Nat) :
    (deep turns levels).Uniform V earlier := by
  induction levels with
  | zero => exact ⟨fun _ _ => .throw .tooDeep, fun _ _ => .throw .tooDeep⟩
  | succ levels ih => exact ih.within

end Evaluator

def Naming.Outermost (W : Naming V) : Prop :=
  W.known Store.globals ∧ W.names Store.globals = V.plain

lemma Naming.Later.outermost {W' : Naming V} (h : W.Later W') (hW : W.Outermost) :
    W'.Outermost := ⟨h.known hW.1, (h.names hW.1).trans hW.2⟩

lemma Eval.together_expression (hE : E.Uniform V earlier) (hW : W.Outermost) {e e' : Expr}
    (h : e.Alike V.resolved V.plain e') :
    Together W earlier (expression E e) (expression E e') Value.Alike := by
  rw [← hW.2] at h
  exact (hE.eval hW.1 h).reportingDepth (.some (h.place_firstToken e e'))

theorem Eval.together_program (hE : E.Uniform V earlier) (hW : W.Outermost)
    {body body' : List Stmt} (h : AlikeStmts V.resolved V.plain body body') (v v' : Value) :
    Together W earlier (program E v body) (program E v' body') fun W' u u' =>
      u.Alike W' u' ∨ u = v ∧ u' = v' := by
  induction body generalizing W body' v v' with
  | nil =>
    cases h
    exact .pure (.inr ⟨rfl, rfl⟩)
  | cons s body ih =>
    cases h with
    | @cons _ _ s' _ body' hs hbody =>
      have hstmt : Together W earlier
          (reportingDepth s.firstToken? (E.exec Store.globals s) >>= proceed E v body)
          (reportingDepth s'.firstToken? (E.exec Store.globals s') >>= proceed E v' body')
          fun W' u u' => u.Alike W' u' ∨ u = v ∧ u' = v' := by
        have hfirst := hs.place_firstToken? s s'
        rw [← hW.2] at hs
        refine ((hE.exec hW.1 hs).reportingDepth hfirst).bind fun W₁ o o' h₁ ho => ?_
        cases ho with
        | normal => exact ih (h₁.outermost hW) hbody v v'
        | returned hv => exact .throw (.defect (.escapedReturn hv))
        | broke => exact .defect .escapedBreak fun _ => nofun
      cases hs with
      | expression he =>
        refine (together_expression hE hW he).bind fun W₁ w w' h₁ hw => ?_
        refine (ih (h₁.outermost hW) hbody w w').mono fun W₂ u u' h₂ hu => .inl ?_
        rcases hu with hu | ⟨rfl, rfl⟩
        · exact hu
        · exact hw.later h₂ _ _
      | _ => exact hstmt

end Lox
