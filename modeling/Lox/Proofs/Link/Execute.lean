import Lox.Proofs.Eval.Parts
import Lox.Proofs.Link.Evaluate

namespace Lox

variable {K : Link.Terms} {L : Link} {E F : Evaluator} {frame frame' : FrameId}

namespace Evaluator

namespace Linked

theorem evalExpr (hE : Linked E F) (hframe : L.frames frame frame') (e : Expr) :
    L.Runs K (E.evalExpr frame e) (F.evalExpr frame' e) Value.Linked := by
  have hpart : ∀ {L'} e, L.Sub L' → L'.Runs K (E.eval frame e) (F.eval frame' e) Value.Linked :=
    fun e hl => hE.eval (hl.frames hframe) e
  have hnow := Link.Sub.refl L
  cases e with
  | literal token value => exact .pure (.ofLiteral L value)
  | ref target => exact Eval.linked_readName hframe target
  | assign target value line =>
    refine (hpart value hnow).bind fun L₁ v v' h₁ hv => ?_
    refine (Eval.linked_assignName (h₁.frames hframe) target hv).bind fun L₂ _ _ h₂ _ => ?_
    exact .pure (hv.mono h₂ _ _)
  | get object name =>
    exact (hpart object hnow).bind fun L₁ v v' _ hv => hE.readProperty hv name
  | set object name value line =>
    refine (hpart object hnow).bind fun L₁ o o' h₁ ho => ?_
    refine (hpart value h₁).bind fun L₂ v v' h₂ hv => ?_
    exact assignProperty (ho.mono h₂ _ _) hv name
  | conditional condition mark yes no =>
    refine (hpart condition hnow).bind fun L₁ v v' h₁ hv => ?_
    rw [hv.isTruthy]
    split
    · exact hpart yes h₁
    · exact hpart no h₁
  | lambda function =>
    exact (Eval.linked_closure hframe function false).bind fun L₁ f f' _ hf => .pure (.function hf)
  | comma left op right => exact (hpart left hnow).bind fun L₁ _ _ h₁ _ => hpart right h₁
  | binary left op right =>
    refine (hpart left hnow).bind fun L₁ a a' h₁ ha => ?_
    refine (hpart right h₁).bind fun L₂ b b' h₂ hb => ?_
    exact hE.applyBinary op (ha.mono h₂ _ _) hb
  | logical left op right =>
    refine (hpart left hnow).bind fun L₁ v v' h₁ hv => ?_
    rw [hv.isTruthy]
    split
    · exact .pure hv
    · exact hpart right h₁
  | unary op operand =>
    exact (hpart operand hnow).bind fun L₁ v v' _ hv => .located (hv.unary op) op
  | call callee paren arguments =>
    refine (hpart callee hnow).bind fun L₁ f f' h₁ hf => ?_
    refine (hE.evalAll (h₁.frames hframe) arguments).bind fun L₂ args args' h₂ hargs => ?_
    exact hE.call callee.firstToken paren (hf.mono h₂ _ _) hargs
  | this target => exact Eval.linked_readName hframe target
  | super target method => exact hE.readSuper hframe target method
  | grouping paren content => exact hpart content hnow
  | list bracket elements =>
    exact (hE.evalAll hframe elements).bind fun L₁ vs vs' _ hvs => .pure (.list hvs)
  | invalid token => exact .defect .invalidExpression

lemma loop {condition condition' : Eval Bool} {body body' : Eval Completion}
    (hcondition : ∀ {L'}, L.Sub L' → L'.Runs K condition condition' fun _ b b' => b' = b)
    (hbody : ∀ {L'}, L.Sub L' → L'.Runs K body body' Completion.Linked) (turns : Nat) {L' : Link}
    (hl : L.Sub L') :
    L'.Runs K (Evaluator.loop condition body turns) (Evaluator.loop condition' body' turns)
      Completion.Linked := by
  induction turns generalizing L' with
  | zero => exact .throw (.same _)
  | succ turns ih =>
    refine (hcondition hl).bind fun L₁ b b' h₁ hb => ?_
    cases hb
    cases b with
    | false => exact .pure .normal
    | true =>
      refine (hbody (hl.trans h₁)).bind fun L₂ o o' h₂ ho => ?_
      cases ho with
      | normal => exact ih ((hl.trans h₁).trans h₂)
      | returned hv => exact .pure (.returned hv)
      | broke => exact .pure .normal

lemma superclass (hframe : L.frames frame frame') (target : Option Reference) :
    L.Runs K (Evaluator.superclass frame target) (Evaluator.superclass frame' target)
      fun L' c c' => Option.Rel (L'.classes false) c c' := by
  cases target with
  | none => exact .pure .none
  | some target =>
    refine (Eval.linked_readName hframe target).bind fun L₁ v v' _ hv => ?_
    cases hv with
    | cls hc => exact .pure (.some hc)
    | _ => exact .fail _ target.name

lemma memberFrame (hframe : L.frames frame frame') {parent parent' : Option Class}
    (h : Option.Rel (L.classes false) parent parent') :
    L.Runs K (Evaluator.memberFrame frame parent) (Evaluator.memberFrame frame' parent')
      fun L' i i' => L'.frames i i' := by
  cases h with
  | none => exact .pure hframe
  | some hc =>
    refine (Eval.linked_newFrame hframe).bind fun L₁ i i' h₁ hi => ?_
    refine (Eval.linked_define hi (.cls (h₁.classes hc)) Eval.superName).bind fun L₂ _ _ h₂ _ => ?_
    exact .pure (h₂.frames hi)

lemma memberTable {inside inside' : FrameId} (h : L.frames inside inside') (isStatic : Bool)
    (members : List Function) :
    Table.Alike (Method.Linked L) (Evaluator.memberTable inside isStatic members)
      (Evaluator.memberTable inside' isStatic members) := by
  unfold Evaluator.memberTable
  suffices hfold : ∀ t t' : Table Method, Table.Alike (Method.Linked L) t t' →
      Table.Alike (Method.Linked L)
        (members.foldl (fun t f => t.put f.name ⟨f, inside, f.isInitializer isStatic⟩) t)
        (members.foldl (fun t f => t.put f.name ⟨f, inside', f.isInitializer isStatic⟩) t') from
    hfold .empty .empty fun _ => .none
  induction members with
  | nil => exact fun t t' ht => ht
  | cons m members ih =>
    refine fun t t' ht => ih _ _ fun name => ?_
    rw [Table.find?_put, Table.find?_put]
    split
    · exact .some ⟨rfl, h, rfl⟩
    · exact ht name

lemma newClass {isMeta : Bool} (name : String) {inside inside' : FrameId}
    (hinside : L.frames inside inside') (members : List Function)
    {parent parent' mc mc' : Option Class} (hp : Option.Rel (L.classes isMeta) parent parent')
    (hmc : Option.Rel (L.classes true) mc mc') (hsome : mc.isSome = !isMeta)
    (hparallel : ∀ m, mc = some m → m.superclass? = parent.bind Class.metaclass? ∧ isMeta = false ∧
      ∃ statics, m.methods = Evaluator.memberTable inside true statics) :
    L.Runs K (Eval.newClass name parent mc (Evaluator.memberTable inside isMeta members))
      (Eval.newClass name parent' mc' (Evaluator.memberTable inside' isMeta members))
      fun L' c c' => L'.classes isMeta c c' ∧ c.superclass? = parent ∧
        c.methods = Evaluator.memberTable inside isMeta members := by
  intro s t hs
  let c : Class := .mk s.fields.size name parent mc (Evaluator.memberTable inside isMeta members)
  let c' : Class :=
    .mk t.fields.size name parent' mc' (Evaluator.memberTable inside' isMeta members)
  have hc : c.Linked L isMeta c' :=
    ⟨hs.sizeFields, rfl, hp, hmc, hsome, memberTable hinside isMeta members⟩
  have hsame : L.Diagonal → c' = c := by
    intro hL
    have hclass {b : Bool} {d d' : Option Class} (h : Option.Rel (L.classes b) d d') : d' = d := by
      cases h with
      | none => rfl
      | some h => exact congrArg some (hL.classes h)
    simp only [c, c', hs.sizeFields, hclass hp, hclass hmc, hL.frames hinside]
  have hplace : ∀ m, c.metaclass? = some m → c.IsParallel m := by
    intro m hm
    obtain ⟨hsuper, rfl, statics, hstatics⟩ := hparallel m hm
    exact ⟨hsuper, inside, members, statics, rfl, hstatics⟩
  obtain ⟨L', hl, hcls, hs'⟩ := Store.Linked.newClass hs rfl hplace hc hsame
  exact .ok L' hl hs' ⟨hcls, rfl, rfl⟩

lemma declareClass (hframe : L.frames frame frame') (name : Token) (target : Option Reference)
    (methods statics : List Function) :
    L.Runs K (Evaluator.declareClass frame name target methods statics)
      (Evaluator.declareClass frame' name target methods statics) fun _ _ _ => True := by
  refine (superclass hframe target).bind fun L₁ parent parent' h₁ hparent => ?_
  refine (memberFrame (h₁.frames hframe) hparent).bind fun L₂ i i' h₂ hi => .sound fun hL => ?_
  have hparent₂ := optionRel_mono hparent fun _ _ hc => h₂.classes hc
  have hmeta : Option.Rel (L₂.classes true) (parent.bind Class.metaclass?)
      (parent'.bind Class.metaclass?) := by
    cases hparent₂ with
    | none => exact .none
    | some hc => exact (hL.classes hc).metaclass
  refine (newClass _ hi statics hmeta .none rfl nofun).bind fun L₃ mc mc' h₃ hmc => ?_
  have hparent₃ := optionRel_mono hparent₂ fun _ _ hc => h₃.classes hc
  refine (newClass _ (h₃.frames hi) methods hparent₃ (.some hmc.1) rfl ?_).bind
    fun L₄ c c' h₄ hc => ?_
  · rintro m ⟨⟩
    exact ⟨hmc.2.1, rfl, statics, hmc.2.2⟩
  · have hframe₄ := (h₁.trans (h₂.trans (h₃.trans h₄))).frames hframe
    exact Eval.linked_define hframe₄ (.cls hc.1) name.lexeme

theorem execStmt (hE : Linked E F) (hframe : L.frames frame frame') (st : Stmt) :
    L.Runs K (E.execStmt frame st) (F.execStmt frame' st) Completion.Linked := by
  have hvalue : ∀ {L'} e, L.Sub L' → L'.Runs K (E.eval frame e) (F.eval frame' e) Value.Linked :=
    fun e hl => hE.eval (hl.frames hframe) e
  have hpart : ∀ {L'} st, L.Sub L' →
      L'.Runs K (E.exec frame st) (F.exec frame' st) Completion.Linked :=
    fun st hl => hE.exec (hl.frames hframe) st
  have hnow := Link.Sub.refl L
  cases st with
  | expression line value => exact (hvalue value hnow).bind fun L₁ _ _ _ _ => .pure .normal
  | print keyword value =>
    refine (hvalue value hnow).bind fun L₁ v v' h₁ hv => ?_
    refine (hE.guardDepth hv).bind fun L₂ _ _ h₂ _ => .sound fun hL => ?_
    have htext : v'.text = v.text := (hv.mono h₂ _ _).write hL false _ _
    rw [htext]
    have hprint : L₂.Runs K (modify (·.printLine v.text)) (modify (·.printLine v.text))
        fun _ _ _ => True := .change fun s t hs => hs.printLine v.text
    exact hprint.bind fun L₃ _ _ _ _ => .pure .normal
  | var name init =>
    cases init with
    | none =>
      exact (Eval.linked_declare hframe name.lexeme).bind fun L₁ _ _ _ _ => .pure .normal
    | some init =>
      refine (hvalue init hnow).bind fun L₁ v v' h₁ hv => ?_
      refine (Eval.linked_define (h₁.frames hframe) hv name.lexeme).bind fun L₂ _ _ _ _ => ?_
      exact .pure .normal
  | block line body =>
    exact (Eval.linked_newFrame hframe).bind fun L₁ i i' _ hi => hE.execAll hi body
  | ifElse keyword condition yes no =>
    refine (hvalue condition hnow).bind fun L₁ v v' h₁ hv => ?_
    rw [hv.isTruthy]
    split
    · exact hpart yes h₁
    · cases no with
      | none => exact .pure .normal
      | some no => exact hpart no h₁
  | whileLoop keyword condition body =>
    change L.Runs K
      (Evaluator.loop (Value.isTruthy <$> E.eval frame condition) (E.exec frame body) E.turns)
      (Evaluator.loop (Value.isTruthy <$> F.eval frame' condition) (F.exec frame' body) F.turns) _
    rw [hE.turns]
    refine loop (L := L) (fun hl => ?_) (fun hl => hpart body hl) E.turns hnow
    exact (hvalue condition hl).bind fun L₁ v v' _ hv => .pure hv.isTruthy
  | breakLoop keyword => exact .pure .broke
  | returnValue keyword value =>
    cases value with
    | none => exact .pure (.returned .nil)
    | some value =>
      exact (hvalue value hnow).bind fun L₁ v v' _ hv => .pure (.returned hv)
  | function function =>
    refine (Eval.linked_closure hframe function false).bind fun L₁ f f' h₁ hf => ?_
    refine (Eval.linked_define (h₁.frames hframe) (.function hf) function.name).bind
      fun L₂ _ _ _ _ => ?_
    exact .pure .normal
  | classDecl name target line methods statics =>
    exact (declareClass hframe name target methods statics).bind fun L₁ _ _ _ _ => .pure .normal
  | invalid token => exact .defect .invalidStatement

lemma within (hE : Linked E F) : Linked (.within E) (.within F) where
  levels := congrArg Nat.succ hE.levels
  turns := hE.turns
  eval hframe e := hE.evalExpr hframe e
  exec hframe st := hE.execStmt hframe st

end Linked

lemma linked_exhausted (turns : Nat) : Linked (exhausted turns) (exhausted turns) :=
  ⟨rfl, rfl, fun _ _ => .throw (.same _), fun _ _ => .throw (.same _)⟩

lemma linked_deep (turns levels : Nat) : Linked (deep turns levels) (deep turns levels) := by
  induction levels with
  | zero => exact linked_exhausted turns
  | succ levels ih => exact ih.within

end Evaluator

theorem Link.Runs.atGlobals {α β : Type} {act : Eval α} {act' : Eval β} {Q : Link → α → β → Prop}
    (h : L.frames Store.globals Store.globals → L.Runs K act act' Q) : L.Runs K act act' Q :=
  fun s t hs => h hs.globals s t hs

namespace Eval

lemma linked_expression (hE : Evaluator.Linked E F) (e : Expr) :
    L.Runs K (expression E e) (expression F e) Value.Linked :=
  .atGlobals fun hglobals => (hE.eval hglobals e).reportingDepth _

lemma linked_program (hE : Evaluator.Linked E F) (body : List Stmt) {v v' : Value}
    (hv : v.Linked L v') : L.Runs K (program E v body) (program F v' body) Value.Linked := by
  induction body generalizing L v v' with
  | nil => exact .pure hv
  | cons st body ih =>
    rcases program_cons st with ⟨line, value, rfl⟩ | hst
    · exact (linked_expression hE value).bind fun L₁ w w' _ hw => ih hw
    · rw [hst, hst]
      refine .atGlobals fun hglobals => ?_
      refine ((hE.exec hglobals st).reportingDepth _).bind fun L₁ o o' h₁ ho => ?_
      cases ho with
      | normal => exact ih (hv.mono h₁ _ _)
      | returned hv => exact .throw (.escaped hv)
      | broke => exact .defect .escapedBreak

end Eval

end Lox
