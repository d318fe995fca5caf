import Lox.Proofs.Eval.Parts
import Lox.Proofs.Receiver.Super

namespace Lox

variable {sources : List String} {d : Defect} {s : Store} {E F : Evaluator} {frame : FrameId}

lemma Store.Situates.owned_closure {n : Node} (h : s.Situates frame n) {c : Closure}
    (hnamed : c.function.Named) (hbody : ∀ st ∈ c.function.body, n.Part (.stmt st))
    (hframe : c.frame = frame) : c.Owned s := by
  refine ⟨hnamed, hframe ▸ h.lt, fun st hst => ?_⟩
  rw [hframe]
  exact (h.part (hbody st hst)).within

namespace Evaluator

namespace Tracked

lemma evalExpr (hE : Tracked d E F) {e : Expr} (hseen : Node.Seen sources frame (.expr e) s)
    (h : s.Situates frame (.expr e)) :
    Tracks d s (E.evalExpr frame e) (F.evalExpr frame e) fun s' v => v.Owned s' := by
  have hpart : ∀ {s'} e', s.Extends s' → e' ∈ e.operands →
      Tracks d s' (E.eval frame e') (F.eval frame e') fun s' v => v.Owned s' :=
    fun e' hl he => hE.eval ((h.part (.operand he)).mono hl)
  have hnow := Store.Extends.refl s
  have hnamed := hseen.named
  cases e with
  | literal token value => exact .pure ((Value.hereditary_owned s).ofLiteral value)
  | ref target => exact Eval.tracks_readName frame target
  | assign target value line =>
    refine (hpart value hnow (by simp [Expr.operands])).bind fun s₁ v h₁ hv => ?_
    refine (Eval.tracks_assignName frame hnamed hv).bind fun s₂ _ h₂ _ => ?_
    exact .pure (hv.mono h₂)
  | get object name =>
    refine (hpart object hnow (by simp [Expr.operands])).bind fun s₁ v _ hv => ?_
    exact hE.readProperty hv name
  | set object name value line =>
    refine (hpart object hnow (by simp [Expr.operands])).bind fun s₁ o h₁ _ => ?_
    refine (hpart value h₁ (by simp [Expr.operands])).bind fun s₂ v _ hv => ?_
    exact assignProperty o name hv
  | conditional condition mark yes no =>
    refine (hpart condition hnow (by simp [Expr.operands])).bind fun s₁ v h₁ _ => ?_
    split
    · exact hpart yes h₁ (by simp [Expr.operands])
    · exact hpart no h₁ (by simp [Expr.operands])
  | lambda function =>
    refine (Eval.tracks_closure function frame false).bind fun s₁ f h₁ hf => .pure ?_
    obtain ⟨rfl, hframe⟩ := hf
    exact .function ((h.mono h₁).owned_closure hnamed (fun st hst => .lambda hst) hframe)
  | comma left op right =>
    refine (hpart left hnow (by simp [Expr.operands])).bind fun s₁ _ h₁ _ => ?_
    exact hpart right h₁ (by simp [Expr.operands])
  | binary left op right =>
    refine (hpart left hnow (by simp [Expr.operands])).bind fun s₁ a h₁ _ => ?_
    refine (hpart right h₁ (by simp [Expr.operands])).bind fun s₂ b _ _ => ?_
    exact hE.applyBinary op a b
  | logical left op right =>
    refine (hpart left hnow (by simp [Expr.operands])).bind fun s₁ v h₁ hv => ?_
    split
    · exact .pure hv
    · exact hpart right h₁ (by simp [Expr.operands])
  | unary op operand =>
    refine (hpart operand hnow (by simp [Expr.operands])).bind fun s₁ v _ _ => ?_
    exact .located (fun u hu => (Value.hereditary_owned s₁).unary hu) op
  | call callee paren arguments =>
    refine (hpart callee hnow (by simp [Expr.operands])).bind fun s₁ f h₁ hf => ?_
    have harguments : ∀ e ∈ arguments, s₁.Situates frame (.expr e) :=
      fun e he => (h.part (.operand (List.mem_cons_of_mem callee he))).mono h₁
    refine (hE.evalAll harguments).bind fun s₂ args h₂ hargs => ?_
    exact hE.call callee.firstToken paren (hf.mono h₂) hargs
  | this target => exact Eval.tracks_readName frame target
  | super target method => exact hE.readSuper hseen h
  | grouping paren content => exact hpart content hnow (by simp [Expr.operands])
  | list bracket elements =>
    refine (hE.evalAll fun e he => h.part (.operand he)).bind fun s₁ vs _ hvs => ?_
    exact .pure (.list hvs)
  | invalid token => exact .defect .invalidExpression

end Tracked

lemma tracks_loop {condition condition' : Eval Bool} {body body' : Eval Completion}
    (hcondition : ∀ {s'}, s.Extends s' → Tracks d s' condition condition' fun _ _ => True)
    (hbody : ∀ {s'}, s.Extends s' → Tracks d s' body body' fun s' o => o.Owned s') (turns : Nat)
    {s' : Store} (hl : s.Extends s') :
    Tracks d s' (loop condition body turns) (loop condition' body' turns)
      fun s' o => o.Owned s' := by
  induction turns generalizing s' with
  | zero => exact .throw _
  | succ turns ih =>
    refine (hcondition hl).bind fun s₁ b h₁ _ => ?_
    cases b with
    | false => exact .pure trivial
    | true =>
      refine (hbody (hl.trans h₁)).bind fun s₂ o h₂ ho => ?_
      cases o with
      | normal => exact ih ((hl.trans h₁).trans h₂)
      | returned v => exact .pure ho
      | broke => exact .pure trivial

lemma tracks_superclass (frame : FrameId) (target : Option Reference) :
    Tracks d s (superclass frame target) (superclass frame target)
      fun s' c => ∀ parent, c = some parent → parent.Owned s' := by
  cases target with
  | none => exact .pure fun parent hp => nomatch hp
  | some target =>
    refine (Eval.tracks_readName frame target).bind fun s₁ v _ hv => ?_
    cases hv with
    | cls hc =>
      refine .pure ?_
      rintro _ ⟨⟩
      exact hc
    | _ => exact .fail _ target.name

theorem tracks_memberFrame (h : frame < s.frames.size)
    (hsuper : s.lookup? frame Eval.superName = none) {c : Option Class}
    (hc : ∀ parent, c = some parent → parent.Owned s) :
    Tracks d s (memberFrame frame c) (memberFrame frame c) fun s' inside =>
      inside < s'.frames.size ∧
        s'.lookup? inside Eval.superName = c.map fun c => ⟨.cls c, true⟩ := by
  cases c with
  | none => exact .pure ⟨h, hsuper⟩
  | some parent =>
    have hframe : memberFrame frame (some parent) s =
        .ok s.frames.size (s.enclose frame Eval.superName (.cls parent)) := rfl
    refine .step hframe fun hs => ?_
    obtain ⟨hl, hs'⟩ := hs.enclose h (.cls (hc parent rfl)) Eval.superName
    refine ⟨hl, hs', ?_, ?_⟩
    · rw [Store.size_enclose]
      exact Nat.lt_succ_self _
    · rw [Store.lookup?_enclose, if_pos rfl, if_pos rfl]
      rfl

lemma tracks_declareClass {n : Node} (h : s.Situates frame n) {name : Token}
    (hname : name.IsName) (target : Option Reference) {methods statics : List Function}
    (hmethods : ∀ f ∈ methods, f.Named) (hstatics : ∀ f ∈ statics, f.Named) :
    Tracks d s (declareClass frame name target methods statics)
      (declareClass frame name target methods statics) fun _ _ => True := by
  refine (tracks_superclass frame target).bind fun s₁ parent h₁ hparent => ?_
  have hframe := h.mono h₁
  refine (tracks_memberFrame hframe.lt hframe.super hparent).bind fun s₂ inside h₂ hinside => ?_
  refine (Eval.tracks_newClass _ _ none _).bind fun s₃ mc h₃ hmc => ?_
  refine (Eval.tracks_newClass _ parent (some mc) _).bind fun s₄ c h₄ hc => ?_
  obtain ⟨_, rfl⟩ := hmc
  obtain ⟨_, rfl⟩ := hc
  refine Eval.tracks_define frame hname.not_mem_reserved (.cls ?_)
  have hl := h₃.trans h₄
  have hmember : ∀ {isStatic} {fs : List Function}, (∀ f ∈ fs, f.Named) → ∀ key m,
      (memberTable inside isStatic fs).find? key = some m → m.frame = inside ∧ m.function.Named := by
    intro isStatic fs hfs key m hm
    obtain ⟨f, hf, rfl⟩ := mem_memberTable hm
    exact ⟨rfl, hfs f hf⟩
  refine .mk rfl rfl (fun c hc => (hparent c hc).mono (h₂.trans hl))
    (Nat.lt_of_lt_of_le hinside.1 hl.size) ?_ fun isStatic => ?_
  · -- Superclasses are bound in new frames only, so the frame of the members binds what it did.
    exact (hl.lookup? inside hinside.1 _ (by decide)).trans hinside.2
  · cases isStatic with
    | false => exact hmember hmethods
    | true => exact hmember hstatics

namespace Tracked

lemma execStmt (hE : Tracked d E F) {st : Stmt} (hseen : Node.Seen sources frame (.stmt st) s)
    (h : s.Situates frame (.stmt st)) :
    Tracks d s (E.execStmt frame st) (F.execStmt frame st) fun s' o => o.Owned s' := by
  have hvalue : ∀ {s'} e, s.Extends s' → Node.Part (.stmt st) (.expr e) →
      Tracks d s' (E.eval frame e) (F.eval frame e) fun s' v => v.Owned s' :=
    fun e hl he => hE.eval ((h.part he).mono hl)
  have hpart : ∀ {s'} st', s.Extends s' → Node.Part (.stmt st) (.stmt st') →
      Tracks d s' (E.exec frame st') (F.exec frame st') fun s' o => o.Owned s' :=
    fun st' hl hst => hE.exec ((h.part hst).mono hl)
  have hnow := Store.Extends.refl s
  have hnamed := hseen.named
  cases st with
  | expression line value =>
    exact (hvalue value hnow (.leading rfl)).bind fun s₁ _ _ _ => .pure trivial
  | print keyword value =>
    refine (hvalue value hnow (.leading rfl)).bind fun s₁ v _ _ => ?_
    refine (hE.guardDepth v).bind fun s₂ _ _ _ => ?_
    refine Tracks.bind (Q := fun _ _ => True) (.step rfl fun hs => ?_) fun s₃ _ _ _ => .pure trivial
    obtain ⟨hl, hs'⟩ : s₂.Extends (s₂.printLine v.text) ∧ (s₂.printLine v.text).Owned :=
      hs.congr rfl rfl
    exact ⟨hl, hs', trivial⟩
  | var name init =>
    have hname : name.lexeme ∉ reservedNames := Token.IsName.not_mem_reserved hnamed
    cases init with
    | none => exact (Eval.tracks_declare frame hname).bind fun s₁ _ _ _ => .pure trivial
    | some init =>
      refine (hvalue init hnow .init).bind fun s₁ v h₁ hv => ?_
      exact (Eval.tracks_define frame hname hv).bind fun s₂ _ _ _ => .pure trivial
  | block line body =>
    refine (Eval.tracks_newFrame h.lt).bind fun s₁ id h₁ hid => hE.execAll fun st hst => ?_
    obtain ⟨hlt, hparent, hempty⟩ := hid
    -- The frame of the block binds nothing, so the receiver around it is that around the block.
    have hinside : s.Within frame (.stmt st) := (h.part (.block hst)).within
    exact ⟨hlt, hempty _, (hinside.mono h.lt h₁).enter (hempty _) hparent⟩
  | ifElse keyword condition yes no =>
    refine (hvalue condition hnow (.leading rfl)).bind fun s₁ v h₁ _ => ?_
    split
    · exact hpart yes h₁ .yes
    · cases no with
      | none => exact .pure trivial
      | some no => exact hpart no h₁ .no
  | whileLoop keyword condition body =>
    change Tracks d s
      (loop (Value.isTruthy <$> E.eval frame condition) (E.exec frame body) E.turns)
      (loop (Value.isTruthy <$> F.eval frame condition) (F.exec frame body) F.turns) _
    rw [hE.turns]
    refine tracks_loop (s := s) (fun hl => ?_) (fun hl => hpart body hl .loopBody) E.turns hnow
    exact (hvalue condition hl (.leading rfl)).bind fun s₁ v _ _ => .pure trivial
  | breakLoop keyword => exact .pure trivial
  | returnValue keyword value =>
    cases value with
    | none => exact .pure .nil
    | some value => exact (hvalue value hnow .returned).bind fun s₁ v _ hv => .pure hv
  | function function =>
    refine (Eval.tracks_closure function frame false).bind fun s₁ f h₁ hf => ?_
    obtain ⟨rfl, hframe⟩ := hf
    have hf := (h.mono h₁).owned_closure hnamed.2 (fun st hst => .named hst) hframe
    exact (Eval.tracks_define frame hnamed.1.not_mem_reserved (.function hf)).bind
      fun s₂ _ _ _ => .pure trivial
  | classDecl name target line methods statics =>
    obtain ⟨hname, hmethods, hstatics⟩ := hnamed
    exact (tracks_declareClass h hname target hmethods hstatics).bind
      fun s₁ _ _ _ => .pure trivial
  | invalid token => exact .defect .invalidStatement

end Tracked

def Grants (sources : List String) (proper : FrameId → Node → Store → Prop) : Prop :=
  ∀ {frame node s}, Node.Seen sources frame node s → s.Situates frame node → proper frame node s

variable {proper : FrameId → Node → Store → Prop}

lemma tracked_watched (hproper : Grants sources proper) (hlevels : F.levels = E.levels)
    (hturns : F.turns = E.turns)
    (heval : ∀ {s : Store} {frame : FrameId} {e : Expr}, Node.Seen sources frame (.expr e) s →
      s.Situates frame (.expr e) →
      Tracks d s (E.eval frame e) (F.eval frame e) fun s' v => v.Owned s')
    (hexec : ∀ {s : Store} {frame : FrameId} {st : Stmt}, Node.Seen sources frame (.stmt st) s →
      s.Situates frame (.stmt st) →
      Tracks d s (E.exec frame st) (F.exec frame st) fun s' o => o.Owned s')
    (alarm : Abort) :
    Tracked d (E.watched (Node.Seen sources) (.defect d)) (F.watched proper alarm) where
  levels := hlevels
  turns := hturns
  eval {s frame e} h := by
    intro hs
    by_cases hseen : Node.Seen sources frame (.expr e) s
    · simp only [Evaluator.watched, if_pos hseen, if_pos (hproper hseen h)]
      exact heval hseen h hs
    · simp only [Evaluator.watched, if_neg hseen]
      exact .inl ⟨s, rfl⟩
  exec {s frame st} h := by
    intro hs
    by_cases hseen : Node.Seen sources frame (.stmt st) s
    · simp only [Evaluator.watched, if_pos hseen, if_pos (hproper hseen h)]
      exact hexec hseen h hs
    · simp only [Evaluator.watched, if_neg hseen]
      exact .inl ⟨s, rfl⟩

lemma tracked_deepWatched (hproper : Grants sources proper) (d : Defect) (alarm : Abort)
    (turns levels : Nat) :
    Tracked d (.deepWatched (Node.Seen sources) (.defect d) turns levels)
      (.deepWatched proper alarm turns levels) := by
  induction levels with
  | zero => exact tracked_watched hproper rfl rfl (fun _ _ => .throw _) (fun _ _ => .throw _) alarm
  | succ levels ih =>
    exact tracked_watched (E := within _) (F := within _) hproper (congrArg Nat.succ ih.levels)
      ih.turns (fun hseen h => ih.evalExpr hseen h) (fun hseen h => ih.execStmt hseen h) alarm

theorem Tracked.program (hE : Tracked d E F) (body : List Stmt) {last : Value}
    (hlast : last.Owned s) :
    Tracks d s (Eval.program E last body) (Eval.program F last body) fun s' v => v.Owned s' := by
  induction body generalizing s last with
  | nil => exact .pure hlast
  | cons st body ih =>
    refine .owned fun hs => ?_
    rcases Eval.program_cons st with ⟨line, value, rfl⟩ | hst
    · exact ((hE.eval (hs.situates_globals _)).reportingDepth _).bind fun s₁ v _ hv => ih hv
    · rw [hst, hst]
      refine ((hE.exec (hs.situates_globals _)).reportingDepth _).bind fun s₁ o h₁ _ => ?_
      cases o with
      | normal => exact ih (hlast.mono h₁)
      | returned v => exact .defect (.escapedReturn v)
      | broke => exact .defect .escapedBreak

end Evaluator

end Lox
