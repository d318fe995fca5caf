import Lox.Proofs.Eval.Expression

namespace Lox

variable {sources : List String} {w : World} {s : Store} {frame : FrameId} {p : Site}

lemma Runs.map {α β : Type} {x x' : Eval α} {Q : Outcome α} {R : Outcome β} {f : α → β}
    (h : Runs sources w s x x' Q) (hf : ∀ w' s' a, Q w' s' a → R w' s' (f a)) :
    Runs sources w s (f <$> x) (f <$> x') R := by
  rw [map_eq_pure_bind, map_eq_pure_bind]
  exact h.bind fun w' s' a _ ha => .pure (hf w' s' a ha)

def Looped (sources : List String) (p : Site) : Outcome Completion := fun w s outcome =>
  (∀ v, outcome = .returned v → v.Returned sources w s p.around.routine) ∧
    outcome ≠ .broke

theorem Evaluator.runs_loop {c c' : Eval Bool} {b b' : Eval Completion}
    (hc : ∀ {w' s'}, Later w s w' s' → Runs sources w' s' c c' fun _ _ _ => True)
    (hb : ∀ {w' s'}, Later w s w' s' → Runs sources w' s' b b' fun w'' s'' outcome =>
      ∀ v, outcome = .returned v → v.Returned sources w'' s'' p.around.routine)
    (turns : Nat) :
    Runs sources w s (loop c b turns) (loop c' b' turns) (Looped sources p) := by
  induction turns generalizing w s with
  | zero => exact .throw trivial
  | succ turns ih =>
    refine (hc (.refl w s)).bind fun w₁ s₁ goesOn h₁ _ => ?_
    split
    · refine (hb h₁).bind fun w₂ s₂ outcome h₂ ho => ?_
      cases outcome with
      | normal =>
        exact ih (fun hl => hc ((h₁.trans h₂).trans hl)) fun hl => hb ((h₁.trans h₂).trans hl)
      | broke => exact .pure ⟨fun v hv => (nomatch hv), fun hb => nomatch hb⟩
      | returned v =>
        refine .pure ⟨fun u hu => ?_, fun hb => nomatch hb⟩
        cases hu
        exact ho v rfl
    · exact .pure ⟨fun v hv => (nomatch hv), fun hb => nomatch hb⟩

lemma Evaluator.mem_memberTable {isStatic : Bool} {members : List Function} {name : String}
    {m : Method} (h : (memberTable frame isStatic members).find? name = some m) :
    ∃ f ∈ members, m = ⟨f, frame, f.isInitializer isStatic⟩ := by
  unfold memberTable at h
  suffices hfold : ∀ t : Table Method,
      (members.foldl (fun t f => t.put f.name ⟨f, frame, f.isInitializer isStatic⟩) t).find? name =
        some m → t.find? name = some m ∨ ∃ f ∈ members, m = ⟨f, frame, f.isInitializer isStatic⟩ by
    rcases hfold .empty h with h | h
    · cases h
    · exact h
  clear h
  induction members with
  | nil => exact fun t h => .inl h
  | cons f members ih =>
    intro t h
    rcases ih _ h with h | ⟨g, hg, hm⟩
    · rw [Table.find?_put] at h
      split at h
      · cases h
        exact .inr ⟨f, List.mem_cons_self, rfl⟩
      · exact .inl h
    · exact .inr ⟨g, List.mem_cons_of_mem f hg, hm⟩

theorem Visits.mem_members (hsound : AllSound sources) {isStatic : Bool} {fs : List Function}
    (h : Visits sources p (.members isStatic fs)) {f : Function} (hf : f ∈ p.members isStatic fs) :
    ∃ q g, Visits sources q (.function (Resolver.memberRoutine isStatic g) g) ∧
      f = q.function (Resolver.memberRoutine isStatic g) g ∧
        q.scopes.outline = p.scopes.outline ∧ q.closing = p.closing := by
  induction fs generalizing p with
  | nil => cases hf
  | cons g fs ih =>
    rcases List.mem_cons.mp hf with rfl | hf
    · exact ⟨p, g, h.enter .headMember, rfl, rfl, rfl⟩
    · obtain ⟨q, g', hvisits, hfunction, houtline, hclosing⟩ := ih (h.enter .tailMembers) hf
      have hkeeps := Resolver.keeping_resolveFunction p.around
        (Resolver.memberRoutine isStatic g) g (h.sound hsound).wellFormed.1 p.scopes
      exact ⟨q, g', hvisits, hfunction, houtline.trans hkeeps.outline, hclosing⟩

lemma Visits.fits_memberTable (hsound : AllSound sources) {isStatic : Bool}
    {fs : List Function} (h : Visits sources p (.members isStatic fs))
    {outer : List (String → Option Bool)}
    (houtline : p.scopes.outline = Scopes.only Eval.thisName :: outer)
    (hfollows : Follows w s frame outer p.closing.tail) {name : String} {m : Method}
    (hm : (Evaluator.memberTable frame isStatic (p.members isStatic fs)).find? name = some m) :
    m.Fits sources w s isStatic := by
  obtain ⟨f, hf, rfl⟩ := Evaluator.mem_memberTable hm
  obtain ⟨q, g, hvisits, rfl, houtline', hclosing⟩ := h.mem_members hsound hf
  refine ⟨q, outer, ⟨g, hvisits, rfl, ?_⟩, houtline'.trans houtline, ?_⟩
  · exact Function.isInitializer_resolved q _ g isStatic
  · rw [hclosing]
    exact hfollows

lemma Evaluator.runs_superclass (hsound : AllSound sources) {name : Token}
    {target : Option Reference} {line : Nat} {methods statics : List Function}
    (h : Stands sources w s frame p (.stmt (.classDecl name target line methods statics))) :
    Runs sources w s (superclass frame (p.superclass name target))
      (superclass frame (p.superclass name target))
      fun w' s' c => (∀ parent ∈ c, parent.Fits sources w' s' false) ∧
        c.isSome = p.hasSuper name target := by
  cases target with
  | none => exact .pure ⟨fun parent hp => (nomatch hp), rfl⟩
  | some parent =>
    have hparent := (h.visits.sound hsound).superclass.1
    rw [Site.hasSuper, hparent]
    refine (Eval.runs_readName h.follows parent).bind fun w₁ s₁ v _ hv => ?_
    cases hv.fits with
    | cls hc =>
      refine .pure ⟨?_, rfl⟩
      rintro _ ⟨⟩
      exact hc
    | _ => exact .fail rfl _

theorem Evaluator.runs_memberFrame {outline : List (String → Option Bool)}
    {closing inner : List Scope} {parent : Option Class}
    (hparent : ∀ c ∈ parent, c.Fits sources w s false)
    (hclosing : inner.drop (if parent.isSome then 1 else 0) = closing)
    (hcovers : Covers inner (Scopes.ofMembers parent.isSome outline).tail) :
    Runs sources w s (memberFrame frame parent) (memberFrame frame parent)
      fun w' s' id => ∀ {w'' s''}, Later w' s' w'' s'' → Follows w'' s'' frame outline closing →
        Follows w'' s'' id (Scopes.ofMembers parent.isSome outline).tail inner := by
  cases parent with
  | none =>
    cases hclosing
    exact .pure fun _ h => h
  | some c =>
    cases inner with
    | nil => cases hcovers
    | cons scope inner =>
      cases hclosing
      refine (Eval.runs_newFrame frame scope).bind fun w₁ s₁ id h₁ hid => ?_
      obtain ⟨hworld, hframe, hlt, -⟩ := hid
      have hc := (hparent c rfl).later h₁
      refine (Eval.runs_define hlt (fun _ => ⟨scope, hworld, hcovers.1 _ rfl⟩)
        (fun hl _ => .cls (hc.later hl)) (by decide) fun _ => ⟨c, rfl⟩).bind
        fun w₂ s₂ _ h₂ hbound => .pure fun {w₃ s₃} h₃ houter => ?_
      have hl := h₂.trans h₃
      exact houter.only (hl.parent _ _ hframe) (getElem?_mono hl.world hworld)
        (h₃.binds _ _ hbound)

lemma Site.tail_closing_inMembers (p : Site) (hasSuper : Bool)
    (methods statics : List Function) :
    (p.inMembers hasSuper methods statics).closing.tail.drop (if hasSuper then 1 else 0) =
      p.closing := by
  cases hasSuper <;> rfl

lemma Site.outline_inClass (p : Site) (name : Token) (superclass : Option Reference)
    (methods statics : List Function) :
    (p.inClass name superclass methods statics).scopes.outline =
      Scopes.ofMembers (p.hasSuper name superclass)
        (p.scopes.outline.modifyHead (Scopes.passing (some name))) := by
  rw [← p.outline_afterSuperclass name superclass]
  exact outline_inMembers _ _ _ _

theorem Stands.runs_define (hsound : AllSound sources) {st : Stmt} {t : Token} {w' : World}
    {s' : Store} (h : Stands sources w s frame p (.stmt st)) (ht : st.declared? = some t)
    (hl : Later w s w' s') {v : Value}
    (hv : ∀ {s''}, Later w' s' w' s'' → s''.binds frame t.lexeme → v.Fits sources w' s'') :
    Runs sources w' s' (Eval.define frame t.lexeme v) (Eval.define frame t.lexeme v)
      fun _ s'' _ => s''.binds frame t.lexeme := by
  have hname : t.IsName := Site.isName_declared (h.visits.sound hsound).wellFormed t ht
  refine .fitting fun hs' => Eval.runs_define ((h.follows.later hl).lt_size hs') (fun hne => ?_) hv
    hname.2.1 fun hsuper => absurd hsuper hname.2.2
  obtain ⟨scope, hworld, hbinds⟩ := (h.declaring hsound ht).2 hne
  exact ⟨scope, getElem?_mono hl.world hworld, hbinds⟩

theorem Evaluator.runs_declareClass (hsound : AllSound sources) {name : Token}
    {target : Option Reference} {line : Nat} {methods statics : List Function}
    (h : Stands sources w s frame p (.stmt (.classDecl name target line methods statics))) :
    let q := p.inClass name target methods statics
    let r := q.passed (Resolver.resolveMembers q.around false methods)
    Runs sources w s
      (declareClass frame name (p.superclass name target) (q.members false methods)
        (r.members true statics))
      (declareClass frame name (p.superclass name target) (q.members false methods)
        (r.members true statics))
      fun _ s' _ => s'.binds frame name.lexeme := by
  intro q r
  have hwell := (h.visits.sound hsound).wellFormed
  have hmethods : Visits sources q (.members false methods) := h.visits.enter .methods
  have hstatics : Visits sources r (.members true statics) := h.visits.enter .statics
  have houtline : q.scopes.outline = _ := p.outline_inClass name target methods statics
  have hclosing : q.closing.tail.drop (if p.hasSuper name target then 1 else 0) = p.closing :=
    (p.afterSuperclass name target).tail_closing_inMembers _ methods statics
  have hcovers := (hmethods.sound hsound).covers
  have hkeeps := (Resolver.keeping_resolveMembers q.around false methods hwell.2.2.1 q.scopes).outline
  refine (runs_superclass hsound h).bind fun w₁ s₁ parent h₁ hparent => ?_
  obtain ⟨hparent, hsuper⟩ := hparent
  rw [← hsuper] at houtline hclosing
  rw [houtline] at hcovers
  refine (runs_memberFrame hparent hclosing hcovers.tail).bind fun w₂ s₂ id h₂ hid => ?_
  refine (Eval.runs_newClass _ _ none _).bind fun w₃ s₃ mc h₃ hmc => ?_
  obtain ⟨metaId, rfl, hmetaOwner⟩ := hmc
  refine (Eval.runs_newClass _ _ _ _).bind fun w₄ s₄ made h₄ hmade => ?_
  obtain ⟨classId, rfl, howner⟩ := hmade
  have hlater := ((h₁.trans h₂).trans h₃).trans h₄
  refine h.runs_define hsound rfl hlater fun {s₅} h₅ hbound => ?_
  have hl := (h₃.trans h₄).trans h₅
  have hframe := hid hl ((h.follows.later (hlater.trans h₅)).passing hbound)
  have hparent₅ (c : Class) (hc : c ∈ parent) : c.Fits sources w₄ s₅ false :=
    (hparent c hc).later (h₂.trans hl)
  refine .cls (.mk (getElem?_mono h₅.owners howner) hparent₅ (fun mc hmc => ?_) ?_)
  · cases hmc
    refine .mk (getElem?_mono (h₄.trans h₅).owners hmetaOwner) (fun c hc => ?_) nofun ?_
    · obtain ⟨d, hd, hc⟩ := Option.bind_eq_some_iff.mp hc
      cases hparent₅ d hd with
      | mk _ _ hmeta _ => exact hmeta c hc
    · exact fun key m hm => hstatics.fits_memberTable hsound (hkeeps.trans houtline) hframe hm
  · exact fun key m hm => hmethods.fits_memberTable hsound houtline hframe hm

lemma Eval.runs_printLine (text : String) :
    Runs sources w s (modify (·.printLine text)) (modify (·.printLine text))
      fun _ _ _ => True := by
  refine .step rfl fun hs => ?_
  obtain ⟨hl, hs'⟩ : Later w s w (s.printLine text) ∧ (s.printLine text).Fits sources w :=
    hs.congr rfl rfl
  exact ⟨w, hl, hs', trivial⟩

theorem Follows.unready {outline : List (String → Option Bool)} {closing : List Scope}
    (h : Follows w s frame outline closing) (name : String) :
    Follows w s frame (outline.modifyHead (Scopes.setStatus name false)) closing := by
  cases outline with
  | nil => exact h
  | cons status outer =>
    cases closing with
    | nil => cases h
    | cons scope closing =>
      refine ⟨h.1, fun other hother => h.2.1 other ?_, h.2.2⟩
      unfold Scopes.setStatus at hother
      split at hother
      · cases hother
      · exact hother

theorem Stands.completes (hsound : AllSound sources) {st : Stmt} {w' : World} {s' : Store}
    {outcome : Completion} (h : Stands sources w s frame p (.stmt st)) (ht : st.declared? = none)
    (hl : Later w s w' s')
    (hreturned : ∀ v, outcome = .returned v → v.Returned sources w' s' p.around.routine)
    (hbroke : outcome = .broke → st.breaks = true) :
    Completes sources frame p st w' s' outcome := by
  cases outcome with
  | normal =>
    change Follows w' s' frame (p.afterStmt st).scopes.outline p.closing
    rw [h.undeclaring hsound ht]
    exact h.follows.later hl
  | returned v => exact hreturned v rfl
  | broke => exact hbroke rfl

lemma Stands.done (hsound : AllSound sources) {st : Stmt} {w' : World} {s' : Store}
    (h : Stands sources w s frame p (.stmt st)) (ht : st.declared? = none)
    (hl : Later w s w' s') : Completes sources frame p st w' s' .normal :=
  h.completes hsound ht hl (fun _ hv => nomatch hv) fun hb => nomatch hb

theorem Stands.declared (hsound : AllSound sources) {st : Stmt} {t : Token} {w' : World}
    {s' : Store} (h : Stands sources w s frame p (.stmt st)) (ht : st.declared? = some t)
    (hl : Later w s w' s') (hbound : s'.binds frame t.lexeme) :
    Completes sources frame p st w' s' .normal := by
  change Follows w' s' frame (p.afterStmt st).scopes.outline p.closing
  rw [(h.declaring hsound ht).1]
  exact (h.follows.later hl).passing hbound

lemma Stands.outline_leading (hsound : AllSound sources) {st : Stmt} {e : Expr}
    (h : Stands sources w s frame p (.stmt st)) (he : st.leading? = some e) :
    (p.afterExpr e).scopes.outline = p.scopes.outline :=
  (Resolver.keeping_resolveExpr p.around e
    (Site.wellFormed_leading (h.visits.sound hsound).wellFormed he) _).outline

lemma Completes.returned {st : Stmt} {outcome : Completion} {q : Site}
    (h : Completes sources frame q st w s outcome) (haround : q.around = p.around) :
    ∀ v, outcome = .returned v → v.Returned sources w s p.around.routine := by
  rintro v rfl
  rw [← haround]
  exact h

lemma Completes.broke {st : Stmt} {outcome : Completion} {q : Site}
    (h : Completes sources frame q st w s outcome) (ho : outcome = .broke) : st.breaks = true := by
  cases ho
  exact h

namespace Agrees

variable {E F : Evaluator}

lemma branch (hE : Agrees sources E F) (hsound : AllSound sources) {st part : Stmt} {q : Site}
    {w₀ : World} {s₀ : Store} (h : Stands sources w₀ s₀ frame p (.stmt st))
    (ht : st.declared? = none) (hl : Later w₀ s₀ w s)
    (hpart : Stands sources w s frame q (.stmt part)) (haround : q.around = p.around)
    (hbreaks : part.breaks = true → st.breaks = true) :
    Runs sources w s (E.exec frame (q.stmt part)) (F.exec frame (q.stmt part))
      (Completes sources frame p st) :=
  (hE.exec hpart).mono fun _ _ _ hl' _ ho =>
    h.completes hsound ht (hl.trans hl') (ho.returned haround) fun hb => hbreaks (ho.broke hb)

lemma execVar (hE : Agrees sources E F) (hsound : AllSound sources) {name : Token}
    {init : Option Expr} (h : Stands sources w s frame p (.stmt (.var name init))) :
    Runs sources w s (E.execStmt frame (p.stmt (.var name init)))
      (F.execStmt frame (p.stmt (.var name init)))
      (Completes sources frame p (.var name init)) := by
  cases init with
  | none =>
    have hname : name.IsName := Site.isName_declared (h.visits.sound hsound).wellFormed name rfl
    refine .fitting fun hs => ?_
    refine (Eval.runs_declare (h.follows.lt_size hs) (h.declaring hsound rfl).2 hname).bind
      fun w₁ s₁ _ h₁ hbound => .pure (h.declared hsound rfl h₁ hbound)
  | some init =>
    have hinit : Stands sources w s frame (p.passed (modify (·.declare name true)))
        (.expr init) := by
      refine ⟨h.visits.enter .init, ?_⟩
      change Follows w s frame (p.scopes.declare name true).outline p.closing
      rw [Scopes.outline_declare]
      exact h.follows.unready name.lexeme
    refine (hE.eval hinit).bind fun w₁ s₁ v h₁ hv => ?_
    exact (h.runs_define hsound rfl h₁ fun hl _ => hv.later hl).bind fun w₂ s₂ _ h₂ hbound =>
      .pure (h.declared hsound rfl (h₁.trans h₂) hbound)

lemma execIf (hE : Agrees sources E F) (hsound : AllSound sources) {keyword : Token} {c : Expr}
    {yes : Stmt} {no : Option Stmt}
    (h : Stands sources w s frame p (.stmt (.ifElse keyword c yes no))) :
    Runs sources w s (E.execStmt frame (p.stmt (.ifElse keyword c yes no)))
      (F.execStmt frame (p.stmt (.ifElse keyword c yes no)))
      (Completes sources frame p (.ifElse keyword c yes no)) := by
  have hc : (Stmt.ifElse keyword c yes no).leading? = some c := rfl
  have hcondition := h.outline_leading hsound hc
  have hyes {w₁ s₁} (h₁ : Later w s w₁ s₁) :
      Stands sources w₁ s₁ frame (p.afterExpr c) (.stmt yes) :=
    (h.part .yes rfl hcondition).later h₁
  cases no with
  | none =>
    refine (hE.eval (h.leading hc)).bind fun w₁ s₁ v h₁ _ => ?_
    split
    · exact hE.branch hsound h rfl h₁ (hyes h₁) rfl fun hb => hb
    · exact .pure (h.done hsound rfl h₁)
  | some no =>
    have hwell := (h.visits.sound hsound).wellFormed
    have hno : Stands sources w s frame ((p.afterExpr c).afterStmt yes) (.stmt no) := by
      refine h.part .no rfl (Eq.trans ?_ hcondition)
      exact ((Resolver.declaring_resolveStmt p.around yes hwell.2.1.1).branch
        hwell.2.1.2 _).outline
    refine (hE.eval (h.leading hc)).bind fun w₁ s₁ v h₁ _ => ?_
    split
    · refine hE.branch hsound h rfl h₁ (hyes h₁) rfl fun hb => ?_
      rw [Stmt.breaks, hb, Bool.true_or]
    · refine hE.branch hsound h rfl h₁ (hno.later h₁) rfl fun hb => ?_
      rw [Stmt.breaks, hb, Bool.or_true]

lemma execFunction (E F : Evaluator) (hsound : AllSound sources) {f : Function}
    (h : Stands sources w s frame p (.stmt (.function f))) :
    Runs sources w s (E.execStmt frame (p.stmt (.function f)))
      (F.execStmt frame (p.stmt (.function f))) (Completes sources frame p (.function f)) := by
  have hdeclared := (Resolver.declaring_declareReady f.head true p.scopes).outline
  have hname : ((p.passed (Resolver.declareReady f.head true)).function .ordinary f).name =
      f.head.lexeme := by
    cases f
    rfl
  have hexec : ∀ E : Evaluator, E.execStmt frame (p.stmt (.function f)) = do
      let g ← Eval.closure ((p.passed (Resolver.declareReady f.head true)).function .ordinary f)
        frame false
      Eval.define frame f.head.lexeme (.function g)
      return .normal := by
    intro E
    rw [← hname]
    rfl
  rw [hexec, hexec]
  refine (Eval.runs_closure _ false).bind fun w₁ s₁ g h₁ hg => ?_
  obtain ⟨hfunction, hframe, hinit⟩ := hg
  refine (h.runs_define hsound rfl h₁ fun {s₂} h₂ hbound => .function
    ⟨⟨_, .ordinary, f, h.visits.enter .named, hfunction, by simp [hinit], ?_⟩, fun hi => ?_⟩).bind
    fun w₂ s₂ _ h₂ hbound => .pure (h.declared hsound rfl (h₁.trans h₂) hbound)
  · rw [hframe]
    change Follows w₁ s₂ frame ((Resolver.declareReady f.head true).after p.scopes).outline p.closing
    rw [hdeclared]
    exact (h.follows.later (h₁.trans h₂)).passing hbound
  · rw [hinit] at hi
    cases hi

lemma execStmt (hE : Agrees sources E F) (hsound : AllSound sources) {st : Stmt}
    (h : Stands sources w s frame p (.stmt st)) :
    Runs sources w s (E.execStmt frame (p.stmt st)) (F.execStmt frame (p.stmt st))
      (Completes sources frame p st) := by
  cases st with
  | expression line value =>
    exact (hE.eval (h.leading rfl)).bind fun w₁ s₁ v h₁ _ => .pure (h.done hsound rfl h₁)
  | print keyword value =>
    refine (hE.eval (h.leading rfl)).bind fun w₁ s₁ v h₁ _ => ?_
    refine (hE.guardDepth v).bind fun w₂ s₂ _ h₂ _ => ?_
    exact (Eval.runs_printLine v.text).bind fun w₃ s₃ _ h₃ _ =>
      .pure (h.done hsound rfl ((h₁.trans h₂).trans h₃))
  | var name init => exact hE.execVar hsound h
  | block line body =>
    obtain ⟨scope, hclosing⟩ : ∃ scope,
        (p.inside (pure ()) (Resolver.resolveStmts p.around body)).closing = scope :: p.closing :=
      ⟨_, rfl⟩
    refine (Eval.runs_newFrame frame scope).bind fun w₁ s₁ id h₁ hid => ?_
    have hbody : Stands sources w₁ s₁ id
        (p.inside (pure ()) (Resolver.resolveStmts p.around body)) (.stmts body) := by
      refine ⟨h.visits.enter .block, ?_⟩
      rw [hclosing]
      exact ⟨hid.1, fun name hname => (nomatch hname), frame, hid.2.1, h.follows.later h₁⟩
    exact (hE.execAll hbody).mono fun w₂ s₂ outcome h₂ _ ho =>
      h.completes hsound rfl (h₁.trans h₂) ho.1 ho.2
  | ifElse keyword c yes no => exact hE.execIf hsound h
  | whileLoop keyword c body =>
    have hc : (Stmt.whileLoop keyword c body).leading? = some c := rfl
    have hbody := h.part .loopBody rfl (h.outline_leading hsound hc)
    change Runs sources w s
      (Evaluator.loop (Value.isTruthy <$> E.eval frame (p.expr c))
        (E.exec frame ((p.afterExpr c).stmt body)) E.turns)
      (Evaluator.loop (Value.isTruthy <$> F.eval frame (p.expr c))
        (F.exec frame ((p.afterExpr c).stmt body)) F.turns) _
    rw [hE.turns]
    refine (Evaluator.runs_loop (p := p) (fun hl => ?_) (fun hl => ?_) E.turns).mono
      fun w₁ s₁ outcome h₁ _ ho => h.completes hsound rfl h₁ ho.1 fun hb => absurd hb ho.2
    · exact (hE.eval ((h.leading hc).later hl)).map fun _ _ _ _ => trivial
    · exact (hE.exec (hbody.later hl)).mono fun _ _ _ _ _ ho => ho.returned rfl
  | breakLoop keyword => exact .pure rfl
  | returnValue keyword value =>
    have hreturns := (h.visits.sound hsound).returns
    cases value with
    | none => exact .pure ⟨.nil, hreturns.1, fun _ => rfl⟩
    | some value =>
      have hvalue : Stands sources w s frame
          (p.passed (Resolver.checkReturn p.around keyword true)) (.expr value) :=
        h.part .returned rfl (Resolver.keeping_checkReturn _ _ _ _).outline
      exact (hE.eval hvalue).bind fun w₁ s₁ v _ hv =>
        .pure ⟨hv, hreturns.1, fun hinit => absurd hinit (hreturns.2 rfl)⟩
  | function f => exact execFunction E F hsound h
  | classDecl name target line methods statics =>
    rw [Site.stmt_classDecl]
    exact (Evaluator.runs_declareClass hsound h).bind fun w₁ s₁ _ h₁ hbound =>
      .pure (h.declared hsound rfl h₁ hbound)
  | invalid token => exact (h.visits.sound hsound).wellFormed.elim

end Agrees

end Lox
