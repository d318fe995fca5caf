import Lox.Proofs.Scope.Outline

namespace Lox

def Stmt.declared? : Stmt → Option Token
  | .var name _ => some name
  | .function f => some f.head
  | .classDecl name _ _ _ _ => some name
  | _ => none

lemma Stmt.declared?_of_declares {s : Stmt} (h : s.declares = false) : s.declared? = none := by
  cases s with
  | var | function | classDecl => cases h
  | _ => rfl

namespace Resolver

variable {α β : Type}

def result (walk : Resolver α) (σ : Scopes) : α := Prod.fst (walk σ)

def after (walk : Resolver α) (σ : Scopes) : Scopes := Prod.snd (walk σ)

lemma result_bind (walk : Resolver α) (next : α → Resolver β) (σ : Scopes) :
    result (walk >>= next) σ = result (next (result walk σ)) (after walk σ) := rfl

lemma after_inScope (walk : Resolver α) (σ : Scopes) :
    after (inScope walk) σ = (after walk σ.enter).leave := rfl

theorem memberRoutine_eq (isStatic : Bool) (f : Function) :
    memberRoutine isStatic f = if f.isInitializer isStatic then .initializer else .ordinary := by
  unfold memberRoutine Function.isInitializer Function.isGetter
  cases isStatic with
  | true => simp
  | false => cases f.params <;> simp

lemma isInitializer_iff (isStatic : Bool) (f : Function) :
    f.isInitializer isStatic = true ↔ memberRoutine isStatic f = .initializer := by
  rw [memberRoutine_eq]
  cases f.isInitializer isStatic <;> simp

def Keeping (walk : Resolver α) : Prop := ∀ σ : Scopes, σ.Keeps (walk.after σ)

def Growing (walk : Resolver α) : Prop := ∀ σ : Scopes, σ.Grows (walk.after σ)

def Declaring (t : Option Token) (walk : Resolver α) : Prop :=
  ∀ σ : Scopes, σ.Declares t (walk.after σ)

lemma keeping_pure (x : α) : Keeping (pure x) := fun σ => .refl σ

lemma Keeping.bind {walk : Resolver α} {next : α → Resolver β} (h : Keeping walk)
    (h' : ∀ x, Keeping (next x)) : Keeping (walk >>= next) :=
  fun σ => (h σ).trans (h' _ _)

lemma Growing.bind {walk : Resolver α} {next : α → Resolver β} (h : Growing walk)
    (h' : ∀ x, Growing (next x)) : Growing (walk >>= next) :=
  fun σ => (h σ).trans (h' _ _)

lemma Keeping.growing {walk : Resolver α} (h : Keeping walk) : Growing walk :=
  fun σ => (h σ).grows

lemma Declaring.growing {walk : Resolver α} {t : Option Token} (h : Declaring t walk) :
    Growing walk := fun σ => (h σ).grows

lemma Keeping.declaring {walk : Resolver α} (h : Keeping walk) : Declaring none walk :=
  fun σ => (h σ).declares

lemma Declaring.keeping {walk : Resolver α} (h : Declaring none walk) : Keeping walk :=
  fun σ => (h σ).keeps

theorem Declaring.branch {walk : Resolver α} {s : Stmt} (h : Declaring s.declared? walk)
    (hs : s.declares = false) : Keeping walk := by
  rw [s.declared?_of_declares hs] at h
  exact h.keeping

lemma Growing.inScope {walk : Resolver α} (h : Growing walk) : Keeping (inScope walk) :=
  fun σ => (h σ.enter).leave

theorem Declaring.bind {t : Option Token} {walk : Resolver α} {next : α → Resolver β}
    (h : Declaring t walk) (h' : ∀ x, Keeping (next x)) : Declaring t (walk >>= next) :=
  fun σ => ⟨(h' _ _).outline.trans (h σ).outline, (h σ).reports.trans (h' _ _).reports⟩

lemma keeping_report (t : Token) (problem : Problem) : Keeping (report t problem) :=
  fun σ => Scopes.keeps_report σ t problem

lemma keeping_get : Keeping (get : Resolver Scopes) := fun σ => .refl σ

lemma keeping_find (target : Reference) (isRead : Bool) : Keeping (find target isRead) := by
  intro σ
  unfold Resolver.after find
  simp only [bind, StateT.bind, get, getThe, MonadStateOf.get, StateT.get, pure]
  cases σ.depth? target.name.lexeme with
  | none => exact .refl σ
  | some depth =>
    cases isRead
    · exact .refl σ
    · exact Scopes.keeps_markUsed σ depth _

lemma keeping_readName (target : Reference) : Keeping (readName target) := by
  refine keeping_get.bind fun s => ?_
  split
  · split
    · exact (keeping_report _ _).bind fun _ => keeping_find target true
    · exact keeping_find target true
  · exact keeping_find target true

lemma keeping_readThis (around : Surroundings) (target : Reference) :
    Keeping (readThis around target) := by
  unfold readThis
  split
  · exact (keeping_report _ _).bind fun _ => keeping_pure _
  · exact keeping_find target true

lemma keeping_readSuper (around : Surroundings) (target : Reference) :
    Keeping (readSuper around target) := by
  unfold readSuper
  split
  · exact (keeping_report _ _).bind fun _ => keeping_pure _
  · exact (keeping_report _ _).bind fun _ => keeping_pure _
  · exact keeping_find target true

lemma keeping_resolveSuperclass (name : Token) (superclass : Option Reference) :
    Keeping (resolveSuperclass name superclass) := by
  unfold resolveSuperclass
  split
  · exact keeping_pure _
  · have hread := fun parent => (keeping_readName parent).bind fun p => keeping_pure (some p)
    split
    · exact (keeping_report _ _).bind fun _ => hread _
    · exact hread _

lemma keeping_checkReturn (around : Surroundings) (keyword : Token) (hasValue : Bool) :
    Keeping (checkReturn around keyword hasValue) := by
  have hreport := keeping_report keyword
  unfold checkReturn
  dsimp only
  split <;> split
  · exact (hreport _).bind fun _ => hreport _
  · exact hreport _
  · exact (hreport _).bind fun _ => keeping_pure ()
  · exact keeping_pure ()

lemma declaring_declareReady (name : Token) (tracked : Bool) :
    Declaring (some name) (declareReady name tracked) :=
  fun σ => (Scopes.Keeps.refl (σ.declare name tracked)).define

lemma growing_declareParams (params : List Token) : Growing (declareParams params) := by
  induction params with
  | nil => exact (keeping_pure ()).growing
  | cons param more ih => exact (declaring_declareReady param false).growing.bind fun _ => ih

lemma growing_declareImplicit (name : String) :
    Growing (modify (·.declareImplicit name) : Resolver Unit) := by
  intro σ
  have hdeclares : σ.Declares (some ⟨.identifier, name, 0, 0⟩) (σ.declareImplicit name) := by
    refine ⟨Scopes.outline_declareImplicit σ name, ?_⟩
    simp only [Scopes.declareImplicit, Scopes.reports_updateInnermost, List.prefix_refl]
  exact hdeclares.grows

lemma Growing.inMemberScopes {hasSuper : Bool} {walk : Resolver α} (h : Growing walk) :
    Keeping (inMemberScopes hasSuper walk) := by
  have hmembers := ((growing_declareImplicit "this").bind fun _ => h).inScope
  unfold Resolver.inMemberScopes
  split
  · exact ((growing_declareImplicit "super").bind fun _ => hmembers.growing).inScope
  · exact hmembers

mutual

lemma keeping_resolveExpr (around : Surroundings) :
    (e : Expr) → e.WellFormed → Keeping (resolveExpr around e)
  | .literal _ _, _ => keeping_pure _
  | .ref target, _ => (keeping_readName target).bind fun _ => keeping_pure _
  | .assign target value _, h =>
    (keeping_resolveExpr around value h.2.2).bind fun _ =>
      (keeping_find target false).bind fun _ => keeping_pure _
  | .get object _, h => (keeping_resolveExpr around object h.1).bind fun _ => keeping_pure _
  | .set object _ value _, h =>
    (keeping_resolveExpr around object h.1).bind fun _ =>
      (keeping_resolveExpr around value h.2.2).bind fun _ => keeping_pure _
  | .conditional condition _ yes no, h =>
    (keeping_resolveExpr around condition h.1).bind fun _ =>
      (keeping_resolveExpr around yes h.2.1).bind fun _ =>
        (keeping_resolveExpr around no h.2.2).bind fun _ => keeping_pure _
  | .lambda f, h => (keeping_resolveFunction around .ordinary f h).bind fun _ => keeping_pure _
  | .comma left _ right, h =>
    (keeping_resolveExpr around left h.1).bind fun _ =>
      (keeping_resolveExpr around right h.2).bind fun _ => keeping_pure _
  | .binary left _ right, h =>
    (keeping_resolveExpr around left h.2.1).bind fun _ =>
      (keeping_resolveExpr around right h.2.2).bind fun _ => keeping_pure _
  | .logical left _ right, h =>
    (keeping_resolveExpr around left h.2.1).bind fun _ =>
      (keeping_resolveExpr around right h.2.2).bind fun _ => keeping_pure _
  | .unary _ operand, h =>
    (keeping_resolveExpr around operand h.2).bind fun _ => keeping_pure _
  | .call callee _ arguments, h =>
    (keeping_resolveExpr around callee h.1).bind fun _ =>
      (keeping_resolveExprs around arguments h.2).bind fun _ => keeping_pure _
  | .this target, _ => (keeping_readThis around target).bind fun _ => keeping_pure _
  | .super target _, _ => (keeping_readSuper around target).bind fun _ => keeping_pure _
  | .grouping _ inner, h => (keeping_resolveExpr around inner h).bind fun _ => keeping_pure _
  | .list _ elements, h => (keeping_resolveExprs around elements h).bind fun _ => keeping_pure _

lemma keeping_resolveExprs (around : Surroundings) :
    (es : List Expr) → allWellFormedExpr es → Keeping (resolveExprs around es)
  | [], _ => keeping_pure _
  | e :: more, h =>
    (keeping_resolveExpr around e h.1).bind fun _ =>
      (keeping_resolveExprs around more h.2).bind fun _ => keeping_pure _

lemma declaring_resolveStmt (around : Surroundings) :
    (s : Stmt) → s.WellFormed → Declaring s.declared? (resolveStmt around s)
  | .expression _ value, h =>
    ((keeping_resolveExpr around value h).bind fun _ => keeping_pure _).declaring
  | .print _ value, h =>
    ((keeping_resolveExpr around value h).bind fun _ => keeping_pure _).declaring
  | .var name none, _ => (declaring_declareReady name true).bind fun _ => keeping_pure _
  | .var name (some init), h => fun σ =>
    (keeping_resolveExpr around init h.2 (σ.declare name true)).define
  | .block _ body, h =>
    ((growing_resolveStmts around body h).inScope.bind fun _ => keeping_pure _).declaring
  | .ifElse _ condition yes none, h =>
    ((keeping_resolveExpr around condition h.1).bind fun _ =>
      ((declaring_resolveStmt around yes h.2.1).branch h.2.2).bind fun _ => keeping_pure _).declaring
  | .ifElse _ condition yes (some no), h =>
    ((keeping_resolveExpr around condition h.1).bind fun _ =>
      ((declaring_resolveStmt around yes h.2.1.1).branch h.2.1.2).bind fun _ =>
        ((declaring_resolveStmt around no h.2.2.1).branch h.2.2.2).bind fun _ =>
          keeping_pure _).declaring
  | .whileLoop _ condition body, h =>
    ((keeping_resolveExpr around condition h.1).bind fun _ =>
      ((declaring_resolveStmt around body h.2.1).branch h.2.2).bind fun _ => keeping_pure _).declaring
  | .breakLoop _, _ => (keeping_pure _).declaring
  | .returnValue keyword none, _ =>
    ((keeping_checkReturn around keyword false).bind fun _ => keeping_pure _).declaring
  | .returnValue keyword (some value), h =>
    ((keeping_checkReturn around keyword true).bind fun _ =>
      (keeping_resolveExpr around value h).bind fun _ => keeping_pure _).declaring
  | .function f, h =>
    (declaring_declareReady f.head true).bind fun _ =>
      (keeping_resolveFunction around .ordinary f h.2).bind fun _ => keeping_pure _
  | .classDecl name superclass _ methods statics, h =>
    (declaring_declareReady name true).bind fun _ =>
      (keeping_resolveSuperclass name superclass).bind fun _ =>
        ((keeping_resolveMembers _ false methods h.2.2.1).bind fun _ =>
          (keeping_resolveMembers _ true statics h.2.2.2).bind fun _ =>
            keeping_pure _).growing.inMemberScopes.bind fun _ => keeping_pure _

lemma growing_resolveStmts (around : Surroundings) :
    (body : List Stmt) → allWellFormed body → Growing (resolveStmts around body)
  | [], _ => (keeping_pure _).growing
  | s :: more, h =>
    (declaring_resolveStmt around s h.1).growing.bind fun _ =>
      (growing_resolveStmts around more h.2).bind fun _ => (keeping_pure _).growing

lemma keeping_resolveFunction (around : Surroundings) (routine : Routine) :
    (f : Function) → f.WellFormed → Keeping (resolveFunction around routine f)
  | .mk _ _ _ body, h =>
    ((growing_declareParams _).bind fun _ =>
      (growing_resolveStmts _ body h.2.1).bind fun _ => (keeping_pure _).growing).inScope

lemma keeping_resolveMembers (around : Surroundings) (isStatic : Bool) :
    (fs : List Function) → allWellFormedMember fs → Keeping (resolveMembers around isStatic fs)
  | [], _ => keeping_pure _
  | f :: more, h =>
    (keeping_resolveFunction around _ f h.1).bind fun _ =>
      (keeping_resolveMembers around isStatic more h.2).bind fun _ => keeping_pure _

end

end Resolver

end Lox
