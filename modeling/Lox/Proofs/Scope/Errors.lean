import Lox.Proofs.Alike.Shift
import Lox.Proofs.Scope.Construct
import Lox.Proofs.Scope.Use

/-! Errors about scopes: a program has those of its constructs, each in its place, and no others. -/

namespace Lox

open Scopes

def Routine.ofInitializer? : Option Bool → Routine
  | none => .topLevel
  | some false => .ordinary
  | some true => .initializer

def Membership.ofHasSuper? : Option Bool → Membership
  | none => .noClass
  | some false => .rootClass
  | some true => .subclass

namespace Scopes

lemma declaring_append (ts us : List Token) (status : String → Option Bool) :
    declaring (ts ++ us) status = declaring us (declaring ts status) := by
  funext name
  by_cases hu : name ∈ us.map Token.lexeme <;> simp [declaring, hu]

lemma declaring_toList (t : Option Token) : declaring t.toList = passing t := by
  funext status name
  cases t with
  | none => simp [declaring, passing]
  | some t => simp [declaring, passing, setStatus, eq_comm]

end Scopes

namespace Trail

variable (T : Trail)

def surroundings : Surroundings where
  routine := .ofInitializer? T.isInitializer?
  membership := .ofHasSuper? T.hasSuper?

def status? : Option (String → Option Bool) :=
  T.head?.map fun e => declaring e.declared fun _ => none

def statusIn : Option Token → Option (String → Option Bool)
  | none => T.status?
  | some t => T.status?.map (setStatus t.lexeme false)

lemma status?_declare (ts : List Token) :
    (T.declare ts).status? = T.status?.map (declaring ts) := by
  cases T with
  | nil => rfl
  | cons e T => exact congrArg some (declaring_append e.declared ts _)

lemma statusIn_declare (t : Token) :
    (T.declare [t]).statusIn (some t) = T.status?.map (setStatus t.lexeme false) := by
  have hone : declaring [t] = setStatus t.lexeme true := declaring_toList (some t)
  rw [statusIn, status?_declare, Option.map_map, hone, setStatus_setStatus]

lemma declares_eq (name : String) :
    T.declares name = (T.status?.bind fun status => status name).isSome := by
  cases T with
  | nil => rfl
  | cons e T =>
    change (e.declared.any fun t => t.lexeme = name) =
      (declaring e.declared (fun _ => none) name).isSome
    unfold declaring
    split
    · next hmem => simpa using hmem
    · next hmem => simpa using hmem

theorem statusIn_eq_false_iff (own : Option Token) (name : String) :
    ((T.statusIn own).bind fun status => status name) = some false ↔
      (!T.isEmpty && own.any fun t => t.lexeme = name) = true := by
  cases T with
  | nil => cases own <;> simp [statusIn, status?]
  | cons e T => cases own <;> simp [statusIn, status?, setStatus, declaring]

lemma surroundings_declare (ts : List Token) :
    (T.declare ts).surroundings = T.surroundings := by cases T <;> rfl

end Trail

namespace Resolver

variable {α β : Type} {o o' o'' : Option (String → Option Bool)} {ps qs : List Located}

def Reporting (o o' : Option (String → Option Bool)) (ps : List Located) (walk : Resolver α) :
    Prop :=
  ∀ σ : Scopes, σ.outline.head? = o → (walk.after σ).outline.head? = o' ∧
    (walk.after σ).reports = σ.reports ++ ps.flatMap Located.errors

lemma reporting_pure (x : α) : Reporting o o [] (pure x) :=
  fun σ h => ⟨h, (List.append_nil σ.reports).symm⟩

theorem Reporting.bind_result {walk : Resolver α} {next : α → Resolver β}
    (h : Reporting o o' ps walk) (h' : ∀ σ, Reporting o' o'' qs (next (walk.result σ))) :
    Reporting o o'' (ps ++ qs) (walk >>= next) := by
  intro σ hσ
  obtain ⟨hhead, hreports⟩ := h σ hσ
  obtain ⟨hhead', hreports'⟩ := h' σ _ hhead
  refine ⟨hhead', hreports'.trans ?_⟩
  rw [hreports, List.flatMap_append, List.append_assoc]

lemma Reporting.bind {walk : Resolver α} {next : α → Resolver β} (h : Reporting o o' ps walk)
    (h' : ∀ x, Reporting o' o'' qs (next x)) : Reporting o o'' (ps ++ qs) (walk >>= next) :=
  h.bind_result fun _ => h' _

theorem Reporting.quiet {walk : Resolver α} {next : α → Resolver β}
    (h : Reporting o o' ps walk) (h' : ∀ x, Reporting o' o'' [] (next x)) :
    Reporting o o'' ps (walk >>= next) := by
  have hbind := h.bind h'
  rwa [List.append_nil] at hbind

lemma Reporting.map {walk : Resolver α} (h : Reporting o o' ps walk) (f : α → β) :
    Reporting o o' ps (walk >>= fun x => pure (f x)) :=
  h.quiet fun _ => reporting_pure _

theorem Reporting.congr {walk : Resolver α} (h : Reporting o o' ps walk)
    (heq : ps.flatMap Located.errors = qs.flatMap Located.errors) : Reporting o o' qs walk :=
  fun σ hσ => heq ▸ h σ hσ

theorem Keeping.reporting {walk : Resolver α} (h : Keeping walk)
    (h' : ∀ σ : Scopes, σ.outline.head? = o →
      (walk.after σ).reports = σ.reports ++ ps.flatMap Located.errors) :
    Reporting o o ps walk :=
  fun σ hσ => ⟨(congrArg List.head? (h σ).outline).trans hσ, h' σ hσ⟩

lemma Reporting.inScope {walk : Resolver α} (h : Reporting (some fun _ => none) o' ps walk)
    (hwalk : Growing walk) : Reporting o o ps (inScope walk) :=
  hwalk.inScope.reporting fun σ _ => by
    rw [after_inScope, reports_leave]
    exact (h σ.enter rfl).2

variable {T : Trail}

lemma reports_declare {σ : Scopes} (h : σ.outline.head? = T.status?) (t : Token)
    (tracked : Bool) :
    (σ.declare t tracked).reports =
      σ.reports ++ Located.reportIf t .declaredTwice (T.declares t.lexeme) := by
  have hknown : T.declares t.lexeme = (σ.innermost? t.lexeme).isSome := by
    rw [Trail.declares_eq, ← h, ← innermost?_map_ready, Option.isSome_map]
  unfold declare Located.reportIf
  rw [reports_updateInnermost, hknown]
  split
  · rfl
  · exact (List.append_nil _).symm

lemma reporting_declareReady {t : Token} {c : Construct}
    (hc : Located.errors ⟨T, c⟩ = Located.reportIf t .declaredTwice (T.declares t.lexeme))
    (tracked : Bool) :
    Reporting T.status? (T.declare [t]).status? [⟨T, c⟩] (declareReady t tracked) := by
  intro σ h
  refine ⟨?_, ?_⟩
  · have hone : declaring [t] = passing (some t) := declaring_toList (some t)
    rw [(declaring_declareReady t tracked σ).outline, List.head?_modifyHead, h,
      Trail.status?_declare, hone]
  · rw [List.flatMap_singleton, hc, ← reports_declare h t tracked]
    exact reports_updateInnermost _ _

lemma reporting_declareParams (T : Trail) (ts : List Token) :
    Reporting T.status? (T.declare ts).status? (parametersOf T ts) (declareParams ts) := by
  induction ts generalizing T with
  | nil =>
    rw [T.declare_nil]
    exact reporting_pure ()
  | cons t ts ih =>
    have hmore := ih (T.declare [t])
    rw [T.declare_append] at hmore
    exact (reporting_declareReady rfl false).bind fun _ => hmore

theorem Reporting.initializing {t : Token} {walk : Resolver α}
    (h : Reporting ((T.declare [t]).statusIn (some t)) ((T.declare [t]).statusIn (some t)) ps walk)
    (f : α → β) :
    Reporting T.status? (T.declare [t]).status? (⟨T, .declaration t⟩ :: ps) (do
      modify (·.declare t true)
      let x ← walk
      modify (·.define t)
      return f x) := by
  intro σ hσ
  have hdeclared : (σ.declare t true).outline.head? = (T.declare [t]).statusIn (some t) := by
    rw [outline_declare, List.head?_modifyHead, hσ, T.statusIn_declare]
  obtain ⟨hhead, hreports⟩ := h _ hdeclared
  rw [T.statusIn_declare] at hhead
  have hone : declaring [t] = setStatus t.lexeme true := declaring_toList (some t)
  refine ⟨?_, ?_⟩
  · change ((walk.after (σ.declare t true)).define t).outline.head? = _
    rw [outline_define, List.head?_modifyHead, hhead, Option.map_map, setStatus_setStatus,
      T.status?_declare, hone]
    intro status hstatus
    rw [hhead] at hstatus
    obtain ⟨old, -, rfl⟩ := Option.map_eq_some_iff.mp hstatus
    simp [setStatus]
  · have hdefine : ((walk.after (σ.declare t true)).define t).reports =
        (walk.after (σ.declare t true)).reports := reports_updateInnermost _ _
    change ((walk.after (σ.declare t true)).define t).reports = _
    rw [hdefine, hreports, reports_declare hσ, List.append_assoc]
    rfl

lemma reports_find (target : Reference) (isRead : Bool) (σ : Scopes) :
    ((find target isRead).after σ).reports = σ.reports := by
  unfold Resolver.after find
  simp only [bind, StateT.bind, get, getThe, MonadStateOf.get, StateT.get, pure]
  cases σ.depth? target.name.lexeme with
  | none => rfl
  | some depth => cases isRead <;> rfl

lemma reporting_find (target : Reference) (isRead : Bool) :
    Reporting o o [] (find target isRead) :=
  (keeping_find target isRead).reporting fun σ _ =>
    (reports_find target isRead σ).trans (List.append_nil _).symm

lemma reporting_report {t : Token} {problem : Problem} {p : Located}
    (h : p.errors = [.atToken t problem]) : Reporting o o [p] (report t problem) :=
  (keeping_report t problem).reporting fun σ _ => by
    rw [List.flatMap_singleton, h]
    rfl

lemma reporting_readName (T : Trail) (own : Option Token) (target : Reference) :
    Reporting (T.statusIn own) (T.statusIn own) [⟨T, .read target own⟩] (readName target) := by
  refine (keeping_readName target).reporting fun σ hσ => ?_
  have hready := T.statusIn_eq_false_iff own target.name.lexeme
  rw [Resolver.after, readName_eq, hσ, List.flatMap_singleton]
  unfold Located.errors Located.reportIf
  dsimp only
  split
  · next h =>
    rw [if_pos (hready.mp h)]
    exact reports_find target true _
  · next h =>
    rw [if_neg fun hc => h (hready.mpr hc), List.append_nil]
    exact reports_find target true _

lemma reporting_readThis (T : Trail) (target : Reference) :
    Reporting o o [⟨T, .this target.name⟩] (readThis T.surroundings target) := by
  unfold readThis Trail.surroundings
  cases h : T.hasSuper? with
  | none => exact (reporting_report (by simp [Located.errors, Located.reportIf, h])).map _
  | some hasSuper =>
    have hnone : ([⟨T, .this target.name⟩] : List Located).flatMap Located.errors = [] := by
      simp [Located.errors, Located.reportIf, h]
    cases hasSuper <;> exact (reporting_find target true).congr hnone.symm

lemma reporting_readSuper (T : Trail) (target : Reference) :
    Reporting o o [⟨T, .super target.name⟩] (readSuper T.surroundings target) := by
  unfold readSuper Trail.surroundings
  cases h : T.hasSuper? with
  | none => exact (reporting_report (by simp [Located.errors, Located.reportIf, h])).map _
  | some hasSuper =>
    cases hasSuper with
    | false => exact (reporting_report (by simp [Located.errors, Located.reportIf, h])).map _
    | true =>
      have hnone : ([⟨T, .super target.name⟩] : List Located).flatMap Located.errors = [] := by
        simp [Located.errors, Located.reportIf, h]
      exact (reporting_find target true).congr hnone.symm

lemma reporting_checkReturn (T : Trail) (keyword : Token) (hasValue : Bool) :
    Reporting o o [⟨T, .returned keyword hasValue⟩]
      (checkReturn T.surroundings keyword hasValue) := by
  have hnone (h : Located.errors ⟨T, .returned keyword hasValue⟩ = []) :
      Reporting o o [⟨T, .returned keyword hasValue⟩] (pure ()) :=
    (reporting_pure ()).congr (by rw [List.flatMap_singleton, h, List.flatMap_nil])
  unfold checkReturn Trail.surroundings
  cases h : T.isInitializer? with
  | none =>
    have hreported : Located.errors ⟨T, .returned keyword hasValue⟩ =
        [.atToken keyword .returnAtTopLevel] := by
      simp [Located.errors, Located.reportIf, h]
    cases hasValue <;> exact (reporting_report hreported).map id
  | some isInitializer =>
    cases isInitializer with
    | false => cases hasValue <;> exact hnone (by simp [Located.errors, Located.reportIf, h])
    | true =>
      cases hasValue with
      | false => exact hnone (by simp [Located.errors, Located.reportIf, h])
      | true => exact reporting_report (by simp [Located.errors, Located.reportIf, h])

lemma reporting_resolveSuperclass (T : Trail) (name : Token) (superclass : Option Reference) :
    Reporting T.status? T.status? (inheritance T name superclass)
      (resolveSuperclass name superclass) := by
  cases superclass with
  | none => exact reporting_pure none
  | some parent =>
    have hread := (reporting_readName T none parent).map some
    unfold resolveSuperclass
    dsimp only
    split
    · next h =>
      exact (reporting_report (by simp [Located.errors, Located.reportIf, h])).bind fun _ => hread
    · next h =>
      refine hread.congr ?_
      simp [inheritance, Located.errors, Located.reportIf, h]

lemma isSome_resolveSuperclass (name : Token) (superclass : Option Reference) (σ : Scopes) :
    ((resolveSuperclass name superclass).result σ).isSome = superclass.isSome := by
  cases superclass with
  | none => rfl
  | some parent =>
    unfold resolveSuperclass
    dsimp only
    split <;> rfl

lemma Reporting.still {walk : Resolver α} (h : Reporting T.status? T.status? ps walk) :
    Reporting T.status? (T.declare []).status? ps walk := by rwa [T.declare_nil]

theorem Reporting.branch {s : Stmt} {walk : Resolver α}
    (h : Reporting T.status? (T.declare s.declared?.toList).status? ps walk)
    (hs : s.declares = false) : Reporting T.status? T.status? ps walk := by
  rwa [s.declared?_of_declares hs, Option.toList_none, T.declare_nil] at h

lemma reporting_implicitly (name : String) :
    Reporting (some fun _ => none) (some (only name)) [] (implicitly name) := by
  intro σ hσ
  refine ⟨?_, (reports_updateInnermost σ _).trans (List.append_nil _).symm⟩
  rw [implicitly]
  exact (congrArg List.head? (outline_declareImplicit σ name)).trans
    ((List.head?_modifyHead ..).trans (congrArg (Option.map _) hσ))

lemma Reporting.inMemberScopes {hasSuper : Bool} {walk : Resolver α}
    (h : ∀ o, Reporting o o ps walk) (hwalk : Growing walk) :
    Reporting o o ps (inMemberScopes hasSuper walk) := by
  have hthis : Growing (implicitly "this" >>= fun _ => walk) :=
    (growing_declareImplicit "this").bind fun _ => hwalk
  have hmembers (o) := ((reporting_implicitly "this").bind fun _ => h _).inScope (o := o) hthis
  cases hasSuper with
  | false => exact hmembers o
  | true =>
    exact ((reporting_implicitly "super").bind fun _ => hmembers _).inScope
      ((growing_declareImplicit "super").bind fun _ => hthis.inScope.growing)

def Encloses (T : Trail) (b : Body) (around : Surroundings) (routine : Routine) : Prop :=
  ∀ declared, { around with routine } = Trail.surroundings (⟨b, declared⟩ :: T)

lemma encloses_function (T : Trail) : Encloses T .function T.surroundings .ordinary :=
  fun _ => rfl

lemma encloses_member (T : Trail) (hasSuper isStatic : Bool) (f : Function) :
    Encloses T (.member hasSuper (f.isInitializer isStatic))
      { T.surroundings with membership := if hasSuper then .subclass else .rootClass }
      (memberRoutine isStatic f) := by
  intro declared
  rw [memberRoutine_eq]
  cases f.isInitializer isStatic <;> cases hasSuper <;> rfl

mutual

lemma reporting_resolveExpr (T : Trail) (own : Option Token) : (e : Expr) → e.WellFormed →
    Reporting (T.statusIn own) (T.statusIn own) (e.constructs T own)
      (resolveExpr T.surroundings e)
  | .literal _ _, _ => reporting_pure _
  | .ref target, _ => (reporting_readName T own target).map _
  | .assign target value _, h =>
    (reporting_resolveExpr T own value h.2.2).quiet fun _ => (reporting_find target false).map _
  | .get object _, h => (reporting_resolveExpr T own object h.1).map _
  | .set object _ value _, h =>
    (reporting_resolveExpr T own object h.1).bind fun _ =>
      (reporting_resolveExpr T own value h.2.2).map _
  | .conditional condition _ yes no, h =>
    (reporting_resolveExpr T own condition h.1).bind fun _ =>
      (reporting_resolveExpr T own yes h.2.1).bind fun _ =>
        (reporting_resolveExpr T own no h.2.2).map _
  | .lambda f, h => (reporting_resolveFunction _ T (encloses_function T) f h).map _
  | .comma left _ right, h =>
    (reporting_resolveExpr T own left h.1).bind fun _ =>
      (reporting_resolveExpr T own right h.2).map _
  | .binary left _ right, h =>
    (reporting_resolveExpr T own left h.2.1).bind fun _ =>
      (reporting_resolveExpr T own right h.2.2).map _
  | .logical left _ right, h =>
    (reporting_resolveExpr T own left h.2.1).bind fun _ =>
      (reporting_resolveExpr T own right h.2.2).map _
  | .unary _ operand, h => (reporting_resolveExpr T own operand h.2).map _
  | .call callee _ arguments, h =>
    (reporting_resolveExpr T own callee h.1).bind fun _ =>
      (reporting_resolveExprs T own arguments h.2).map _
  | .this target, _ => (reporting_readThis T target).map _
  | .super target _, _ => (reporting_readSuper T target).map _
  | .grouping _ inner, h => (reporting_resolveExpr T own inner h).map _
  | .list _ elements, h => (reporting_resolveExprs T own elements h).map _

lemma reporting_resolveExprs (T : Trail) (own : Option Token) :
    (es : List Expr) → allWellFormedExpr es →
      Reporting (T.statusIn own) (T.statusIn own) (constructsOfExprs T own es)
        (resolveExprs T.surroundings es)
  | [], _ => reporting_pure _
  | e :: es, h =>
    (reporting_resolveExpr T own e h.1).bind fun _ => (reporting_resolveExprs T own es h.2).map _

lemma reporting_resolveStmt (T : Trail) : (s : Stmt) → s.WellFormed →
    Reporting T.status? (T.declare s.declared?.toList).status? (s.constructs T)
      (resolveStmt T.surroundings s)
  | .expression _ value, h => ((reporting_resolveExpr T none value h).map _).still
  | .print _ value, h => ((reporting_resolveExpr T none value h).map _).still
  | .var name none, _ => (reporting_declareReady rfl true).map _
  | .var name (some init), h => by
    have hinit := reporting_resolveExpr (T.declare [name]) (some name) init h.2
    rw [T.surroundings_declare] at hinit
    exact hinit.initializing _
  | .block _ body, h =>
    (((reporting_resolveStmts (⟨.block, []⟩ :: T) body h).inScope
      (growing_resolveStmts _ body h)).map _).still
  | .ifElse _ condition yes none, h =>
    ((reporting_resolveExpr T none condition h.1).bind fun _ =>
      ((reporting_resolveStmt T yes h.2.1).branch h.2.2).map _).still
  | .ifElse _ condition yes (some no), h =>
    ((reporting_resolveExpr T none condition h.1).bind fun _ =>
      ((reporting_resolveStmt T yes h.2.1.1).branch h.2.1.2).bind fun _ =>
        ((reporting_resolveStmt T no h.2.2.1).branch h.2.2.2).map _).still
  | .whileLoop _ condition body, h =>
    ((reporting_resolveExpr T none condition h.1).bind fun _ =>
      ((reporting_resolveStmt T body h.2.1).branch h.2.2).map _).still
  | .breakLoop _, _ => (reporting_pure _).still
  | .returnValue keyword none, _ => ((reporting_checkReturn T keyword false).map _).still
  | .returnValue keyword (some value), h =>
    ((reporting_checkReturn T keyword true).bind fun _ =>
      (reporting_resolveExpr T none value h).map _).still
  | .function f, h => by
    have hf (o) := reporting_resolveFunction o _ (encloses_function (T.declare [f.head])) f h.2
    rw [T.surroundings_declare] at hf
    exact (reporting_declareReady rfl true).bind fun _ => (hf _).map _
  | .classDecl name superclass _ methods statics, h => by
    have hmembers (o) :=
      (reporting_resolveMembers o (T.declare [name]) superclass.isSome false methods
        h.2.2.1).bind fun methods =>
          (reporting_resolveMembers o (T.declare [name]) superclass.isSome true statics
            h.2.2.2).map fun statics => (methods, statics)
    rw [T.surroundings_declare] at hmembers
    refine (reporting_declareReady rfl true).bind fun _ =>
      (reporting_resolveSuperclass (T.declare [name]) name superclass).bind_result fun σ => ?_
    rw [isSome_resolveSuperclass]
    exact (Reporting.inMemberScopes hmembers
      (keeping_bothMembers _ h.2.2.1 h.2.2.2).growing).map _

lemma reporting_resolveStmts (T : Trail) : (body : List Stmt) → allWellFormed body →
    Reporting T.status? (T.declare (body.filterMap Stmt.declared?)).status? (constructsOf T body)
      (resolveStmts T.surroundings body)
  | [], _ => (reporting_pure _).still
  | s :: body, h => by
    have hmore := reporting_resolveStmts (T.declare s.declared?.toList) body h.2
    have hall : s.declared?.toList ++ body.filterMap Stmt.declared? =
        (s :: body).filterMap Stmt.declared? := by
      cases ht : s.declared? <;> simp [ht]
    rw [T.declare_append, hall, T.surroundings_declare] at hmore
    exact (reporting_resolveStmt T s h.1).bind fun _ => hmore.map _

lemma reporting_resolveFunction (o : Option (String → Option Bool)) (T : Trail) {b : Body}
    {around : Surroundings} {routine : Routine} (haround : Encloses T b around routine) :
    (f : Function) → f.WellFormed →
      Reporting o o (f.constructs T b) (resolveFunction around routine f)
  | .mk _ params _ body, h => by
    let names := (params.map Params.names).getD []
    have hbody := reporting_resolveStmts (⟨b, names⟩ :: T) body h.2.1
    rw [← haround names] at hbody
    exact ((reporting_declareParams (⟨b, []⟩ :: T) names).bind fun _ => hbody.map _).inScope
      ((growing_declareParams names).bind fun _ =>
        (growing_resolveStmts _ body h.2.1).bind fun _ => (keeping_pure _).growing)

lemma reporting_resolveMembers (o : Option (String → Option Bool)) (T : Trail)
    (hasSuper isStatic : Bool) : (fs : List Function) → allWellFormedMember fs →
      Reporting o o (constructsOfMembers T hasSuper isStatic fs)
      (resolveMembers { T.surroundings with
        membership := if hasSuper then .subclass else .rootClass } isStatic fs)
  | [], _ => reporting_pure _
  | f :: fs, h =>
    (reporting_resolveFunction o T (encloses_member T hasSuper isStatic f) f h.1).bind fun _ =>
      (reporting_resolveMembers o T hasSuper isStatic fs h.2).map _

end

end Resolver

lemma Located.isError_of_mem_errors {p : Located} {d : Diagnostic} (h : d ∈ p.errors) :
    d.isError = true := by
  have hreport : ∀ {t problem c}, d ∈ reportIf t problem c → d = .atToken t problem := by
    intro t problem c hd
    unfold reportIf at hd
    split at hd
    · exact List.mem_singleton.mp hd
    · exact absurd hd List.not_mem_nil
  obtain ⟨T, c⟩ := p
  cases c with
  | declaration | parameter | read | inherits | this =>
    rw [hreport h]
    rfl
  | returned | super =>
    rcases List.mem_append.mp h with h | h <;> rw [hreport h] <;> rfl

namespace Program

theorem diagnostics_compile {source : String} (h : (ofSource source).hasError = false) :
    (compile source).diagnostics =
      (constructsOf [] (ofSource source).body).flatMap Located.errors ++
        Scopes.warnings (ending (ofSource source).body).unused := by
  obtain ⟨hscanned, hspells⟩ := spells_of_sound h
  have hreports : (ending (ofSource source).body).reports =
      (constructsOf [] (ofSource source).body).flatMap Located.errors :=
    (Resolver.reporting_resolveStmts [] (ofSource source).body (wellFormed h).1 .start rfl).2
  rw [compile_of_spells hscanned hspells, hreports]

/-- The errors about the scopes of a program are those of its constructs: of each `return`, use of
`this` or `super`, inheritance, declaration, parameter and read, in the order of the walk. -/
theorem errors_match_constructs {source : String} (h : (ofSource source).hasError = false) :
    Diagnostic.errors (compile source).diagnostics =
      (constructsOf [] (ofSource source).body).flatMap Located.errors := by
  have hall : Diagnostic.errors ((constructsOf [] (ofSource source).body).flatMap Located.errors) =
      (constructsOf [] (ofSource source).body).flatMap Located.errors := by
    refine List.filter_eq_self.mpr fun d hd => ?_
    obtain ⟨p, -, hp⟩ := List.mem_flatMap.mp hd
    exact Located.isError_of_mem_errors hp
  have hwarnings (ts : List Token) : Diagnostic.errors (Scopes.warnings ts) = [] := by
    refine List.filter_eq_nil_iff.mpr fun d hd => ?_
    obtain ⟨t, -, rfl⟩ := List.mem_map.mp hd
    exact Bool.false_ne_true
  have hsplit (ds es : List Diagnostic) :
      Diagnostic.errors (ds ++ es) = Diagnostic.errors ds ++ Diagnostic.errors es :=
    List.filter_append ..
  rw [diagnostics_compile h, hsplit, hall, hwarnings, List.append_nil]

theorem errors_match_constructs_examples :
    let source :=
      "class A < A \x7b init() \x7b return 1; \x7d \x7d \x7b var b = b; var b; this; \x7d"
    (ofSource source).hasError = false ∧ Diagnostic.errors (compile source).diagnostics =
      [⟨1, .lexeme "A", .inheritsItself⟩, ⟨1, .lexeme "return", .returnFromInitializer⟩,
        ⟨1, .lexeme "b", .readInInitializer⟩, ⟨1, .lexeme "b", .declaredTwice⟩,
        ⟨1, .lexeme "this", .thisOutsideClass⟩] := by
  intro source
  have hread : (ofSource source).hasError = false := by decide +kernel
  refine ⟨hread, ?_⟩
  rw [errors_match_constructs hread]
  decide +kernel

end Program

end Lox
