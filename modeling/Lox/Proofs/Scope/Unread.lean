import Mathlib.Data.List.Pairwise
import Lox.Proofs.Alike.Respell
import Lox.Proofs.Scope.Errors
import Lox.Proofs.Scope.Tally

/-! Unread declarations: a program without errors is warned about those local names that nothing in
it reads, and about nothing else. -/

namespace Lox

namespace Scopes

open Resolver

variable {opened : List (List Token)} {ts : List Token} {σ τ : Scopes}

structure Meets (opened opened' : List (List Token)) (ps : List Located) (σ τ : Scopes) :
    Prop where
  reports : σ.reports <+: τ.reports
  names : ∀ t ∈ declaredBy ps, t.IsName
  tallies : ∀ seen, σ.Tallies seen opened → Diagnostic.hasError τ.reports = false →
    (declaredBy (seen ++ ps)).Nodup → τ.Tallies (seen ++ ps) opened'

section

variable {opened' opened'' : List (List Token)} {ps qs : List Located} {υ : Scopes} {T : Trail}

lemma Meets.refl (opened : List (List Token)) (σ : Scopes) : Meets opened opened [] σ σ :=
  ⟨List.prefix_refl _, fun _ ht => absurd ht List.not_mem_nil, fun seen h _ _ => by
    rwa [List.append_nil]⟩

lemma Meets.trans (h : Meets opened opened' ps σ τ) (h' : Meets opened' opened'' qs τ υ) :
    Meets opened opened'' (ps ++ qs) σ υ := by
  refine ⟨h.reports.trans h'.reports, ?_, fun seen hσ hclean hnodup => ?_⟩
  · rw [declaredBy_append]
    exact List.forall_mem_append.mpr ⟨h.names, h'.names⟩
  rw [← List.append_assoc] at hnodup ⊢
  have hfirst : (declaredBy (seen ++ ps)).Nodup := by
    rw [declaredBy_append] at hnodup
    exact (List.nodup_append.mp hnodup).1
  have hτ := h.tallies seen hσ (Diagnostic.hasError_of_prefix h'.reports hclean) hfirst
  exact h'.tallies _ hτ hclean hnodup

lemma Meets.quiet (h : Meets opened opened' ps σ τ) (h' : Meets opened' opened'' [] τ υ) :
    Meets opened opened'' ps σ υ := by
  have hall := h.trans h'
  rwa [List.append_nil] at hall

theorem Meets.inside {σ' τ' : Scopes} (hin : Meets opened (ts :: opened) [] σ σ')
    (h : Meets (ts :: opened) opened' ps σ' τ) (hout : Meets opened' opened'' [] τ τ') :
    Meets opened opened'' ps σ τ' := by
  have hall := hin.trans (h.quiet hout)
  rwa [List.nil_append] at hall

lemma meets_enter (opened : List (List Token)) (σ : Scopes) :
    Meets opened ([] :: opened) [] σ σ.enter :=
  ⟨List.prefix_refl _, fun _ ht => absurd ht List.not_mem_nil, fun seen h _ _ => by
    rw [List.append_nil]
    exact h.enter⟩

lemma meets_implicit (opened : List (List Token)) (σ : Scopes) (name : String) :
    Meets opened ([] :: opened) [] σ (σ.enter.declareImplicit name) :=
  ⟨List.prefix_refl _, fun _ ht => absurd ht List.not_mem_nil, fun seen h _ _ => by
    rw [List.append_nil]
    exact h.enterImplicit name⟩

lemma meets_leave (ts : List Token) (opened : List (List Token)) (σ : Scopes) :
    Meets (ts :: opened) opened [] σ σ.leave := by
  refine ⟨?_, fun _ ht => absurd ht List.not_mem_nil, fun seen h _ _ => ?_⟩
  · simp only [reports_leave, List.prefix_refl]
  · rw [List.append_nil]
    exact h.leave

lemma Meets.inScope (h : Meets ([] :: opened) (ts :: opened) ps σ.enter τ) :
    Meets opened opened ps σ τ.leave :=
  (meets_enter opened σ).inside h (meets_leave ts opened τ)

lemma meets_declare {t : Token} {tracked : Bool} {c : Construct}
    (hc : Located.declared? ⟨T, c⟩ = some t)
    (hlocal : Located.local? ⟨T, c⟩ = if tracked && !T.isEmpty then some t else none)
    (hreads : ∀ u, Located.reads u ⟨T, c⟩ = false) (hname : t.IsName) (σ : Scopes) :
    Meets T.scopes (T.declare [t]).scopes [⟨T, c⟩] σ (σ.declare t tracked) := by
  refine ⟨reports_declare σ t tracked, ?_, fun seen h hclean hnodup => ?_⟩
  · rw [declaredBy, List.filterMap_cons_some hc]
    exact List.forall_mem_singleton.mpr hname
  have hnew : t ∉ declaredBy seen := by
    rw [declaredBy_append] at hnodup
    intro ht
    exact (List.nodup_append.mp hnodup).2.2 t ht t (by simp [declaredBy, hc]) rfl
  exact h.declare hc hlocal hreads hname hnew hclean

lemma meets_define (opened : List (List Token)) (σ : Scopes) (t : Token) :
    Meets opened opened [] σ (σ.define t) := by
  refine ⟨?_, fun _ ht => absurd ht List.not_mem_nil, fun seen h _ _ => ?_⟩
  · simp only [Scopes.define, reports_updateInnermost, List.prefix_refl]
  · rw [List.append_nil]
    exact h.define t

lemma meets_declareReady {t : Token} {tracked : Bool} {c : Construct}
    (hc : Located.declared? ⟨T, c⟩ = some t)
    (hlocal : Located.local? ⟨T, c⟩ = if tracked && !T.isEmpty then some t else none)
    (hreads : ∀ u, Located.reads u ⟨T, c⟩ = false) (hname : t.IsName) (σ : Scopes) :
    Meets T.scopes (T.declare [t]).scopes [⟨T, c⟩] σ ((declareReady t tracked).after σ) :=
  (meets_declare hc hlocal hreads hname σ).trans (meets_define _ _ t)

lemma meets_declaration (T : Trail) {t : Token} (hname : t.IsName) (σ : Scopes) :
    Meets T.scopes (T.declare [t]).scopes [⟨T, .declaration t⟩] σ
      ((declareReady t true).after σ) :=
  meets_declareReady rfl (by cases T <;> rfl) (fun _ => rfl) hname σ

lemma meets_parameters (T : Trail) {ts : List Token} (hnames : ∀ t ∈ ts, t.IsName)
    (σ : Scopes) :
    Meets T.scopes (T.declare ts).scopes (parametersOf T ts) σ ((declareParams ts).after σ) := by
  induction ts generalizing T σ with
  | nil =>
    rw [T.declare_nil]
    exact .refl _ _
  | cons t ts ih =>
    obtain ⟨ht, hts⟩ := List.forall_mem_cons.mp hnames
    have hmore := ih (T.declare [t]) hts ((declareReady t false).after σ)
    rw [T.declare_append] at hmore
    exact (meets_declareReady rfl rfl (fun _ => rfl) ht σ).trans hmore

lemma meets_readName (T : Trail) (own : Option Token) {target : Reference}
    (h : target.IsFresh) (σ : Scopes) :
    Meets T.scopes T.scopes [⟨T, .read ((readName target).result σ) own⟩] σ
      ((readName target).after σ) :=
  ⟨(keeping_readName target σ).reports, fun _ ht => absurd ht List.not_mem_nil,
    fun _ hσ hclean _ => hσ.afterRead rfl h own hclean⟩

lemma meets_assigned (opened : List (List Token)) (target : Reference) (σ : Scopes) :
    Meets opened opened [] σ ((find target false).after σ) := by
  rw [after_find]
  exact .refl _ _

lemma declares_none {p : Located} (hp : p.declared? = none) :
    ∀ t ∈ declaredBy [p], t.IsName := by
  rw [declaredBy, List.filterMap_cons_none hp]
  exact fun t ht => absurd ht List.not_mem_nil

theorem meets_neutral (opened : List (List Token)) {p : Located} (hp : p.declared? = none)
    (hreads : ∀ t, p.reads t = false) (hreports : σ.reports <+: τ.reports)
    (hstack : τ.stack = σ.stack) (hunused : τ.unused = σ.unused) :
    Meets opened opened [p] σ τ :=
  ⟨hreports, declares_none hp, fun _ hσ _ _ =>
    hσ.neutral hp hreads (by rw [hstack]) (hstack ▸ hσ.keys) hunused⟩

lemma meets_report (opened : List (List Token)) {p : Located} (hp : p.declared? = none)
    (hreads : ∀ t, p.reads t = false) (t : Token) (problem : Problem) (σ : Scopes) :
    Meets opened opened [p] σ (σ.report t problem) :=
  meets_neutral opened hp hreads (List.prefix_append _ _) rfl rfl

lemma meets_findReserved (opened : List (List Token)) {p : Located} (hp : p.declared? = none)
    (hreads : ∀ t, p.reads t = false) {target : Reference}
    (hname : ∀ t : Token, t.IsName → t.lexeme ≠ target.name.lexeme) (σ : Scopes) :
    Meets opened opened [p] σ ((find target true).after σ) :=
  ⟨(keeping_find target true σ).reports, declares_none hp, fun _ hσ _ _ =>
    hσ.findReserved hname hp hreads⟩

lemma meets_readThis (T : Trail) (around : Surroundings) {target : Reference}
    (h : target.name.lexeme = "this") (keyword : Token) (σ : Scopes) :
    Meets T.scopes T.scopes [⟨T, .this keyword⟩] σ ((readThis around target).after σ) := by
  unfold readThis
  split
  · exact meets_report _ rfl (fun _ => rfl) _ _ σ
  · exact meets_findReserved _ rfl (fun _ => rfl) (fun t ht => h ▸ ht.2.1) σ

lemma meets_readSuper (T : Trail) (around : Surroundings) {target : Reference}
    (h : target.name.lexeme = "super") (keyword : Token) (σ : Scopes) :
    Meets T.scopes T.scopes [⟨T, .super keyword⟩] σ ((readSuper around target).after σ) := by
  unfold readSuper
  split
  · exact meets_report _ rfl (fun _ => rfl) _ _ σ
  · exact meets_report _ rfl (fun _ => rfl) _ _ σ
  · exact meets_findReserved _ rfl (fun _ => rfl) (fun t ht => h ▸ ht.2.2) σ

lemma meets_checkReturn (T : Trail) (around : Surroundings) (keyword : Token) (hasValue : Bool)
    (σ : Scopes) :
    Meets T.scopes T.scopes [⟨T, .returned keyword hasValue⟩] σ
      ((checkReturn around keyword hasValue).after σ) := by
  have hreports := (keeping_checkReturn around keyword hasValue σ).reports
  unfold checkReturn at hreports ⊢
  dsimp only at hreports ⊢
  refine meets_neutral _ rfl (fun _ => rfl) hreports ?_ ?_
  · split <;> split <;> rfl
  · split <;> split <;> rfl

lemma meets_resolveSuperclass (T : Trail) (name : Token) {superclass : Option Reference}
    (h : ∀ parent ∈ superclass, parent.IsFresh) (σ : Scopes) :
    Meets T.scopes T.scopes (inheritance T name ((resolveSuperclass name superclass).result σ)) σ
      ((resolveSuperclass name superclass).after σ) := by
  cases superclass with
  | none => exact .refl _ _
  | some parent =>
    have hread := meets_readName T none (h parent rfl)
    unfold resolveSuperclass
    dsimp only
    split
    · exact (meets_report _ rfl (fun _ => rfl) _ _ σ).trans (hread _)
    · exact (meets_neutral _ rfl (fun _ => rfl) (List.prefix_refl _) rfl rfl).trans (hread σ)

end

lemma declared?_resolveStmt (around : Surroundings) (s : Stmt) (σ : Scopes) :
    ((resolveStmt around s).result σ).declared? = s.declared? := by
  cases s with
  | var name init => cases init <;> rfl
  | ifElse keyword condition yes no => cases no <;> rfl
  | returnValue keyword value => cases value <;> rfl
  | function f =>
    obtain ⟨head, params, line, body⟩ := f
    rfl
  | _ => rfl

lemma Meets.still {T : Trail} {ps : List Located} {σ τ : Scopes}
    (h : Meets T.scopes T.scopes ps σ τ) : Meets T.scopes (T.declare []).scopes ps σ τ := by
  rwa [T.declare_nil]

lemma meets_inMemberScopes {α : Type} (opened : List (List Token)) {hasSuper : Bool}
    {walk : Resolver α} {ps : α → List Located} {σ : Scopes}
    (h : ∀ σ', Meets (classScopes hasSuper ++ opened) (classScopes hasSuper ++ opened)
      (ps (walk.result σ')) σ' (walk.after σ')) :
    Meets opened opened (ps ((inMemberScopes hasSuper walk).result σ)) σ
      ((inMemberScopes hasSuper walk).after σ) := by
  cases hasSuper with
  | false => exact (meets_implicit opened σ "this").inside (h _) (meets_leave [] opened _)
  | true =>
    have hmembers := (meets_implicit ([] :: opened) (σ.enter.declareImplicit "super") "this").inside
      (h _) (meets_leave [] _ _)
    exact (meets_implicit opened σ "super").inside hmembers (meets_leave [] opened _)

theorem Meets.branch {T : Trail} {ps : List Located} {around : Surroundings} {s : Stmt}
    {σ σ' τ : Scopes}
    (h : Meets T.scopes (T.declare ((resolveStmt around s).result σ').declared?.toList).scopes ps σ
      τ) (hs : s.declares = false) : Meets T.scopes T.scopes ps σ τ := by
  rwa [declared?_resolveStmt, s.declared?_of_declares hs, Option.toList_none,
    T.declare_nil] at h

mutual

lemma meets_expr (T : Trail) (own : Option Token) (around : Surroundings) : (e : Expr) →
    e.WellFormed → (σ : Scopes) →
      Meets T.scopes T.scopes (((resolveExpr around e).result σ).constructs T own) σ
        ((resolveExpr around e).after σ)
  | .literal _ _, _, _ => .refl _ _
  | .ref _, h, σ => meets_readName T own h.1 σ
  | .assign target value _, h, σ =>
    (meets_expr T own around value h.2.2 σ).quiet (meets_assigned _ target _)
  | .get object _, h, σ => meets_expr T own around object h.1 σ
  | .set object _ value _, h, σ =>
    (meets_expr T own around object h.1 σ).trans (meets_expr T own around value h.2.2 _)
  | .conditional condition _ yes no, h, σ =>
    (meets_expr T own around condition h.1 σ).trans
      ((meets_expr T own around yes h.2.1 _).trans (meets_expr T own around no h.2.2 _))
  | .lambda f, h, σ => meets_function T .function around .ordinary f h σ
  | .comma left _ right, h, σ =>
    (meets_expr T own around left h.1 σ).trans (meets_expr T own around right h.2 _)
  | .binary left _ right, h, σ =>
    (meets_expr T own around left h.2.1 σ).trans (meets_expr T own around right h.2.2 _)
  | .logical left _ right, h, σ =>
    (meets_expr T own around left h.2.1 σ).trans (meets_expr T own around right h.2.2 _)
  | .unary _ operand, h, σ => meets_expr T own around operand h.2 σ
  | .call callee _ arguments, h, σ =>
    (meets_expr T own around callee h.1 σ).trans (meets_exprs T own around arguments h.2 _)
  | .this _, h, σ => meets_readThis T around h.2 _ σ
  | .super _ _, h, σ => meets_readSuper T around h.2.1 _ σ
  | .grouping _ inner, h, σ => meets_expr T own around inner h σ
  | .list _ elements, h, σ => meets_exprs T own around elements h σ

lemma meets_exprs (T : Trail) (own : Option Token) (around : Surroundings) :
    (es : List Expr) → allWellFormedExpr es → (σ : Scopes) →
      Meets T.scopes T.scopes (constructsOfExprs T own ((resolveExprs around es).result σ)) σ
        ((resolveExprs around es).after σ)
  | [], _, _ => .refl _ _
  | e :: es, h, σ => (meets_expr T own around e h.1 σ).trans (meets_exprs T own around es h.2 _)

lemma meets_stmt (T : Trail) (around : Surroundings) : (s : Stmt) → s.WellFormed →
    (σ : Scopes) →
      Meets T.scopes (T.declare ((resolveStmt around s).result σ).declared?.toList).scopes
        (((resolveStmt around s).result σ).constructs T) σ ((resolveStmt around s).after σ)
  | .expression _ value, h, σ => (meets_expr T none around value h σ).still
  | .print _ value, h, σ => (meets_expr T none around value h σ).still
  | .var name none, h, σ => meets_declaration T h σ
  | .var name (some init), h, σ => by
    have hdeclare : Meets T.scopes (T.declare [name]).scopes [⟨T, .declaration name⟩] σ
        (σ.declare name true) :=
      meets_declare rfl (by cases T <;> rfl) (fun _ => rfl) h.1 σ
    have hinit := meets_expr (T.declare [name]) (some name) around init h.2 (σ.declare name true)
    exact (hdeclare.trans hinit).quiet (meets_define _ _ name)
  | .block _ body, h, σ =>
    (meets_stmts (⟨.block, []⟩ :: T) around body h σ.enter).inScope.still
  | .ifElse _ condition yes none, h, σ =>
    ((meets_expr T none around condition h.1 σ).trans
      ((meets_stmt T around yes h.2.1 _).branch h.2.2)).still
  | .ifElse _ condition yes (some no), h, σ =>
    ((meets_expr T none around condition h.1 σ).trans
      (((meets_stmt T around yes h.2.1.1 _).branch h.2.1.2).trans
        ((meets_stmt T around no h.2.2.1 _).branch h.2.2.2))).still
  | .whileLoop _ condition body, h, σ =>
    ((meets_expr T none around condition h.1 σ).trans
      ((meets_stmt T around body h.2.1 _).branch h.2.2)).still
  | .breakLoop _, _, σ => (Meets.refl _ σ).still
  | .returnValue keyword none, _, σ => (meets_checkReturn T around keyword false σ).still
  | .returnValue keyword (some value), h, σ =>
    ((meets_checkReturn T around keyword true σ).trans (meets_expr T none around value h _)).still
  | .function (.mk head params line body), h, σ =>
    (meets_declaration T h.1 σ).trans
      (meets_function (T.declare [head]) .function around .ordinary (.mk head params line body) h.2
        _)
  | .classDecl name superclass _ methods statics, h, σ => by
    have hfresh : ∀ parent ∈ superclass, parent.IsFresh := fun parent hp => (h.2.1 parent hp).1
    let superclass' := (resolveSuperclass name superclass).result ((declareReady name true).after σ)
    let inside : Surroundings :=
      { around with membership := if superclass'.isSome then .subclass else .rootClass }
    let met : List Function × List Function → List Located := fun both =>
      constructsOfMembers (T.declare [name]) superclass'.isSome false both.1 ++
        constructsOfMembers (T.declare [name]) superclass'.isSome true both.2
    let walk : Resolver (List Function × List Function) := bothMembers inside methods statics
    have hboth : ∀ σ', Meets (classScopes superclass'.isSome ++ (T.declare [name]).scopes)
        (classScopes superclass'.isSome ++ (T.declare [name]).scopes) (met (walk.result σ')) σ'
        (walk.after σ') := fun σ' =>
      (meets_members _ _ false inside methods h.2.2.1 σ').trans
        (meets_members _ _ true inside statics h.2.2.2 _)
    exact (meets_declaration T h.1 σ).trans
      ((meets_resolveSuperclass (T.declare [name]) name hfresh _).trans
        (meets_inMemberScopes _ hboth))

lemma meets_stmts (T : Trail) (around : Surroundings) : (body : List Stmt) →
    allWellFormed body → (σ : Scopes) →
      Meets T.scopes
        (T.declare (((resolveStmts around body).result σ).filterMap Stmt.declared?)).scopes
        (constructsOf T ((resolveStmts around body).result σ)) σ
        ((resolveStmts around body).after σ)
  | [], _, σ => (Meets.refl _ σ).still
  | s :: body, h, σ => by
    let s' := (resolveStmt around s).result σ
    let σ' := (resolveStmt around s).after σ
    let body' := (resolveStmts around body).result σ'
    have hmore := meets_stmts (T.declare s'.declared?.toList) around body h.2 σ'
    have hall : s'.declared?.toList ++ body'.filterMap Stmt.declared? =
        (s' :: body').filterMap Stmt.declared? := by
      cases ht : s'.declared? <;> simp [ht]
    rw [T.declare_append, hall] at hmore
    exact (meets_stmt T around s h.1 σ).trans hmore

lemma meets_function (T : Trail) (b : Body) (around : Surroundings) (routine : Routine) :
    (f : Function) → f.WellFormed → (σ : Scopes) →
      Meets (b.scopes ++ T.scopes) (b.scopes ++ T.scopes)
        (((resolveFunction around routine f).result σ).constructs T b) σ
        ((resolveFunction around routine f).after σ)
  | .mk _ params _ body, h, σ => by
    let names := (params.map Params.names).getD []
    have hnames : ∀ t ∈ names, t.IsName := by
      cases params with
      | none => exact fun t ht => absurd ht List.not_mem_nil
      | some params => exact h.1 params rfl
    have hparams := meets_parameters (⟨b, []⟩ :: T) hnames σ.enter
    have hbody := meets_stmts (⟨b, names⟩ :: T) { around with routine } body h.2.1
      ((declareParams names).after σ.enter)
    exact (hparams.trans hbody).inScope

lemma meets_members (T : Trail) (hasSuper isStatic : Bool) (around : Surroundings) :
    (fs : List Function) → allWellFormedMember fs → (σ : Scopes) →
      Meets (classScopes hasSuper ++ T.scopes) (classScopes hasSuper ++ T.scopes)
        (constructsOfMembers T hasSuper isStatic ((resolveMembers around isStatic fs).result σ)) σ
        ((resolveMembers around isStatic fs).after σ)
  | [], _, σ => .refl _ σ
  | f :: fs, h, σ =>
    let f' := (resolveFunction around (memberRoutine isStatic f) f).result σ
    (meets_function T (.member hasSuper (f'.isInitializer isStatic)) around _ f h.1 σ).trans
      (meets_members T hasSuper isStatic around fs h.2 _)

end

end Scopes

lemma Scopes.tallies_start : Scopes.start.Tallies [] [] where
  stack := rfl
  keys _ hs := absurd hs List.not_mem_nil
  known := List.nil_subset _
  distinct := List.nodup_nil
  names _ ht := absurd ht List.not_mem_nil
  reads _ ht := nomatch ht
  nodup := List.nodup_nil
  unused _ := ⟨fun ht => absurd ht List.not_mem_nil, fun ht => absurd ht.1 List.not_mem_nil⟩

theorem Scan.before_of_ne {source : String} {t u : Token} (ht : t ∈ (ofString source).tokens)
    (hu : u ∈ (ofString source).tokens) (hne : t ≠ u) (h : Scopes.before t u = true) :
    t.position.Before u.position := by
  let Apart (t u : Token) : Prop := t.position.Before u.position ∨ u.position.Before t.position
  have hsymm : Std.Symm Apart := ⟨fun _ _ => Or.symm⟩
  have hapart : (ofString source).tokens.Pairwise Apart :=
    (pairwise_tokens source.toList).imp Or.inl
  simp only [Scopes.before, Bool.or_eq_true, Bool.and_eq_true, decide_eq_true_eq] at h
  rcases hapart.forall ht hu hne with hbefore | hbehind
  · exact hbefore
  · rcases hbehind with hline | ⟨hline, hcolumn⟩
    · have hline : u.line < t.line := hline
      omega
    · have hline : u.line = t.line := hline
      have hcolumn : u.column < t.column := hcolumn
      omega

def Tagged.Declares (l : Tagged) (ps : List Located) : Prop :=
  (declaredBy ps).Sublist (l.map Prod.fst)

namespace Tagged.Declares

variable {l l' : Tagged} {ps qs : List Located} {p : Located} {t : Token}

lemma append (h : l.Declares ps) (h' : l'.Declares qs) : (l ++ l').Declares (ps ++ qs) := by
  rw [Declares, declaredBy_append, List.map_append]
  exact List.Sublist.append h h'

lemma skip (h : l.Declares ps) (x : Token × Bool) : Declares (x :: l) ps := h.cons _

lemma more (h : l.Declares ps) (l' : Tagged) : (l ++ l').Declares ps := by
  rw [Declares, List.map_append]
  exact h.trans (List.sublist_append_left ..)

lemma nothing (l : Tagged) : l.Declares [] := List.nil_sublist _

lemma cons (hp : p.declared? = some t) (h : l.Declares ps) (b : Bool) :
    Declares ((t, b) :: l) (p :: ps) := by
  rw [Declares, declaredBy, List.filterMap_cons_some hp]
  exact h.cons_cons t

lemma inheritance (T : Trail) (name : Token) (parent : Option Reference) (l : Tagged) :
    l.Declares (inheritance T name parent) := by
  cases parent <;> exact List.nil_sublist _

lemma parameters (declared : Token) (marks : List Bool) (T : Trail) (ts : List Token) :
    Declares (ts.map (binder declared marks)) (parametersOf T ts) := by
  induction ts generalizing T with
  | nil => exact nothing _
  | cons t ts ih => exact .cons rfl (ih _) _

end Tagged.Declares

section

open Tagged (Declares)

variable (declared : Token)

mutual

lemma Expr.declares_tagged (T : Trail) (own : Option Token) (marks : List Bool) :
    (e : Expr) → (e.tagged declared marks).Declares (e.constructs T own)
  | .literal _ _ | .ref _ | .this _ | .super _ _ | .invalid _ => List.nil_sublist _
  | .assign _ value _ => (value.declares_tagged T own marks).skip _
  | .get object _ => (object.declares_tagged T own marks).more _
  | .set object _ value _ =>
    (object.declares_tagged T own marks).append ((value.declares_tagged T own marks).skip _)
  | .conditional condition _ yes no =>
    (condition.declares_tagged T own marks).append
      (((yes.declares_tagged T own marks).append (no.declares_tagged T own marks)).skip _)
  | .lambda f => f.declares_tagged T .function marks
  | .comma l _ r | .binary l _ r | .logical l _ r =>
    (l.declares_tagged T own marks).append ((r.declares_tagged T own marks).skip _)
  | .unary _ operand => (operand.declares_tagged T own marks).skip _
  | .call callee _ es =>
    (callee.declares_tagged T own marks).append ((declares_taggedExprs T own marks es).skip _)
  | .grouping _ inner => (inner.declares_tagged T own marks).skip _
  | .list _ es => (declares_taggedExprs T own marks es).skip _

lemma declares_taggedExprs (T : Trail) (own : Option Token) (marks : List Bool) :
    (es : List Expr) → (taggedExprs declared marks es).Declares (constructsOfExprs T own es)
  | [] => .nothing _
  | e :: es => (e.declares_tagged T own marks).append (declares_taggedExprs T own marks es)

lemma Stmt.declares_tagged (T : Trail) (marks : List Bool) :
    (s : Stmt) → (s.tagged declared marks).Declares (s.constructs T)
  | .expression _ e => e.declares_tagged T none marks
  | .print _ e => (e.declares_tagged T none marks).skip _
  | .var _ none => .cons rfl (.nothing _) _
  | .var name (some e) => .cons rfl (e.declares_tagged (T.declare [name]) (some name) marks) _
  | .block _ body => declares_taggedStmts _ _ body
  | .ifElse _ c yes none =>
    ((c.declares_tagged T none marks).append (yes.declares_tagged T marks)).skip _
  | .ifElse _ c yes (some no) =>
    ((c.declares_tagged T none marks).append
      ((yes.declares_tagged T marks).append (no.declares_tagged T marks))).skip _
  | .whileLoop _ c body =>
    ((c.declares_tagged T none marks).append (body.declares_tagged T marks)).skip _
  | .breakLoop _ | .invalid _ | .returnValue _ none => List.nil_sublist _
  | .returnValue _ (some e) => (e.declares_tagged T none marks).skip _
  | .function (.mk _ _ _ body) =>
    .cons rfl ((Declares.parameters _ _ _ _).append (declares_taggedStmts _ _ body)) _
  | .classDecl _ _ _ methods statics =>
    .cons rfl ((Declares.inheritance _ _ _ _).append
      ((declares_taggedMembers _ _ _ _ methods).append (declares_taggedMembers _ _ _ _ statics))) _

lemma declares_taggedStmts (T : Trail) (marks : List Bool) :
    (body : List Stmt) → (taggedStmts declared marks body).Declares (constructsOf T body)
  | [] => .nothing _
  | s :: body => (s.declares_tagged T marks).append (declares_taggedStmts _ marks body)

lemma Function.declares_tagged (T : Trail) (b : Body) (marks : List Bool) :
    (f : Function) → (f.tagged declared marks).Declares (f.constructs T b)
  | .mk _ _ _ body =>
    ((Declares.parameters _ _ _ _).append (declares_taggedStmts _ _ body)).skip _

lemma declares_taggedMembers (T : Trail) (hasSuper isStatic : Bool) (marks : List Bool) :
    (fs : List Function) →
      (taggedMembers declared marks fs).Declares (constructsOfMembers T hasSuper isStatic fs)
  | [] => .nothing _
  | f :: fs =>
    (f.declares_tagged T _ marks).append (declares_taggedMembers T hasSuper isStatic marks fs)

end

end

namespace Program

variable {source : String}

lemma errors_eq_nil (h : (compile source).hasError = false) :
    (constructsOf [] (ofSource source).body).flatMap Located.errors = [] := by
  obtain ⟨hread, -⟩ := compile_body h
  refine List.eq_nil_iff_forall_not_mem.mpr fun d hd => ?_
  obtain ⟨p, -, hp⟩ := List.mem_flatMap.mp hd
  have hmem : d ∈ (compile source).diagnostics := by
    rw [diagnostics_compile hread]
    exact List.mem_append_left _ hd
  rw [hasError, Diagnostic.hasError, List.any_eq_false] at h
  exact h d hmem (Located.isError_of_mem_errors hp)

theorem meets_compile (h : (compile source).hasError = false) :
    Scopes.Meets [] [] (constructsOf [] (compile source).body) .start
      (ending (ofSource source).body) := by
  obtain ⟨hread, hbody, -⟩ := compile_body h
  rw [hbody]
  exact Scopes.meets_stmts [] Resolver.outermost _ (wellFormed hread).1 .start

theorem declared_compile (h : (compile source).hasError = false) :
    (declaredBy (constructsOf [] (compile source).body)).Nodup ∧
      ∀ t ∈ declaredBy (constructsOf [] (compile source).body),
        t ∈ (Scan.ofString source).tokens := by
  have hnames := (meets_compile h).names
  have hcount : ∀ t ∈ declaredBy (constructsOf [] (compile source).body),
      (declaredBy (constructsOf [] (compile source).body)).count t ≤
        (Scan.ofString source).tokens.count t := by
    intro t ht
    have hlists : (taggedStmts t [] (compile source).body).Lists _ := lists_compile h
    rw [← hlists t (hnames t ht).1]
    exact (declares_taggedStmts t [] [] (compile source).body).count_le t
  refine ⟨List.nodup_iff_count_le_one.mpr fun t => ?_, fun t ht => ?_⟩
  · by_cases ht : t ∈ declaredBy (constructsOf [] (compile source).body)
    · exact Nat.le_trans (hcount t ht) (List.nodup_iff_count_le_one.mp (Scan.nodup_tokens source) t)
    · rw [List.count_eq_zero_of_not_mem ht]
      exact Nat.zero_le 1
  · exact List.count_pos_iff.mp (Nat.lt_of_lt_of_le (List.count_pos_iff.mpr ht) (hcount t ht))

/-- What is warned about in a program without errors are, in the order of the text, the local
variables, functions and classes that nothing in the program reads. -/
theorem warnings_match_declarations (h : (compile source).hasError = false) :
    let constructs := constructsOf [] (compile source).body
    ∃ unread : List Token,
      (compile source).diagnostics = unread.map (fun t => .atToken t (.unusedLocal t.lexeme)) ∧
      unread.Perm ((localsOf constructs).filter fun t => !isRead constructs t) ∧
      unread.Pairwise fun t u => t.position.Before u.position := by
  intro constructs
  obtain ⟨hread, -, hclean⟩ := compile_body h
  obtain ⟨hnodup, htokens⟩ := declared_compile h
  have hend := (meets_compile h).tallies [] Scopes.tallies_start hclean hnodup
  have hlocals := localsOf_sublist constructs
  have hmem : ∀ t, t ∈ (ending (ofSource source).body).unused ↔
      t ∈ localsOf constructs ∧ isRead constructs t = false := by
    intro t
    have hunused := hend.unused t
    simpa using hunused
  have hsorted := List.mergeSort_perm (ending (ofSource source).body).unused Scopes.before
  refine ⟨(ending (ofSource source).body).unused.mergeSort Scopes.before, ?_, ?_, ?_⟩
  · rw [diagnostics_compile hread, errors_eq_nil h]
    rfl
  · refine hsorted.trans ((List.perm_ext_iff_of_nodup hend.nodup
      ((hnodup.sublist hlocals).filter _)).mpr fun t => ?_)
    rw [hmem, List.mem_filter, Bool.not_eq_true']
  · have hordered := List.pairwise_mergeSort Scopes.before_trans Scopes.before_total
      (ending (ofSource source).body).unused
    have hdistinct := hsorted.nodup_iff.mpr hend.nodup
    refine (hordered.and hdistinct).imp_of_mem fun ht hu hboth => ?_
    have htoken : ∀ t ∈ (ending (ofSource source).body).unused.mergeSort Scopes.before,
        t ∈ (Scan.ofString source).tokens := fun t ht =>
      htokens t (hlocals.subset ((hmem t).mp (hsorted.mem_iff.mp ht)).1)
    exact Scan.before_of_ne (htoken _ ht) (htoken _ hu) hboth.2 hboth.1

theorem warnings_match_declarations_assigned :
    let source := "fun f(a) \x7b var b; b = 1; fun g() \x7b g(); \x7d \x7d"
    (compile source).hasError = false ∧
      (compile source).diagnostics = [⟨1, .lexeme "b", .unusedLocal "b"⟩] := by
  intro source
  have hsound : (compile source).hasError = false := by decide +kernel
  obtain ⟨unread, hdiagnostics, hunread, -⟩ := warnings_match_declarations hsound
  have hlocals : ((localsOf (constructsOf [] (compile source).body)).filter fun t =>
      !isRead (constructsOf [] (compile source).body) t) = [⟨.identifier, "b", 1, 16⟩] := by
    decide +kernel
  rw [hlocals, List.perm_singleton] at hunread
  refine ⟨hsound, ?_⟩
  rw [hdiagnostics, hunread]
  decide

end Program

end Lox
