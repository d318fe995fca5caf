import Lox.Proofs.Alike.Resolve
import Lox.Proofs.Alike.Scopes
import Lox.Proofs.Scope.Use

namespace Lox

open Resolver

variable {V : Variation} {T : Token → Token → Prop} {earlier : List Token} {ν : V.Names}
  {σ σ' : Scopes} {around : Surroundings}

structure InStep {α : Type} (V : Variation) (T : Token → Token → Prop) (earlier : List Token)
    (ν : V.Names) (walk walk' : Resolver α) (σ σ' : Scopes) (R : α → α → Prop) : Prop where
  scopes : (walk.after σ).Alike V T earlier ν (walk'.after σ')
  result : R (walk.result σ) (walk'.result σ')

abbrev Scopes.Clean (σ : Scopes) : Prop := Diagnostic.hasError σ.reports = false

lemma Scopes.Clean.before {τ : Scopes} (h : τ.Clean) (hreports : σ.reports <+: τ.reports) :
    σ.Clean := Diagnostic.hasError_of_prefix hreports h

namespace Resolver

lemma after_find (target : Reference) (isRead : Bool) (σ : Scopes) :
    (find target isRead).after σ =
      match σ.depth? target.name.lexeme with
      | some depth => if isRead then σ.markUsed depth target.name.lexeme else σ
      | none => σ := by
  unfold Resolver.after find
  simp only [bind, StateT.bind, get, getThe, MonadStateOf.get, StateT.get, pure]
  cases σ.depth? target.name.lexeme with
  | none => rfl
  | some depth => cases isRead <;> rfl

lemma readName_eq_find {target : Reference}
    (h : ∀ b ∈ σ.innermost? target.name.lexeme, b.ready = true) :
    readName target σ = find target true σ := by
  rw [readName_eq, ← Scopes.innermost?_map_ready]
  cases hb : σ.innermost? target.name.lexeme with
  | none => rfl
  | some b => rw [Option.map_some, h b hb]

lemma inStep_find (h : σ.Alike V T earlier ν σ') {target target' : Reference}
    (hfresh : target.IsFresh) (hu : (V.unresolved T).use ν (target.at σ) target') (isRead : Bool) :
    InStep V T earlier ν (find target isRead) (find target' isRead) σ σ' (V.resolved.use ν) := by
  obtain ⟨ht, hoccurs, hfresh'⟩ := hu
  have hname : target'.name.lexeme =
      Variation.Names.under ν (σ.depth? target.name.lexeme) target.name.lexeme := ht.lexeme
  have hoccurs : V.Occurs target.name.lexeme := hoccurs
  have hdepth := h.depth? hoccurs hname
  refine ⟨?_, ?_⟩
  · rw [after_find, after_find, hdepth]
    cases hd : σ.depth? target.name.lexeme with
    | none => exact h
    | some depth =>
      rw [hd] at hname
      cases isRead with
      | false => exact h
      | true =>
        simp only [if_true]
        rw [hname]
        exact h.markUsed hoccurs
  · rw [result_find hfresh, result_find hfresh']
    exact ⟨hdepth, ht⟩

lemma inStep_readName (h : σ.Alike V T earlier ν σ') {target target' : Reference}
    (hfresh : target.IsFresh) (hclean : ((readName target).after σ).Clean)
    (hu : (V.unresolved T).use ν ((readName target).result σ) target') :
    InStep V T earlier ν (readName target) (readName target') σ σ' (V.resolved.use ν) := by
  rw [result_readName hfresh] at hu
  have hready : ∀ b ∈ σ.innermost? target.name.lexeme, b.ready = true := by
    intro b hb
    have hstatus := Scopes.innermost?_map_ready σ target.name.lexeme
    rw [hb, Option.map_some] at hstatus
    obtain ⟨status, hhead, hname⟩ := Option.bind_eq_some_iff.mp hstatus.symm
    cases hr : b.ready with
    | true => rfl
    | false => exact absurd (hname.trans (congrArg some hr)) (ready_of_readName hclean status hhead)
  have hready' : ∀ b ∈ σ'.innermost? target'.name.lexeme, b.ready = true := by
    have hinnermost := h.innermost? hu.2.1 hu.1.lexeme
    intro b' hb'
    change Option.Rel _ (σ.innermost? target.name.lexeme) _ at hinnermost
    rw [hb'] at hinnermost
    generalize hb : σ.innermost? target.name.lexeme = b at hinnermost
    cases hinnermost with
    | some hb' => exact hb'.ready.trans (hready _ hb)
  have hfind := inStep_find h hfresh hu true
  refine ⟨?_, ?_⟩
  · rw [Resolver.after, Resolver.after, readName_eq_find hready, readName_eq_find hready']
    exact hfind.scopes
  · rw [Resolver.result, Resolver.result, readName_eq_find hready, readName_eq_find hready']
    exact hfind.result

lemma inStep_readThis (h : σ.Alike V T earlier ν σ') {target target' : Reference}
    (hfresh : target.IsFresh) (hclean : ((readThis around target).after σ).Clean)
    (hu : (V.unresolved T).use ν ((readThis around target).result σ) target') :
    InStep V T earlier ν (readThis around target) (readThis around target') σ σ'
      (V.resolved.use ν) := by
  obtain ⟨routine, membership⟩ := around
  cases membership with
  | noClass => exact ((keeping_pure ()).absurd_report rfl hclean).elim
  | rootClass | subclass =>
    have hu : (V.unresolved T).use ν ((find target true).result σ) target' := hu
    rw [result_find hfresh] at hu
    exact inStep_find h hfresh hu true

lemma inStep_readSuper (h : σ.Alike V T earlier ν σ') {target target' : Reference}
    (hfresh : target.IsFresh) (hclean : ((readSuper around target).after σ).Clean)
    (hu : (V.unresolved T).use ν ((readSuper around target).result σ) target') :
    InStep V T earlier ν (readSuper around target) (readSuper around target') σ σ'
      (V.resolved.use ν) := by
  obtain ⟨routine, membership⟩ := around
  cases membership with
  | noClass | rootClass => exact ((keeping_pure ()).absurd_report rfl hclean).elim
  | subclass =>
    have hu : (V.unresolved T).use ν ((find target true).result σ) target' := hu
    rw [result_find hfresh] at hu
    exact inStep_find h hfresh hu true

theorem alike_declare (h : σ.Alike V T earlier ν σ') {t t' : Token}
    (ht : (V.unresolved T).binder ν t t') {tracked : Bool} (hclean : (σ.declare t tracked).Clean) :
    (σ.declare t tracked).Alike V T earlier ν (σ'.declare t' tracked) := by
  obtain ⟨ht, hoccurs, htoken⟩ := ht
  refine h.declare hoccurs ht.lexeme htoken ?_ tracked
  cases hnew : σ.innermost? t.lexeme with
  | none => rfl
  | some b =>
    unfold Scopes.declare Scopes.Clean at hclean
    rw [hnew] at hclean
    rw [Scopes.reports_updateInnermost] at hclean
    have herror : Diagnostic.hasError (σ.report t .declaredTwice).reports = true :=
      isError_report σ t rfl
    rw [Option.isSome_some, if_pos rfl] at hclean
    rw [herror] at hclean
    cases hclean

lemma alike_declareReady (h : σ.Alike V T earlier ν σ') {t t' : Token}
    (ht : (V.unresolved T).binder ν t t') {tracked : Bool}
    (hclean : ((declareReady t tracked).after σ).Clean) :
    ((declareReady t tracked).after σ).Alike V T earlier ν
      ((declareReady t' tracked).after σ') := by
  have hdefine := (Scopes.Keeps.refl (σ.declare t tracked)).declares_define.reports
  exact (alike_declare h ht (Scopes.Clean.before hclean hdefine)).define ht.2.1 ht.1.lexeme

lemma alike_declareParams (h : σ.Alike V T earlier ν σ') {ps ps' : List Token}
    (hps : List.Forall₂ ((V.unresolved T).binder ν) ps ps')
    (hclean : ((declareParams ps).after σ).Clean) :
    ((declareParams ps).after σ).Alike V T earlier ν ((declareParams ps').after σ') := by
  induction hps generalizing σ σ' with
  | nil => exact h
  | @cons p p' ps ps' hp _ ih =>
    have hmore := (growing_declareParams ps ((declareReady p false).after σ)).reports
    exact ih (alike_declareReady h hp (Scopes.Clean.before hclean hmore)) hclean

theorem after_checkReturn {keyword : Token} {hasValue : Bool}
    (hclean : ((checkReturn around keyword hasValue).after σ).Clean) (t : Token) (τ : Scopes) :
    (checkReturn around t hasValue).after τ = τ := by
  have htop : around.routine ≠ .topLevel := by
    intro htop
    unfold checkReturn at hclean
    simp only [htop, if_true, reduceCtorEq, decide_false, Bool.and_false, Bool.false_eq_true,
      if_false] at hclean
    exact (keeping_pure ()).absurd_report rfl hclean
  have hvalue : (hasValue && around.routine = .initializer) = false := by
    rw [Bool.eq_false_iff]
    intro hvalue
    unfold checkReturn at hclean
    simp only [htop, if_false, hvalue, if_true] at hclean
    exact (keeping_pure ()).absurd_report rfl hclean
  unfold checkReturn
  simp only [htop, if_false, hvalue, Bool.false_eq_true]
  rfl

lemma inStep_resolveSuperclass (h : σ.Alike V T earlier ν σ') {t t' : Token}
    (ht : (V.unresolved T).title ν t t') {parent parent' : Option Reference}
    (hfresh : ∀ p ∈ parent, p.IsFresh) (hclean : ((resolveSuperclass t parent).after σ).Clean)
    (hp : Option.Rel ((V.unresolved T).use ν) ((resolveSuperclass t parent).result σ) parent') :
    InStep V T earlier ν (resolveSuperclass t parent) (resolveSuperclass t' parent') σ σ'
      (Option.Rel (V.resolved.use ν)) := by
  cases parent with
  | none =>
    have hp : Option.Rel ((V.unresolved T).use ν) none parent' := hp
    cases hp
    exact ⟨h, .none⟩
  | some p =>
    unfold resolveSuperclass at hclean hp ⊢
    by_cases hself : p.name.lexeme = t.lexeme
    · simp only [hself, if_true] at hclean
      exact (((keeping_readName p).bind fun r => keeping_pure (some r)).absurd_report rfl
        hclean).elim
    · simp only [hself, if_false] at hclean hp ⊢
      have hp : Option.Rel ((V.unresolved T).use ν) (some ((readName p).result σ)) parent' := hp
      cases hp with
      | @some _ p' hu =>
        have hname := name_readName p σ
        have hself' : p'.name.lexeme ≠ t'.lexeme := by
          intro heq
          have hlexeme := hu.1.lexeme.symm.trans (heq.trans ht.1.lexeme)
          have happart := V.apart (Variation.Names.renames_under ν _) V.renames_id hu.2.1
            ht.2.2.1 hlexeme
          rw [hname] at happart
          exact hself happart
        have hstep := inStep_readName h (hfresh p rfl) hclean hu
        simp only [hself', if_false]
        exact ⟨hstep.scopes, .some hstep.result⟩

end Resolver

lemma InStep.inScope {α : Type} {walk walk' : Resolver α} {R : α → α → Prop} {r : V.Renaming}
    (h : InStep V T earlier (.cons r ν) walk walk' σ.enter σ'.enter R) :
    InStep V T earlier ν (inScope walk) (inScope walk') σ σ' R :=
  ⟨h.scopes.leave, h.result⟩

namespace Resolver

theorem inStep_inMemberScopes {α : Type} {walk walk' : Resolver α} {R : α → α → Prop}
    (h : σ.Alike V T earlier ν σ') (hasSuper : Bool)
    (hwalk : ∀ {τ τ' : Scopes},
      τ.Alike V T earlier (.cons V.same (if hasSuper then .cons V.same ν else ν)) τ' →
      (inMemberScopes hasSuper walk).result σ = walk.result τ →
      ((inMemberScopes hasSuper walk).after σ).reports = (walk.after τ).reports →
      InStep V T earlier (.cons V.same (if hasSuper then .cons V.same ν else ν)) walk walk' τ τ'
        R) :
    InStep V T earlier ν (inMemberScopes hasSuper walk) (inMemberScopes hasSuper walk') σ σ' R := by
  cases hasSuper with
  | false =>
    have hthis := (h.enter V.same).declareImplicit V.occurs_this rfl
    have hstep := hwalk hthis rfl (Scopes.reports_leave _)
    exact ⟨hstep.scopes.leave, hstep.result⟩
  | true =>
    have hsuper := (h.enter V.same).declareImplicit V.occurs_super rfl
    have hthis := (hsuper.enter V.same).declareImplicit V.occurs_this rfl
    have hstep := hwalk hthis rfl ((Scopes.reports_leave _).trans (Scopes.reports_leave _))
    exact ⟨hstep.scopes.leave.leave, hstep.result⟩

theorem resolveStmt_classDecl (around : Surroundings) {t : Token} {parent : Option Reference}
    (n : Nat) {ms ss : List Function} {hasSuper : Bool}
    (h : ((resolveSuperclass t parent).result ((declareReady t true).after σ)).isSome = hasSuper) :
    let members := inMemberScopes hasSuper (bothMembers
      { around with membership := if hasSuper then .subclass else .rootClass } ms ss)
    let τ := (declareReady t true).after σ
    let υ := (resolveSuperclass t parent).after τ
    (resolveStmt around (.classDecl t parent n ms ss)).after σ = members.after υ ∧
      (resolveStmt around (.classDecl t parent n ms ss)).result σ =
        .classDecl t ((resolveSuperclass t parent).result τ) n (members.result υ).1
          (members.result υ).2 := by
  subst h
  exact ⟨rfl, rfl⟩

lemma memberRoutine_alike {routine : Routine} {f f' : Function} {isStatic : Bool}
    (h : Function.Alike (V.unresolved T) ν ((resolveFunction around routine f).result σ) f') :
    memberRoutine isStatic f' = memberRoutine isStatic f := by
  obtain ⟨head, params, line, body⟩ := f
  have h : Function.Alike (V.unresolved T) ν (.mk head params line _) f' := h
  cases h with
  | mk ht _ hp _ =>
    have hname := ht.lexeme
    unfold memberRoutine Function.name
    simp only [Function.head, Function.params, hname, id_eq]
    cases hp <;> rfl

end Resolver

/-- Wherever a walk over a piece starts in scopes that are alike, it goes in step with the walk over
any piece that is like what comes of it. -/
def StaysInStep {α : Type} (V : Variation) (T : Token → Token → Prop) (earlier : List Token)
    (walk : α → Resolver α) (R R' : V.Names → α → α → Prop) (x : α) : Prop :=
  ∀ ⦃x' : α⦄ ⦃ν : V.Names⦄ ⦃σ σ' : Scopes⦄, σ.Alike V T earlier ν σ' →
    ((walk x).after σ).Clean → R ν ((walk x).result σ) x' →
    InStep V T earlier ν (walk x) (walk x') σ σ' (R' ν)

section

variable (V T earlier around)

abbrev Expr.StaysInStep (e : Expr) : Prop :=
  Lox.StaysInStep V T earlier (resolveExpr around) (Expr.Alike (V.unresolved T))
    (Expr.Alike V.resolved) e

abbrev ExprsStayInStep (es : List Expr) : Prop :=
  StaysInStep V T earlier (resolveExprs around) (AlikeExprs (V.unresolved T))
    (AlikeExprs V.resolved) es

abbrev Stmt.StaysInStep (s : Stmt) : Prop :=
  Lox.StaysInStep V T earlier (resolveStmt around) (Stmt.Alike (V.unresolved T))
    (Stmt.Alike V.resolved) s

abbrev StmtsStayInStep (body : List Stmt) : Prop :=
  StaysInStep V T earlier (resolveStmts around) (AlikeStmts (V.unresolved T))
    (AlikeStmts V.resolved) body

abbrev Function.StaysInStep (routine : Routine) (f : Function) : Prop :=
  Lox.StaysInStep V T earlier (resolveFunction around routine) (Function.Alike (V.unresolved T))
    (Function.Alike V.resolved) f

abbrev MembersStayInStep (isStatic : Bool) (ms : List Function) : Prop :=
  StaysInStep V T earlier (resolveMembers around isStatic) (AlikeMembers (V.unresolved T))
    (AlikeMembers V.resolved) ms

end

lemma isSome_eq_of_rel {α β : Type} {R : α → β → Prop} {a : Option α} {b : Option β}
    (h : Option.Rel R a b) : a.isSome = b.isSome := by
  cases h <;> rfl

namespace Resolver

lemma binder_of_title {t t' : Token} (ht : (V.unresolved T).title ν t t') :
    (V.unresolved T).binder ν t t' :=
  ⟨⟨ht.1.kind, ht.1.lexeme.trans ht.2.1.symm, ht.1.place⟩, ht.2.2.1, ht.2.2.2⟩

lemma head_resolveFunction (around : Surroundings) (routine : Routine) (f : Function)
    (σ : Scopes) : ((resolveFunction around routine f).result σ).head = f.head := by
  cases f
  rfl

lemma inStep_bothMembers (h : σ.Alike V T earlier ν σ') (hasSuper : Bool)
    {ms ss ms' ss' : List Function} (hw : allWellFormedMember ss)
    (hmethods : MembersStayInStep V T earlier around false ms)
    (hstatics : MembersStayInStep V T earlier around true ss)
    (hclean : ((inMemberScopes hasSuper (bothMembers around ms ss)).after σ).Clean)
    (hms : AlikeMembers (V.unresolved T) ((V.unresolved T).members hasSuper ν)
      ((inMemberScopes hasSuper (bothMembers around ms ss)).result σ).1 ms')
    (hss : AlikeMembers (V.unresolved T) ((V.unresolved T).members hasSuper ν)
      ((inMemberScopes hasSuper (bothMembers around ms ss)).result σ).2 ss') :
    InStep V T earlier ν (inMemberScopes hasSuper (bothMembers around ms ss))
      (inMemberScopes hasSuper (bothMembers around ms' ss')) σ σ' fun a a' =>
        AlikeMembers V.resolved (V.resolved.members hasSuper ν) a.1 a'.1 ∧
        AlikeMembers V.resolved (V.resolved.members hasSuper ν) a.2 a'.2 := by
  refine inStep_inMemberScopes h hasSuper fun {τ τ'} hτ hmembers hreports => ?_
  rw [hmembers] at hms hss
  have hafter : ((bothMembers around ms ss).after τ).Clean :=
    (congrArg Diagnostic.hasError hreports).symm.trans hclean
  have hbefore := hafter.before (keeping_resolveMembers _ true ss hw _).reports
  have hstep := hmethods hτ hbefore hms
  have hstep' := hstatics hstep.scopes hafter hss
  exact ⟨hstep'.scopes, hstep.result, hstep'.result⟩

end Resolver

lemma Expr.StaysInStep.literal {t : Token} {v : Literal} :
    (Expr.literal t v).StaysInStep V T earlier around := by
  intro e' ν σ σ' hσ _ h
  have h : Expr.Alike (V.unresolved T) ν (.literal t v) e' := h
  cases h with
  | literal ht => exact ⟨hσ, .literal ht⟩

lemma Expr.StaysInStep.ref {target : Reference} (hw : (Expr.ref target).WellFormed) :
    (Expr.ref target).StaysInStep V T earlier around := by
  intro e' ν σ σ' hσ hclean h
  have h : Expr.Alike (V.unresolved T) ν (.ref ((readName target).result σ)) e' := h
  cases h with
  | ref hu =>
    have hstep := inStep_readName hσ hw.1 hclean hu
    exact ⟨hstep.scopes, .ref hstep.result⟩

lemma Expr.StaysInStep.assign {target : Reference} {value : Expr} {n : Nat}
    (hw : (Expr.assign target value n).WellFormed) (hpart : value.StaysInStep V T earlier around) :
    (Expr.assign target value n).StaysInStep V T earlier around := by
  intro e' ν σ σ' hσ hclean h
  have h : Expr.Alike (V.unresolved T) ν
    (.assign ((find target false).result ((resolveExpr around value).after σ))
      ((resolveExpr around value).result σ) n) e' := h
  cases h with
  | assign hu hv =>
    rw [result_find hw.1] at hu
    have hfind := (keeping_find target false ((resolveExpr around value).after σ)).reports
    have hstep := hpart hσ (hclean.before hfind) hv
    have hassign := inStep_find hstep.scopes hw.1 hu false
    exact ⟨hassign.scopes, .assign hassign.result hstep.result⟩

lemma Expr.StaysInStep.get {object : Expr} {t : Token}
    (hpart : object.StaysInStep V T earlier around) :
    (Expr.get object t).StaysInStep V T earlier around := by
  intro e' ν σ σ' hσ hclean h
  have h : Expr.Alike (V.unresolved T) ν (.get ((resolveExpr around object).result σ) t) e' := h
  cases h with
  | get ho ht =>
    have hstep := hpart hσ hclean ho
    exact ⟨hstep.scopes, .get hstep.result ht⟩

lemma Expr.StaysInStep.set {object value : Expr} {t : Token} {n : Nat}
    (hw : (Expr.set object t value n).WellFormed) (h₁ : object.StaysInStep V T earlier around)
    (h₂ : value.StaysInStep V T earlier around) :
    (Expr.set object t value n).StaysInStep V T earlier around := by
  intro e' ν σ σ' hσ hclean h
  have h : Expr.Alike (V.unresolved T) ν (.set ((resolveExpr around object).result σ) t
    ((resolveExpr around value).result ((resolveExpr around object).after σ)) n) e' := h
  cases h with
  | set ho ht hv =>
    have hvalue := keeping_resolveExpr around value hw.2.2 ((resolveExpr around object).after σ)
    have hobject := h₁ hσ (hclean.before hvalue.reports) ho
    have hstep := h₂ hobject.scopes hclean hv
    exact ⟨hstep.scopes, .set hobject.result ht hstep.result⟩

lemma Expr.StaysInStep.conditional {c yes no : Expr} {t : Token}
    (hw : (Expr.conditional c t yes no).WellFormed) (h₁ : c.StaysInStep V T earlier around)
    (h₂ : yes.StaysInStep V T earlier around) (h₃ : no.StaysInStep V T earlier around) :
    (Expr.conditional c t yes no).StaysInStep V T earlier around := by
  intro e' ν σ σ' hσ hclean h
  have h : Expr.Alike (V.unresolved T) ν (.conditional ((resolveExpr around c).result σ) t
    ((resolveExpr around yes).result ((resolveExpr around c).after σ))
    ((resolveExpr around no).result ((resolveExpr around yes).after
      ((resolveExpr around c).after σ)))) e' := h
  cases h with
  | conditional hc ht hy hn =>
    have hno := hclean.before (keeping_resolveExpr around no hw.2.2 _).reports
    have hyes := hno.before (keeping_resolveExpr around yes hw.2.1 _).reports
    have hcondition := h₁ hσ hyes hc
    have hstep := h₂ hcondition.scopes hno hy
    have hstep' := h₃ hstep.scopes hclean hn
    exact ⟨hstep'.scopes, .conditional hcondition.result ht hstep.result hstep'.result⟩

lemma Expr.StaysInStep.lambda {f : Function} (hpart : f.StaysInStep V T earlier around .ordinary) :
    (Expr.lambda f).StaysInStep V T earlier around := by
  intro e' ν σ σ' hσ hclean h
  have h : Expr.Alike (V.unresolved T) ν
    (.lambda ((resolveFunction around .ordinary f).result σ)) e' := h
  cases h with
  | lambda hf =>
    have hstep := hpart hσ hclean hf
    exact ⟨hstep.scopes, .lambda hstep.result⟩

lemma Expr.StaysInStep.comma {l r : Expr} {t : Token} (hw : (Expr.comma l t r).WellFormed)
    (h₁ : l.StaysInStep V T earlier around) (h₂ : r.StaysInStep V T earlier around) :
    (Expr.comma l t r).StaysInStep V T earlier around := by
  intro e' ν σ σ' hσ hclean h
  have h : Expr.Alike (V.unresolved T) ν (.comma ((resolveExpr around l).result σ) t
    ((resolveExpr around r).result ((resolveExpr around l).after σ))) e' := h
  cases h with
  | comma hl ht hr =>
    have hleft := hclean.before (keeping_resolveExpr around r hw.2 _).reports
    have hstep := h₁ hσ hleft hl
    have hstep' := h₂ hstep.scopes hclean hr
    exact ⟨hstep'.scopes, .comma hstep.result ht hstep'.result⟩

lemma Expr.StaysInStep.binary {l r : Expr} {t : Token} (hw : (Expr.binary l t r).WellFormed)
    (h₁ : l.StaysInStep V T earlier around) (h₂ : r.StaysInStep V T earlier around) :
    (Expr.binary l t r).StaysInStep V T earlier around := by
  intro e' ν σ σ' hσ hclean h
  have h : Expr.Alike (V.unresolved T) ν (.binary ((resolveExpr around l).result σ) t
    ((resolveExpr around r).result ((resolveExpr around l).after σ))) e' := h
  cases h with
  | binary hl ht hr =>
    have hleft := hclean.before (keeping_resolveExpr around r hw.2.2 _).reports
    have hstep := h₁ hσ hleft hl
    have hstep' := h₂ hstep.scopes hclean hr
    exact ⟨hstep'.scopes, .binary hstep.result ht hstep'.result⟩

lemma Expr.StaysInStep.logical {l r : Expr} {t : Token} (hw : (Expr.logical l t r).WellFormed)
    (h₁ : l.StaysInStep V T earlier around) (h₂ : r.StaysInStep V T earlier around) :
    (Expr.logical l t r).StaysInStep V T earlier around := by
  intro e' ν σ σ' hσ hclean h
  have h : Expr.Alike (V.unresolved T) ν (.logical ((resolveExpr around l).result σ) t
    ((resolveExpr around r).result ((resolveExpr around l).after σ))) e' := h
  cases h with
  | logical hl ht hr =>
    have hleft := hclean.before (keeping_resolveExpr around r hw.2.2 _).reports
    have hstep := h₁ hσ hleft hl
    have hstep' := h₂ hstep.scopes hclean hr
    exact ⟨hstep'.scopes, .logical hstep.result ht hstep'.result⟩

lemma Expr.StaysInStep.unary {t : Token} {e : Expr} (hpart : e.StaysInStep V T earlier around) :
    (Expr.unary t e).StaysInStep V T earlier around := by
  intro e' ν σ σ' hσ hclean h
  have h : Expr.Alike (V.unresolved T) ν (.unary t ((resolveExpr around e).result σ)) e' := h
  cases h with
  | unary ht he =>
    have hstep := hpart hσ hclean he
    exact ⟨hstep.scopes, .unary ht hstep.result⟩

lemma Expr.StaysInStep.call {callee : Expr} {t : Token} {es : List Expr}
    (hw : (Expr.call callee t es).WellFormed) (h₁ : callee.StaysInStep V T earlier around)
    (h₂ : ExprsStayInStep V T earlier around es) :
    (Expr.call callee t es).StaysInStep V T earlier around := by
  intro e' ν σ σ' hσ hclean h
  have h : Expr.Alike (V.unresolved T) ν (.call ((resolveExpr around callee).result σ) t
    ((resolveExprs around es).result ((resolveExpr around callee).after σ))) e' := h
  cases h with
  | call hc ht hes =>
    have hcallee := hclean.before (keeping_resolveExprs around es hw.2 _).reports
    have hstep := h₁ hσ hcallee hc
    have hstep' := h₂ hstep.scopes hclean hes
    exact ⟨hstep'.scopes, .call hstep.result ht hstep'.result⟩

lemma Expr.StaysInStep.this {target : Reference} (hw : (Expr.this target).WellFormed) :
    (Expr.this target).StaysInStep V T earlier around := by
  intro e' ν σ σ' hσ hclean h
  have h : Expr.Alike (V.unresolved T) ν (.this ((readThis around target).result σ)) e' := h
  cases h with
  | this hu =>
    have hstep := inStep_readThis hσ hw.1 hclean hu
    exact ⟨hstep.scopes, .this hstep.result⟩

lemma Expr.StaysInStep.super {target : Reference} {t : Token}
    (hw : (Expr.super target t).WellFormed) :
    (Expr.super target t).StaysInStep V T earlier around := by
  intro e' ν σ σ' hσ hclean h
  have h : Expr.Alike (V.unresolved T) ν (.super ((readSuper around target).result σ) t) e' := h
  cases h with
  | super hu ht =>
    have hstep := inStep_readSuper hσ hw.1 hclean hu
    exact ⟨hstep.scopes, .super hstep.result ht⟩

lemma Expr.StaysInStep.grouping {t : Token} {e : Expr} (hpart : e.StaysInStep V T earlier around) :
    (Expr.grouping t e).StaysInStep V T earlier around := by
  intro e' ν σ σ' hσ hclean h
  have h : Expr.Alike (V.unresolved T) ν (.grouping t ((resolveExpr around e).result σ)) e' := h
  cases h with
  | grouping ht he =>
    have hstep := hpart hσ hclean he
    exact ⟨hstep.scopes, .grouping ht hstep.result⟩

lemma Expr.StaysInStep.list {t : Token} {es : List Expr}
    (hpart : ExprsStayInStep V T earlier around es) :
    (Expr.list t es).StaysInStep V T earlier around := by
  intro e' ν σ σ' hσ hclean h
  have h : Expr.Alike (V.unresolved T) ν (.list t ((resolveExprs around es).result σ)) e' := h
  cases h with
  | list ht hes =>
    have hstep := hpart hσ hclean hes
    exact ⟨hstep.scopes, .list ht hstep.result⟩

lemma ExprsStayInStep.nil : ExprsStayInStep V T earlier around [] := by
  intro es' ν σ σ' hσ _ h
  have h : AlikeExprs (V.unresolved T) ν [] es' := h
  cases h with
  | nil => exact ⟨hσ, .nil⟩

lemma ExprsStayInStep.cons {e : Expr} {es : List Expr} (hw : allWellFormedExpr (e :: es))
    (h₁ : e.StaysInStep V T earlier around) (h₂ : ExprsStayInStep V T earlier around es) :
    ExprsStayInStep V T earlier around (e :: es) := by
  intro es' ν σ σ' hσ hclean h
  have h : AlikeExprs (V.unresolved T) ν ((resolveExpr around e).result σ ::
    (resolveExprs around es).result ((resolveExpr around e).after σ)) es' := h
  cases h with
  | cons he hes =>
    have hfirst := hclean.before (keeping_resolveExprs around es hw.2 _).reports
    have hstep := h₁ hσ hfirst he
    have hstep' := h₂ hstep.scopes hclean hes
    exact ⟨hstep'.scopes, .cons hstep.result hstep'.result⟩

lemma Stmt.StaysInStep.expression {n : Nat} {e : Expr} (hpart : e.StaysInStep V T earlier around) :
    (Stmt.expression n e).StaysInStep V T earlier around := by
  intro s' ν σ σ' hσ hclean h
  have h : Stmt.Alike (V.unresolved T) ν (.expression n ((resolveExpr around e).result σ)) s' := h
  cases h with
  | expression he =>
    have hstep := hpart hσ hclean he
    exact ⟨hstep.scopes, .expression hstep.result⟩

lemma Stmt.StaysInStep.print {t : Token} {e : Expr} (hpart : e.StaysInStep V T earlier around) :
    (Stmt.print t e).StaysInStep V T earlier around := by
  intro s' ν σ σ' hσ hclean h
  have h : Stmt.Alike (V.unresolved T) ν (.print t ((resolveExpr around e).result σ)) s' := h
  cases h with
  | print ht he =>
    have hstep := hpart hσ hclean he
    exact ⟨hstep.scopes, .print ht hstep.result⟩

lemma Stmt.StaysInStep.declare {t : Token} : (Stmt.var t none).StaysInStep V T earlier around := by
  intro s' ν σ σ' hσ hclean h
  have h : Stmt.Alike (V.unresolved T) ν (.var t none) s' := h
  cases h with
  | declare ht => exact ⟨alike_declareReady hσ ht hclean, .declare ht.1⟩

lemma Stmt.StaysInStep.define {t : Token} {e : Expr} (hw : (Stmt.var t (some e)).WellFormed)
    (hpart : e.StaysInStep V T earlier around) :
    (Stmt.var t (some e)).StaysInStep V T earlier around := by
  intro s' ν σ σ' hσ hclean h
  have h : Stmt.Alike (V.unresolved T) ν
    (.var t (some ((resolveExpr around e).result (σ.declare t true)))) s' := h
  cases h with
  | define ht he =>
    have hkeeps := keeping_resolveExpr around e hw.2 (σ.declare t true)
    have hinit := hclean.before hkeeps.declares_define.reports
    have hdeclared := alike_declare hσ ht (hinit.before hkeeps.reports)
    have hstep := hpart hdeclared hinit he
    exact ⟨hstep.scopes.define ht.2.1 ht.1.lexeme, .define ht.1 hstep.result⟩

lemma Stmt.StaysInStep.block {n : Nat} {body : List Stmt}
    (hpart : StmtsStayInStep V T earlier around body) :
    (Stmt.block n body).StaysInStep V T earlier around := by
  intro s' ν σ σ' hσ hclean h
  have h : Stmt.Alike (V.unresolved T) ν
    (.block n ((resolveStmts around body).result σ.enter)) s' := h
  cases h with
  | block henter hbody =>
    obtain ⟨r, rfl⟩ := henter
    have hinside : ((resolveStmts around body).after σ.enter).Clean := by
      have hreports := Scopes.reports_leave ((resolveStmts around body).after σ.enter)
      exact (congrArg Diagnostic.hasError hreports).symm.trans hclean
    have hstep := (hpart (hσ.enter r) hinside hbody).inScope
    exact ⟨hstep.scopes, .block ⟨r, rfl⟩ hstep.result⟩

lemma Stmt.StaysInStep.ifOnly {t : Token} {c : Expr} {yes : Stmt}
    (hw : (Stmt.ifElse t c yes none).WellFormed) (h₁ : c.StaysInStep V T earlier around)
    (h₂ : yes.StaysInStep V T earlier around) :
    (Stmt.ifElse t c yes none).StaysInStep V T earlier around := by
  intro s' ν σ σ' hσ hclean h
  have h : Stmt.Alike (V.unresolved T) ν (.ifElse t ((resolveExpr around c).result σ)
    ((resolveStmt around yes).result ((resolveExpr around c).after σ)) none) s' := h
  cases h with
  | ifOnly ht hc hy =>
    have hyes := hclean.before (declaring_resolveStmt around yes hw.2.1 _).reports
    have hstep := h₁ hσ hyes hc
    have hstep' := h₂ hstep.scopes hclean hy
    exact ⟨hstep'.scopes, .ifOnly ht hstep.result hstep'.result⟩

lemma Stmt.StaysInStep.ifElse {t : Token} {c : Expr} {yes no : Stmt}
    (hw : (Stmt.ifElse t c yes (some no)).WellFormed) (h₁ : c.StaysInStep V T earlier around)
    (h₂ : yes.StaysInStep V T earlier around) (h₃ : no.StaysInStep V T earlier around) :
    (Stmt.ifElse t c yes (some no)).StaysInStep V T earlier around := by
  intro s' ν σ σ' hσ hclean h
  have h : Stmt.Alike (V.unresolved T) ν (.ifElse t ((resolveExpr around c).result σ)
    ((resolveStmt around yes).result ((resolveExpr around c).after σ))
    (some ((resolveStmt around no).result ((resolveStmt around yes).after
      ((resolveExpr around c).after σ))))) s' := h
  cases h with
  | ifElse ht hc hy hn =>
    have hno := hclean.before (declaring_resolveStmt around no hw.2.2.1 _).reports
    have hyes := hno.before (declaring_resolveStmt around yes hw.2.1.1 _).reports
    have hcondition := h₁ hσ hyes hc
    have hstep := h₂ hcondition.scopes hno hy
    have hstep' := h₃ hstep.scopes hclean hn
    exact ⟨hstep'.scopes, .ifElse ht hcondition.result hstep.result hstep'.result⟩

lemma Stmt.StaysInStep.whileLoop {t : Token} {c : Expr} {body : Stmt}
    (hw : (Stmt.whileLoop t c body).WellFormed) (h₁ : c.StaysInStep V T earlier around)
    (h₂ : body.StaysInStep V T earlier around) :
    (Stmt.whileLoop t c body).StaysInStep V T earlier around := by
  intro s' ν σ σ' hσ hclean h
  have h : Stmt.Alike (V.unresolved T) ν (.whileLoop t ((resolveExpr around c).result σ)
    ((resolveStmt around body).result ((resolveExpr around c).after σ))) s' := h
  cases h with
  | whileLoop ht hc hb =>
    have hbody := hclean.before (declaring_resolveStmt around body hw.2.1 _).reports
    have hstep := h₁ hσ hbody hc
    have hstep' := h₂ hstep.scopes hclean hb
    exact ⟨hstep'.scopes, .whileLoop ht hstep.result hstep'.result⟩

lemma Stmt.StaysInStep.breakLoop {t : Token} :
    (Stmt.breakLoop t).StaysInStep V T earlier around := by
  intro s' ν σ σ' hσ _ h
  have h : Stmt.Alike (V.unresolved T) ν (.breakLoop t) s' := h
  cases h with
  | breakLoop ht => exact ⟨hσ, .breakLoop ht⟩

lemma Stmt.StaysInStep.returnNothing {t : Token} :
    (Stmt.returnValue t none).StaysInStep V T earlier around := by
  intro s' ν σ σ' hσ hclean h
  have h : Stmt.Alike (V.unresolved T) ν (.returnValue t none) s' := h
  cases h with
  | @returnNothing _ _ t' ht =>
    have hcheck : ((checkReturn around t false).after σ).Clean := hclean
    refine ⟨?_, .returnNothing ht⟩
    change ((checkReturn around t false).after σ).Alike V T earlier ν
      ((checkReturn around t' false).after σ')
    rwa [after_checkReturn hcheck, after_checkReturn hcheck]

lemma Stmt.StaysInStep.returnValue {t : Token} {e : Expr}
    (hw : (Stmt.returnValue t (some e)).WellFormed) (hpart : e.StaysInStep V T earlier around) :
    (Stmt.returnValue t (some e)).StaysInStep V T earlier around := by
  intro s' ν σ σ' hσ hclean h
  have h : Stmt.Alike (V.unresolved T) ν (.returnValue t
    (some ((resolveExpr around e).result ((checkReturn around t true).after σ)))) s' := h
  cases h with
  | @returnValue _ _ t' _ _ ht he =>
    have hcheck : ((checkReturn around t true).after σ).Clean :=
      hclean.before (keeping_resolveExpr around e hw _).reports
    have hcheck' := after_checkReturn hcheck
    have hreturn : ((checkReturn around t true).after σ).Alike V T earlier ν
        ((checkReturn around t' true).after σ') := by rwa [hcheck', hcheck']
    have hstep := hpart hreturn hclean he
    exact ⟨hstep.scopes, .returnValue ht hstep.result⟩

lemma Stmt.StaysInStep.function {f : Function} (hw : (Stmt.function f).WellFormed)
    (hpart : f.StaysInStep V T earlier around .ordinary) :
    (Stmt.function f).StaysInStep V T earlier around := by
  intro s' ν σ σ' hσ hclean h
  have h : Stmt.Alike (V.unresolved T) ν (.function ((resolveFunction around .ordinary f).result
    ((declareReady f.head true).after σ))) s' := h
  cases h with
  | @function _ _ f' ht hf =>
    have hdeclare := hclean.before (keeping_resolveFunction around .ordinary f hw.2 _).reports
    rw [head_resolveFunction] at ht
    have hdeclared := alike_declareReady hσ (binder_of_title ht) hdeclare
    have hstep := hpart hdeclared hclean hf
    have htitle : V.resolved.title ν
        ((resolveFunction around .ordinary f).result ((declareReady f.head true).after σ)).head
        ((resolveFunction around .ordinary f').result
          ((declareReady f'.head true).after σ')).head := by
      rw [head_resolveFunction, head_resolveFunction]
      exact ⟨ht.1, ht.2.1⟩
    exact ⟨hstep.scopes, .function htitle hstep.result⟩

lemma Stmt.StaysInStep.classDecl {t : Token} {parent : Option Reference} {n : Nat}
    {ms ss : List Function} (hw : (Stmt.classDecl t parent n ms ss).WellFormed)
    (h₁ : ∀ around, MembersStayInStep V T earlier around false ms)
    (h₂ : ∀ around, MembersStayInStep V T earlier around true ss) :
    (Stmt.classDecl t parent n ms ss).StaysInStep V T earlier around := by
  intro s' ν σ σ' hσ hclean h
  obtain ⟨hasSuper, hhas⟩ : ∃ hasSuper,
      ((resolveSuperclass t parent).result ((declareReady t true).after σ)).isSome = hasSuper :=
    ⟨_, rfl⟩
  obtain ⟨hafter, hresult⟩ := resolveStmt_classDecl around n hhas
  rw [hresult] at h
  rw [hafter] at hclean
  cases h with
  | @classDecl _ _ t' _ parent' _ n' _ ms' _ ss' ht hp hms hss =>
    rw [hhas] at hms hss
    have hsuperclass := hclean.before
      ((keeping_bothMembers _ hw.2.2.1 hw.2.2.2).growing.inMemberScopes _).reports
    have hdeclare := hsuperclass.before (keeping_resolveSuperclass t parent _).reports
    have hdeclared := alike_declareReady hσ (binder_of_title ht) hdeclare
    have hparent := inStep_resolveSuperclass hdeclared ht (fun p hp => (hw.2.1 p hp).1)
      hsuperclass hp
    have hboth := inStep_bothMembers hparent.scopes hasSuper hw.2.2.2 (h₁ _) (h₂ _) hclean hms hss
    have hhas' : ((resolveSuperclass t' parent').result
        ((declareReady t' true).after σ')).isSome = hasSuper :=
      (isSome_eq_of_rel hparent.result).symm.trans hhas
    obtain ⟨hafter', hresult'⟩ := resolveStmt_classDecl around n' hhas'
    refine ⟨?_, ?_⟩
    · rw [hafter, hafter']
      exact hboth.scopes
    · rw [hresult, hresult']
      refine .classDecl ⟨ht.1, ht.2.1⟩ hparent.result ?_ ?_
      · rw [hhas]
        exact hboth.result.1
      · rw [hhas]
        exact hboth.result.2

lemma StmtsStayInStep.nil : StmtsStayInStep V T earlier around [] := by
  intro body' ν σ σ' hσ _ h
  have h : AlikeStmts (V.unresolved T) ν [] body' := h
  cases h with
  | nil => exact ⟨hσ, .nil⟩

lemma StmtsStayInStep.cons {s : Stmt} {body : List Stmt} (hw : allWellFormed (s :: body))
    (h₁ : s.StaysInStep V T earlier around) (h₂ : StmtsStayInStep V T earlier around body) :
    StmtsStayInStep V T earlier around (s :: body) := by
  intro body' ν σ σ' hσ hclean h
  have h : AlikeStmts (V.unresolved T) ν ((resolveStmt around s).result σ ::
    (resolveStmts around body).result ((resolveStmt around s).after σ)) body' := h
  cases h with
  | cons hs hbody =>
    have hfirst := hclean.before (growing_resolveStmts around body hw.2 _).reports
    have hstep := h₁ hσ hfirst hs
    have hstep' := h₂ hstep.scopes hclean hbody
    exact ⟨hstep'.scopes, .cons hstep.result hstep'.result⟩

lemma Function.StaysInStep.mk {head : Token} {params : Option Params} {n : Nat} {body : List Stmt}
    (hw : (Function.mk head params n body).WellFormed)
    (hpart : StmtsStayInStep V T earlier { around with routine } body) :
    (Function.mk head params n body).StaysInStep V T earlier around routine := by
  intro f' ν σ σ' hσ hclean h
  have h : Function.Alike (V.unresolved T) ν (.mk head params n
    ((resolveStmts { around with routine } body).result
      ((declareParams ((params.map Params.names).getD [])).after σ.enter))) f' := h
  cases h with
  | @mk _ _ _ _ _ params' _ _ _ _ ht henter hp hbody =>
    obtain ⟨r, rfl⟩ := henter
    have hinside : ((resolveStmts { around with routine } body).after
        ((declareParams ((params.map Params.names).getD [])).after σ.enter)).Clean := by
      have hreports := Scopes.reports_leave ((resolveStmts { around with routine } body).after
        ((declareParams ((params.map Params.names).getD [])).after σ.enter))
      exact (congrArg Diagnostic.hasError hreports).symm.trans hclean
    have hparams := hinside.before (growing_resolveStmts _ body hw.2.1 _).reports
    have hnames : List.Forall₂ ((V.unresolved T).binder (.cons r ν))
        ((params.map Params.names).getD []) ((params'.map Params.names).getD []) := by
      cases hp with
      | none => exact .nil
      | some hp => exact hp
    have hdeclared := alike_declareParams (hσ.enter r) hnames hparams
    have hstep := hpart hdeclared hinside hbody
    refine ⟨hstep.scopes.leave, .mk ht ⟨r, rfl⟩ ?_ hstep.result⟩
    exact optionRel_mono hp fun p p' hpp => hpp.imp fun _ _ ht => ht.1

lemma MembersStayInStep.nil : MembersStayInStep V T earlier around isStatic [] := by
  intro ms' ν σ σ' hσ _ h
  have h : AlikeMembers (V.unresolved T) ν [] ms' := h
  cases h with
  | nil => exact ⟨hσ, .nil⟩

lemma MembersStayInStep.cons {f : Function} {ms : List Function}
    (hw : allWellFormedMember (f :: ms)) (h₁ : ∀ routine, f.StaysInStep V T earlier around routine)
    (h₂ : MembersStayInStep V T earlier around isStatic ms) :
    MembersStayInStep V T earlier around isStatic (f :: ms) := by
  intro ms' ν σ σ' hσ hclean h
  have h : AlikeMembers (V.unresolved T) ν
    ((resolveFunction around (memberRoutine isStatic f) f).result σ ::
      (resolveMembers around isStatic ms).result
        ((resolveFunction around (memberRoutine isStatic f) f).after σ)) ms' := h
  cases h with
  | @cons _ _ f' _ ms' hf hms =>
    have hfirst := hclean.before (keeping_resolveMembers around isStatic ms hw.2 _).reports
    have hstep : InStep V T earlier ν (resolveFunction around (memberRoutine isStatic f) f)
        (resolveFunction around (memberRoutine isStatic f') f') σ σ'
        (Function.Alike V.resolved ν) := by
      rw [memberRoutine_alike hf]
      exact h₁ _ hσ hfirst hf
    have hstep' := h₂ hstep.scopes hclean hms
    exact ⟨hstep'.scopes, .cons hstep.result hstep'.result⟩

mutual

lemma Expr.WellFormed.inStep (around : Surroundings) :
    (e : Expr) → e.WellFormed → e.StaysInStep V T earlier around
  | .literal _ _, _ => .literal
  | .ref _, hw => .ref hw
  | .assign _ value _, hw => .assign hw (Expr.WellFormed.inStep around value hw.2.2)
  | .get object _, hw => .get (Expr.WellFormed.inStep around object hw.1)
  | .set object _ value _, hw =>
    .set hw (Expr.WellFormed.inStep around object hw.1) (Expr.WellFormed.inStep around value hw.2.2)
  | .conditional c _ yes no, hw =>
    .conditional hw (Expr.WellFormed.inStep around c hw.1)
      (Expr.WellFormed.inStep around yes hw.2.1) (Expr.WellFormed.inStep around no hw.2.2)
  | .lambda f, hw => .lambda (Function.WellFormed.inStep around .ordinary f hw)
  | .comma l _ r, hw =>
    .comma hw (Expr.WellFormed.inStep around l hw.1) (Expr.WellFormed.inStep around r hw.2)
  | .binary l _ r, hw =>
    .binary hw (Expr.WellFormed.inStep around l hw.2.1) (Expr.WellFormed.inStep around r hw.2.2)
  | .logical l _ r, hw =>
    .logical hw (Expr.WellFormed.inStep around l hw.2.1) (Expr.WellFormed.inStep around r hw.2.2)
  | .unary _ e, hw => .unary (Expr.WellFormed.inStep around e hw.2)
  | .call callee _ es, hw =>
    .call hw (Expr.WellFormed.inStep around callee hw.1) (inStep_allWellFormedExpr around es hw.2)
  | .this _, hw => .this hw
  | .super _ _, hw => .super hw
  | .grouping _ e, hw => .grouping (Expr.WellFormed.inStep around e hw)
  | .list _ es, hw => .list (inStep_allWellFormedExpr around es hw)
termination_by structural x => x

lemma inStep_allWellFormedExpr (around : Surroundings) :
    (es : List Expr) → allWellFormedExpr es → ExprsStayInStep V T earlier around es
  | [], _ => .nil
  | e :: es, hw =>
    .cons hw (Expr.WellFormed.inStep around e hw.1) (inStep_allWellFormedExpr around es hw.2)
termination_by structural x => x

lemma Stmt.WellFormed.inStep (around : Surroundings) :
    (s : Stmt) → s.WellFormed → s.StaysInStep V T earlier around
  | .expression _ e, hw => .expression (Expr.WellFormed.inStep around e hw)
  | .print _ e, hw => .print (Expr.WellFormed.inStep around e hw)
  | .var _ none, _ => .declare
  | .var _ (some e), hw => .define hw (Expr.WellFormed.inStep around e hw.2)
  | .block _ body, hw => .block (inStep_allWellFormed around body hw)
  | .ifElse _ c yes none, hw =>
    .ifOnly hw (Expr.WellFormed.inStep around c hw.1) (Stmt.WellFormed.inStep around yes hw.2.1)
  | .ifElse _ c yes (some no), hw =>
    .ifElse hw (Expr.WellFormed.inStep around c hw.1) (Stmt.WellFormed.inStep around yes hw.2.1.1)
      (Stmt.WellFormed.inStep around no hw.2.2.1)
  | .whileLoop _ c body, hw =>
    .whileLoop hw (Expr.WellFormed.inStep around c hw.1) (Stmt.WellFormed.inStep around body hw.2.1)
  | .breakLoop _, _ => .breakLoop
  | .returnValue _ none, _ => .returnNothing
  | .returnValue _ (some e), hw => .returnValue hw (Expr.WellFormed.inStep around e hw)
  | .function f, hw => .function hw (Function.WellFormed.inStep around .ordinary f hw.2)
  | .classDecl _ _ _ ms ss, hw =>
    .classDecl hw (fun around => inStep_allWellFormedMember around false ms hw.2.2.1)
      (fun around => inStep_allWellFormedMember around true ss hw.2.2.2)
  | .invalid _, hw => hw.elim
termination_by structural x => x

lemma inStep_allWellFormed (around : Surroundings) :
    (body : List Stmt) → allWellFormed body → StmtsStayInStep V T earlier around body
  | [], _ => .nil
  | s :: body, hw =>
    .cons hw (Stmt.WellFormed.inStep around s hw.1) (inStep_allWellFormed around body hw.2)
termination_by structural x => x

lemma Function.WellFormed.inStep (around : Surroundings) (routine : Routine) :
    (f : Function) → f.WellFormed → f.StaysInStep V T earlier around routine
  | .mk _ _ _ body, hw => .mk hw (inStep_allWellFormed { around with routine } body hw.2.1)
termination_by structural x => x

lemma inStep_allWellFormedMember (around : Surroundings) (isStatic : Bool) :
    (ms : List Function) → allWellFormedMember ms →
      MembersStayInStep V T earlier around isStatic ms
  | [], _ => .nil
  | f :: ms, hw =>
    .cons hw (fun routine => Function.WellFormed.inStep around routine f hw.1)
      (inStep_allWellFormedMember around isStatic ms hw.2)
termination_by structural x => x

end

end Lox
