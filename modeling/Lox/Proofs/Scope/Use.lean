import Lox.Proofs.Scope.Sound

namespace Lox

open Resolver

def Reference.at (target : Reference) (σ : Scopes) : Reference :=
  { target with depth := σ.depth? target.name.lexeme }

namespace Resolver

variable {target : Reference} {σ : Scopes}

lemma result_find (h : target.IsFresh) (isRead : Bool) :
    (find target isRead).result σ = target.at σ := by
  obtain ⟨name, depth⟩ := target
  cases (h : depth = none)
  unfold Resolver.result find Reference.at
  simp only [bind, StateT.bind, get, getThe, MonadStateOf.get, StateT.get, pure]
  cases σ.depth? name.lexeme with
  | none => rfl
  | some depth => cases isRead <;> rfl

lemma readName_eq (target : Reference) (σ : Scopes) :
    readName target σ =
      match σ.outline.head?.bind fun status => status target.name.lexeme with
      | some false => find target true (σ.report target.name .readInInitializer)
      | _ => find target true σ := by
  rw [← Scopes.innermost?_map_ready]
  unfold readName
  simp only [bind, StateT.bind, get, getThe, MonadStateOf.get, StateT.get, pure]
  cases σ.innermost? target.name.lexeme with
  | none => rfl
  | some b =>
    obtain ⟨token, ready, used, tracked⟩ := b
    cases ready <;> rfl

lemma result_readName (h : target.IsFresh) : (readName target).result σ = target.at σ := by
  rw [Resolver.result, readName_eq]
  split
  · exact result_find h true
  · exact result_find h true

lemma isError_report (σ : Scopes) (t : Token) {problem : Problem}
    (h : problem.severity = .error) : Diagnostic.hasError (σ.report t problem).reports = true := by
  rw [Diagnostic.hasError, Scopes.report, List.any_append, Bool.or_eq_true]
  right
  simp [Diagnostic.isError, Diagnostic.severity, Diagnostic.atToken, h]

theorem Keeping.absurd_report {α : Type} {walk : Resolver α} (h : Keeping walk) {t : Token}
    {problem : Problem} (hp : problem.severity = .error)
    (hclean : Diagnostic.hasError (walk.after (σ.report t problem)).reports = false) : False := by
  have herror := isError_report σ t hp
  rw [Diagnostic.hasError_of_prefix (h (σ.report t problem)).reports hclean] at herror
  cases herror

theorem ready_of_readName
    (h : Diagnostic.hasError ((readName target).after σ).reports = false) :
    ∀ status ∈ σ.outline.head?, status target.name.lexeme ≠ some false := by
  intro status hstatus hname
  rw [Resolver.after, readName_eq, hstatus, Option.bind_some, hname] at h
  exact (keeping_find target true).absurd_report rfl h

theorem routine_of_checkReturn {around : Surroundings} {keyword : Token} {hasValue : Bool}
    (h : Diagnostic.hasError ((checkReturn around keyword hasValue).after σ).reports = false) :
    around.routine ≠ .topLevel ∧ (hasValue = true → around.routine ≠ .initializer) := by
  unfold checkReturn at h
  constructor
  · intro htop
    simp only [htop, reduceCtorEq, decide_false, Bool.and_false, if_true] at h
    exact (keeping_pure ()).absurd_report rfl h
  · rintro rfl hinit
    simp only [hinit, reduceCtorEq, if_false, decide_true, Bool.and_self, if_true] at h
    exact (keeping_pure ()).absurd_report rfl h

end Resolver

namespace Site

variable {p : Site} {target : Reference}

lemma Sound.ref (h : p.Sound (.expr (.ref target))) :
    p.expr (.ref target) = .ref (target.at p.scopes) ∧
      ∀ status ∈ p.scopes.outline.head?, status target.name.lexeme ≠ some false := by
  refine ⟨?_, ready_of_readName h.leaves.clean⟩
  rw [← result_readName h.wellFormed.1]
  rfl

lemma Sound.assign {value : Expr} {line : Nat}
    (h : p.Sound (.expr (.assign target value line))) :
    p.expr (.assign target value line) = .assign (target.at p.scopes) (p.expr value) line := by
  have houtline := (keeping_resolveExpr p.around value h.wellFormed.2.2 p.scopes).outline
  have hat : target.at (p.afterExpr value).scopes = target.at p.scopes := by
    rw [Reference.at, Reference.at, Scopes.depth?_eq, Scopes.depth?_eq, ← houtline]
    rfl
  rw [expr_assign, result_find h.wellFormed.1, hat]

lemma Sound.this (h : p.Sound (.expr (.this target))) :
    p.expr (.this target) = .this (target.at p.scopes) ∧
      ∃ depth, Scopes.nearest? "this" p.scopes.outline = some (depth, true) := by
  have hclean := h.leaves.clean
  have hreceiver := h.receiver
  have hwell := h.wellFormed
  obtain ⟨⟨routine, membership⟩, σ, closing⟩ := p
  change Diagnostic.hasError ((readThis ⟨routine, membership⟩ target).after σ).reports = false
    at hclean
  cases membership with
  | noClass => exact ((keeping_pure ()).absurd_report rfl hclean).elim
  | rootClass | subclass =>
    obtain ⟨depth, hdepth, -⟩ := hreceiver (fun hm => nomatch hm)
    refine ⟨?_, depth, hdepth⟩
    exact congrArg Expr.this (result_find hwell.1 true)

lemma Sound.super {method : Token} (h : p.Sound (.expr (.super target method))) :
    p.expr (.super target method) = .super (target.at p.scopes) method ∧
      ∃ depth, Scopes.nearest? "this" p.scopes.outline = some (depth, true) ∧
        Scopes.nearest? "super" p.scopes.outline = some (depth + 1, true) := by
  have hclean := h.leaves.clean
  have hreceiver := h.receiver
  have hwell := h.wellFormed
  obtain ⟨⟨routine, membership⟩, σ, closing⟩ := p
  change Diagnostic.hasError ((readSuper ⟨routine, membership⟩ target).after σ).reports = false
    at hclean
  cases membership with
  | noClass | rootClass => exact ((keeping_pure ()).absurd_report rfl hclean).elim
  | subclass =>
    obtain ⟨depth, hthis, hsuper⟩ := hreceiver (fun hm => nomatch hm)
    refine ⟨?_, depth, hthis, hsuper rfl⟩
    exact congrArg (Expr.super · method) (result_find hwell.1 true)

theorem Sound.superclass {name : Token} {parent : Reference} {line : Nat}
    {methods statics : List Function}
    (h : p.Sound (.stmt (.classDecl name (some parent) line methods statics))) :
    p.superclass name (some parent) = some (parent.at p.scopes) ∧
      ∀ status ∈ p.scopes.outline.head?, status parent.name.lexeme ≠ some false := by
  have hwell := h.wellFormed
  have hrest : Keeping (inMemberScopes (p.hasSuper name (some parent))
      (bothMembers ((p.afterSuperclass name (some parent)).classSurroundings
        (p.hasSuper name (some parent))) methods statics)) :=
    (keeping_bothMembers _ hwell.2.2.1 hwell.2.2.2).growing.inMemberScopes
  have hclean := Diagnostic.hasError_of_prefix (hrest _).reports h.leaves.clean
  have houtline := (declaring_declareReady name true p.scopes).outline
  change Diagnostic.hasError ((resolveSuperclass name (some parent)).after
    ((declareReady name true).after p.scopes)).reports = false at hclean
  change (resolveSuperclass name (some parent)).result ((declareReady name true).after p.scopes) =
    some (parent.at p.scopes) ∧ _
  generalize (declareReady name true).after p.scopes = σ at hclean houtline ⊢
  unfold resolveSuperclass at hclean ⊢
  by_cases hself : parent.name.lexeme = name.lexeme
  · simp only [hself, if_true] at hclean
    exact (((keeping_readName parent).bind fun r => keeping_pure (some r)).absurd_report rfl
      hclean).elim
  · simp only [hself, if_false] at hclean ⊢
    have hother : ∀ t ∈ some name, t.lexeme ≠ parent.name.lexeme := by
      rintro _ ⟨⟩
      exact Ne.symm hself
    constructor
    · have hat : parent.at σ = parent.at p.scopes := by
        rw [Reference.at, Reference.at, Scopes.depth?_eq, Scopes.depth?_eq, houtline,
          Scopes.nearest?_modifyHead (Scopes.passing_of_ne hother)]
      rw [← hat]
      exact congrArg some (result_readName (hwell.2.1 parent rfl).1)
    · intro status hstatus
      have hready := ready_of_readName hclean
      cases ho : p.scopes.outline with
      | nil =>
        rw [ho] at hstatus
        cases hstatus
      | cons first outer =>
        rw [ho] at hstatus houtline
        cases hstatus
        rw [← Scopes.passing_of_ne hother status]
        exact hready _ (by rw [houtline]; rfl)

lemma Sound.returns {keyword : Token} {value : Option Expr}
    (h : p.Sound (.stmt (.returnValue keyword value))) :
    p.around.routine ≠ .topLevel ∧ (value.isSome = true → p.around.routine ≠ .initializer) := by
  cases value with
  | none => exact routine_of_checkReturn h.leaves.clean
  | some value =>
    have hvalue := (keeping_resolveExpr p.around value h.wellFormed).bind fun e =>
      keeping_pure (Stmt.returnValue keyword (some e))
    exact routine_of_checkReturn (Diagnostic.hasError_of_prefix (hvalue _).reports h.leaves.clean)

end Site

end Lox
