import Lox.Proofs.Alike.Spelling
import Lox.Proofs.Scope.Visit

namespace Lox

open Resolver

variable {T : Token → Token → Prop} {σ : Scopes} {around : Surroundings}

namespace Resolver

lemma name_find (target : Reference) (isRead : Bool) (σ : Scopes) :
    ((find target isRead).result σ).name = target.name := by
  unfold Resolver.result find
  simp only [bind, StateT.bind, get, getThe, MonadStateOf.get, StateT.get, pure]
  cases σ.depth? target.name.lexeme with
  | none => rfl
  | some depth => cases isRead <;> rfl

lemma name_readName (target : Reference) (σ : Scopes) :
    ((readName target).result σ).name = target.name := by
  unfold readName
  rw [result_bind]
  split
  · split
    · exact name_find target true _
    · exact name_find target true _
  · exact name_find target true _

lemma name_readThis (around : Surroundings) (target : Reference) (σ : Scopes) :
    ((readThis around target).result σ).name = target.name := by
  unfold readThis
  split
  · rfl
  · exact name_find target true σ

lemma name_readSuper (around : Surroundings) (target : Reference) (σ : Scopes) :
    ((readSuper around target).result σ).name = target.name := by
  unfold readSuper
  split
  · rfl
  · rfl
  · exact name_find target true σ

lemma rel_resolveSuperclass {R : Reference → Reference → Prop} {parent parent' : Option Reference}
    (h : Option.Rel R parent parent') (hR : ∀ {r r' s}, R r r' → s.name = r.name → R s r')
    (name : Token) (σ : Scopes) :
    Option.Rel R ((resolveSuperclass name parent).result σ) parent' := by
  cases h with
  | none => exact .none
  | some hr =>
    unfold resolveSuperclass
    dsimp only
    split
    · exact .some (hR hr (name_readName _ _))
    · exact .some (hR hr (name_readName _ _))

end Resolver

theorem Reference.use_of_name {r r' s : Reference} (h : (Likeness.ofTokens T).use () r r')
    (hs : s.name = r.name) : (Likeness.ofTokens T).use () s r' := by
  refine ⟨?_, h.2⟩
  rw [hs]
  exact h.1

mutual

lemma Expr.Alike.resolveExpr (around : Surroundings) :
    (e e' : Expr) → e.AlikeIn T e' → (σ : Scopes) →
      ((Resolver.resolveExpr around e).result σ).AlikeIn T e'
  | .literal _ _, _, .literal ht, _ => .literal ht
  | .ref target, _, .ref hr, σ => .ref (Reference.use_of_name hr (name_readName target σ))
  | .assign _ value _, _, .assign hr hv, σ =>
    .assign (Reference.use_of_name hr (name_find _ false _)) (hv.resolveExpr around value _ σ)
  | .get object _, _, .get ho ht, σ => .get (ho.resolveExpr around object _ σ) ht
  | .set object _ value _, _, .set ho ht hv, σ =>
    .set (ho.resolveExpr around object _ σ) ht (hv.resolveExpr around value _ _)
  | .conditional c _ yes no, _, .conditional hc ht hy hn, σ =>
    .conditional (hc.resolveExpr around c _ σ) ht (hy.resolveExpr around yes _ _)
      (hn.resolveExpr around no _ _)
  | .lambda f, _, .lambda hf, σ => .lambda (hf.resolveFunction around .ordinary f _ σ)
  | .comma l _ r, _, .comma hl ht hr, σ =>
    .comma (hl.resolveExpr around l _ σ) ht (hr.resolveExpr around r _ _)
  | .binary l _ r, _, .binary hl ht hr, σ =>
    .binary (hl.resolveExpr around l _ σ) ht (hr.resolveExpr around r _ _)
  | .logical l _ r, _, .logical hl ht hr, σ =>
    .logical (hl.resolveExpr around l _ σ) ht (hr.resolveExpr around r _ _)
  | .unary _ e, _, .unary ht he, σ => .unary ht (he.resolveExpr around e _ σ)
  | .call callee _ es, _, .call hc ht hes, σ =>
    .call (hc.resolveExpr around callee _ σ) ht (hes.resolveExprs around es _ _)
  | .this target, _, .this hr, σ =>
    .this (Reference.use_of_name hr (name_readThis around target σ))
  | .super target _, _, .super hr ht, σ =>
    .super (Reference.use_of_name hr (name_readSuper around target σ)) ht
  | .grouping _ e, _, .grouping ht he, σ => .grouping ht (he.resolveExpr around e _ σ)
  | .list _ es, _, .list ht hes, σ => .list ht (hes.resolveExprs around es _ σ)
  | .invalid _, _, .invalid ht, _ => .invalid ht
termination_by structural x => x

lemma AlikeExprs.resolveExprs (around : Surroundings) :
    (es es' : List Expr) → AlikeExprs (.ofTokens T) () es es' → (σ : Scopes) →
      AlikeExprs (.ofTokens T) () ((Resolver.resolveExprs around es).result σ) es'
  | [], _, .nil, _ => .nil
  | e :: es, _, .cons he hes, σ =>
    .cons (he.resolveExpr around e _ σ) (hes.resolveExprs around es _ _)
termination_by structural x => x

lemma Stmt.Alike.resolveStmt (around : Surroundings) :
    (s s' : Stmt) → s.AlikeIn T s' → (σ : Scopes) →
      ((Resolver.resolveStmt around s).result σ).AlikeIn T s'
  | .expression _ e, _, .expression he, σ => .expression (he.resolveExpr around e _ σ)
  | .print _ e, _, .print ht he, σ => .print ht (he.resolveExpr around e _ σ)
  | .var _ none, _, .declare ht, _ => .declare ht
  | .var _ (some e), _, .define ht he, σ => .define ht (he.resolveExpr around e _ _)
  | .block _ body, _, .block _ hbody, σ =>
    .block trivial (hbody.resolveStmts around body _ σ.enter)
  | .ifElse _ c yes none, _, .ifOnly ht hc hy, σ =>
    .ifOnly ht (hc.resolveExpr around c _ σ) (hy.resolveStmt around yes _ _)
  | .ifElse _ c yes (some no), _, .ifElse ht hc hy hn, σ =>
    .ifElse ht (hc.resolveExpr around c _ σ) (hy.resolveStmt around yes _ _)
      (hn.resolveStmt around no _ _)
  | .whileLoop _ c body, _, .whileLoop ht hc hb, σ =>
    .whileLoop ht (hc.resolveExpr around c _ σ) (hb.resolveStmt around body _ _)
  | .breakLoop _, _, .breakLoop ht, _ => .breakLoop ht
  | .returnValue _ none, _, .returnNothing ht, _ => .returnNothing ht
  | .returnValue _ (some e), _, .returnValue ht he, σ =>
    .returnValue ht (he.resolveExpr around e _ _)
  | .function f, _, .function ht hf, σ => by
    have hresolved := hf.resolveFunction around .ordinary f _
      ((declareReady f.head true).after σ)
    cases f
    exact .function ht hresolved
  | .classDecl name parent _ ms ss, _, .classDecl ht hp hms hss, σ => by
    have hparent := rel_resolveSuperclass hp Reference.use_of_name name
      ((declareReady name true).after σ)
    let p : Site := ⟨around, σ, []⟩
    let q := p.inClass name parent ms ss
    change (p.stmt (.classDecl name parent _ ms ss)).AlikeIn T _
    rw [Site.stmt_classDecl]
    exact .classDecl ht hparent (hms.resolveMembers q.around false ms _ q.scopes)
      (hss.resolveMembers q.around true ss _ _)
  | .invalid _, _, .invalid ht, _ => .invalid ht
termination_by structural x => x

lemma AlikeStmts.resolveStmts (around : Surroundings) :
    (body body' : List Stmt) → AlikeStmts (.ofTokens T) () body body' → (σ : Scopes) →
      AlikeStmts (.ofTokens T) () ((Resolver.resolveStmts around body).result σ) body'
  | [], _, .nil, _ => .nil
  | s :: body, _, .cons hs hbody, σ =>
    .cons (hs.resolveStmt around s _ σ) (hbody.resolveStmts around body _ _)
termination_by structural x => x

lemma Function.Alike.resolveFunction (around : Surroundings) (routine : Routine) :
    (f f' : Function) → Function.Alike (.ofTokens T) () f f' → (σ : Scopes) →
      Function.Alike (.ofTokens T) () ((Resolver.resolveFunction around routine f).result σ) f'
  | .mk _ _ _ body, _, .mk ht _ hp hbody, _ =>
    .mk ht trivial hp (hbody.resolveStmts _ body _ _)
termination_by structural x => x

lemma AlikeMembers.resolveMembers (around : Surroundings) (isStatic : Bool) :
    (ms ms' : List Function) → AlikeMembers (.ofTokens T) () ms ms' → (σ : Scopes) →
      AlikeMembers (.ofTokens T) () ((Resolver.resolveMembers around isStatic ms).result σ) ms'
  | [], _, .nil, _ => .nil
  | f :: ms, _, .cons hf hms, σ =>
    .cons (hf.resolveFunction around _ f _ σ) (hms.resolveMembers around isStatic ms _ _)
termination_by structural x => x

end

end Lox
