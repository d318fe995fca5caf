import Lox.Proofs.Alike.Resolve
import Lox.Proofs.Syntax.Shape

namespace Lox

namespace Tree

mutual

def bare : Tree → Tree
  | .node label line _ children => .node label line none (bareLeaves children)

def bareLeaf : Leaf → Leaf
  | .tree t => .tree t.bare
  | .token t => .token t
  | .value v => .value v
  | .absent => .absent

def bareLeaves : List Leaf → List Leaf
  | [] => []
  | leaf :: more => bareLeaf leaf :: bareLeaves more

end

mutual

def depths : Tree → List (Option Nat)
  | .node _ _ depth children => depth :: depthsBelow children

def depthsOfLeaf : Leaf → List (Option Nat)
  | .tree t => t.depths
  | .token _ | .value _ | .absent => []

def depthsBelow : List Leaf → List (Option Nat)
  | [] => []
  | leaf :: more => depthsOfLeaf leaf ++ depthsBelow more

end

mutual

lemma length_depths_bare : (t : Tree) → t.bare.depths.length = t.depths.length
  | .node _ _ _ children => congrArg Nat.succ (length_depthsBelow_bare children)

lemma length_depthsOfLeaf_bare :
    (leaf : Leaf) → (depthsOfLeaf (bareLeaf leaf)).length = (depthsOfLeaf leaf).length
  | .tree t => t.length_depths_bare
  | .token _ | .value _ | .absent => rfl

lemma length_depthsBelow_bare :
    (leaves : List Leaf) → (depthsBelow (bareLeaves leaves)).length = (depthsBelow leaves).length
  | [] => rfl
  | leaf :: more => by
    simp only [bareLeaves, depthsBelow, List.length_append, length_depthsOfLeaf_bare leaf,
      length_depthsBelow_bare more]

end

mutual

lemma eq_of_bare :
    (t u : Tree) → t.bare = u.bare → t.depths = u.depths → t = u
  | .node label line depth children, .node label' line' depth' children', hbare, hdepths => by
    simp only [bare, node.injEq, true_and] at hbare
    simp only [depths, List.cons.injEq] at hdepths
    rw [node.injEq]
    exact ⟨hbare.1, hbare.2.1, hdepths.1, leaves_eq_of_bare children children' hbare.2.2 hdepths.2⟩

lemma leaf_eq_of_bare : (leaf leaf' : Leaf) → bareLeaf leaf = bareLeaf leaf' →
    depthsOfLeaf leaf = depthsOfLeaf leaf' → leaf = leaf'
  | .tree t, .tree u, hbare, hdepths =>
    congrArg Leaf.tree (eq_of_bare t u (Leaf.tree.inj hbare) hdepths)
  | .token _, .token _, hbare, _ => hbare
  | .value _, .value _, hbare, _ => hbare
  | .absent, .absent, _, _ => rfl

lemma leaves_eq_of_bare : (leaves leaves' : List Leaf) → bareLeaves leaves = bareLeaves leaves' →
    depthsBelow leaves = depthsBelow leaves' → leaves = leaves'
  | [], [], _, _ => rfl
  | leaf :: more, leaf' :: more', hbare, hdepths => by
    obtain ⟨hleaf, hmore⟩ := List.cons.inj hbare
    have hlength : (depthsOfLeaf leaf).length = (depthsOfLeaf leaf').length := by
      rw [← length_depthsOfLeaf_bare, hleaf, length_depthsOfLeaf_bare]
    obtain ⟨hfirst, hrest⟩ := List.append_inj hdepths hlength
    rw [leaf_eq_of_bare leaf leaf' hleaf hfirst, leaves_eq_of_bare more more' hmore hrest]

end

lemma bareLeaves_trees (ts : List Tree) :
    bareLeaves (ts.map .tree) = (ts.map bare).map .tree := by
  induction ts with
  | nil => rfl
  | cons t ts ih => simp [bareLeaves, bareLeaf, ih]

lemma depthsBelow_trees (ts : List Tree) : depthsBelow (ts.map .tree) = ts.flatMap depths := by
  induction ts with
  | nil => rfl
  | cons t ts ih => simp [depthsBelow, depthsOfLeaf, ih]

lemma bare_plain {label : String} {line : Nat} {leaves leaves' : List Leaf}
    (h : bareLeaves leaves = bareLeaves leaves') :
    (plain label line leaves).bare = (plain label line leaves').bare :=
  congrArg (node label line none) h

lemma bare_ofReference (label : String) {r r' : Reference} (h : r.name = r'.name)
    (leaves : List Leaf) :
    (ofReference label r leaves).bare = (ofReference label r' leaves).bare := by
  simp only [ofReference, bare, h]

lemma bareLeaves_cons {t u : Tree} {leaves leaves' : List Leaf} (h : t.bare = u.bare)
    (hs : bareLeaves leaves = bareLeaves leaves') :
    bareLeaves (.tree t :: leaves) = bareLeaves (.tree u :: leaves') :=
  congrArg₂ (fun t leaves => Leaf.tree t :: leaves) h hs

lemma bareLeaves_same (leaf : Leaf) {leaves leaves' : List Leaf}
    (hs : bareLeaves leaves = bareLeaves leaves') :
    bareLeaves (leaf :: leaves) = bareLeaves (leaf :: leaves') :=
  congrArg (bareLeaf leaf :: ·) hs

lemma bare_ofInfix (label : String) {l l' r r' : Tree} (op : Token) (hl : l.bare = l'.bare)
    (hr : r.bare = r'.bare) : (ofInfix label l op r).bare = (ofInfix label l' op r').bare :=
  bare_plain (bareLeaves_cons hl (bareLeaves_same _ (bareLeaves_cons hr rfl)))

end Tree

open Lox.Tree

namespace Resolver

lemma sameName_resolveSuperclass (name : Token) (parent : Option Reference) (σ : Scopes) :
    Option.Rel (fun r r' => r.name = r'.name)
      ((resolveSuperclass name parent).result σ) parent := by
  refine rel_resolveSuperclass (R := fun r r' => r.name = r'.name) ?_
    (fun h h' => h'.trans h) name σ
  cases parent with
  | none => exact .none
  | some r => exact .some rfl

mutual

lemma bare_resolveExpr (around : Surroundings) : (e : Expr) → (σ : Scopes) →
    ((resolveExpr around e).result σ).tree.bare = e.tree.bare
  | .literal _ _, _ => rfl
  | .ref target, σ => bare_ofReference _ (name_readName target σ) []
  | .assign target value line, σ =>
    congrArg₂ (fun name t => node "assign" line none [.token name, .tree t])
      (name_find target false _) (bare_resolveExpr around value σ)
  | .get object _, σ => bare_plain (bareLeaves_cons (bare_resolveExpr around object σ) rfl)
  | .set object _ value _, σ =>
    bare_plain (bareLeaves_cons (bare_resolveExpr around object σ)
      (bareLeaves_same _ (bareLeaves_cons (bare_resolveExpr around value _) rfl)))
  | .conditional c _ yes no, σ =>
    bare_plain (bareLeaves_cons (bare_resolveExpr around c σ)
      (bareLeaves_same _ (bareLeaves_cons (bare_resolveExpr around yes _)
        (bareLeaves_cons (bare_resolveExpr around no _) rfl))))
  | .lambda f, σ => bare_resolveFunction around .ordinary "lambda_expr" f σ
  | .comma l op r, σ =>
    bare_ofInfix _ op (bare_resolveExpr around l σ) (bare_resolveExpr around r _)
  | .binary l op r, σ =>
    bare_ofInfix _ op (bare_resolveExpr around l σ) (bare_resolveExpr around r _)
  | .logical l op r, σ =>
    bare_ofInfix _ op (bare_resolveExpr around l σ) (bare_resolveExpr around r _)
  | .unary _ e, σ =>
    bare_plain (bareLeaves_same _ (bareLeaves_cons (bare_resolveExpr around e σ) rfl))
  | .call callee _ es, σ =>
    bare_plain (bareLeaves_cons (bare_resolveExpr around callee σ) (bareLeaves_same _
      (bareLeaves_cons (bare_plain (bare_resolveExprs around es _)) rfl)))
  | .this target, σ => bare_ofReference _ (name_readThis around target σ) []
  | .super target _, σ => bare_ofReference _ (name_readSuper around target σ) _
  | .grouping _ e, σ =>
    bare_plain (bareLeaves_same _ (bareLeaves_cons (bare_resolveExpr around e σ) rfl))
  | .list _ es, σ => bare_plain (bareLeaves_same _ (bare_resolveExprs around es σ))
  | .invalid _, _ => rfl

lemma bare_resolveExprs (around : Surroundings) : (es : List Expr) → (σ : Scopes) →
    bareLeaves (exprLeaves ((resolveExprs around es).result σ)) = bareLeaves (exprLeaves es)
  | [], _ => rfl
  | e :: es, σ => bareLeaves_cons (bare_resolveExpr around e σ) (bare_resolveExprs around es _)

lemma bare_resolveStmt (around : Surroundings) : (s : Stmt) → (σ : Scopes) →
    ((resolveStmt around s).result σ).tree.bare = s.tree.bare
  | .expression _ e, σ => bare_plain (bareLeaves_cons (bare_resolveExpr around e σ) rfl)
  | .print _ e, σ =>
    bare_plain (bareLeaves_same _ (bareLeaves_cons (bare_resolveExpr around e σ) rfl))
  | .var _ none, _ => rfl
  | .var _ (some e), σ =>
    bare_plain (bareLeaves_same _ (bareLeaves_cons (bare_resolveExpr around e _) rfl))
  | .block _ body, σ => bare_plain (bare_resolveStmts around body σ.enter)
  | .ifElse _ c yes none, σ =>
    bare_plain (bareLeaves_same _ (bareLeaves_cons (bare_resolveExpr around c σ)
      (bareLeaves_cons (bare_resolveStmt around yes _) rfl)))
  | .ifElse _ c yes (some no), σ =>
    bare_plain (bareLeaves_same _ (bareLeaves_cons (bare_resolveExpr around c σ)
      (bareLeaves_cons (bare_resolveStmt around yes _)
        (bareLeaves_cons (bare_resolveStmt around no _) rfl))))
  | .whileLoop _ c body, σ =>
    bare_plain (bareLeaves_same _ (bareLeaves_cons (bare_resolveExpr around c σ)
      (bareLeaves_cons (bare_resolveStmt around body _) rfl)))
  | .breakLoop _, _ => rfl
  | .returnValue _ none, _ => rfl
  | .returnValue _ (some e), σ =>
    bare_plain (bareLeaves_same _ (bareLeaves_cons (bare_resolveExpr around e _) rfl))
  | .function f, σ => bare_resolveFunction around .ordinary "function" f _
  | .classDecl name parent line ms ss, σ => by
    let p : Site := ⟨around, σ, []⟩
    let q := p.inClass name parent ms ss
    have hms := bare_resolveMembers q.around false ms q.scopes
    have hss := bare_resolveMembers q.around true ss
      ((resolveMembers q.around false ms).after q.scopes)
    have hparent : Option.Rel _ (p.superclass name parent) parent :=
      sameName_resolveSuperclass name parent _
    change (p.stmt (.classDecl name parent line ms ss)).tree.bare = _
    rw [Site.stmt_classDecl]
    generalize p.superclass name parent = parent' at hparent
    cases hparent with
    | none =>
      exact bare_plain (bareLeaves_same _ (bareLeaves_same .absent
        (bareLeaves_cons (bare_plain hms) (bareLeaves_cons (bare_plain hss) rfl))))
    | some hr =>
      exact bare_plain (bareLeaves_same _ (bareLeaves_cons (bare_ofReference _ hr [])
        (bareLeaves_cons (bare_plain hms) (bareLeaves_cons (bare_plain hss) rfl))))
  | .invalid _, _ => rfl

lemma bare_resolveStmts (around : Surroundings) : (body : List Stmt) → (σ : Scopes) →
    bareLeaves (stmtLeaves ((resolveStmts around body).result σ)) = bareLeaves (stmtLeaves body)
  | [], _ => rfl
  | s :: body, σ => bareLeaves_cons (bare_resolveStmt around s σ) (bare_resolveStmts around body _)

lemma bare_resolveFunction (around : Surroundings) (routine : Routine) (label : String) :
    (f : Function) → (σ : Scopes) →
    (((resolveFunction around routine f).result σ).tree label).bare = (f.tree label).bare
  | .mk _ _ _ body, _ =>
    bare_plain (bareLeaves_same _ (bareLeaves_same _ (bareLeaves_cons
      (bare_plain (bare_resolveStmts _ body _)) rfl)))

lemma bare_resolveMembers (around : Surroundings) (isStatic : Bool) :
    (ms : List Function) → (σ : Scopes) →
    bareLeaves (memberLeaves ((resolveMembers around isStatic ms).result σ)) =
      bareLeaves (memberLeaves ms)
  | [], _ => rfl
  | f :: ms, σ =>
    bareLeaves_cons (bare_resolveFunction around _ "function" f σ)
      (bare_resolveMembers around isStatic ms _)

end

lemma bare_program (body : List Stmt) :
    ((program body).1.map Stmt.tree).map bare = (body.map Stmt.tree).map bare := by
  have h := bare_resolveStmts outermost body .start
  rw [stmtLeaves_eq, stmtLeaves_eq, bareLeaves_trees, bareLeaves_trees] at h
  exact List.map_injective_iff.mpr (fun _ _ => Leaf.tree.inj) h

lemma bare_expression (e : Expr) : (expression e).1.tree.bare = e.tree.bare :=
  bare_resolveExpr outermost e .start

end Resolver

end Lox
