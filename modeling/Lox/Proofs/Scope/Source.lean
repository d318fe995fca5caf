import Lox.Proofs.Alike.Resolve
import Lox.Proofs.Eval.Blame
import Lox.Proofs.Syntax.Sourced

namespace Lox

open Resolver

variable {T : Token → Prop} {sources : List String} {p q : Site} {n m : Piece}

def Piece.Sourced (T : Token → Prop) : Piece → Prop
  | expr e => e.Sourced T
  | exprs es => allSourcedExpr T es
  | stmt s => s.Sourced T
  | stmts body => allSourced T body
  | function _ f => f.Sourced T
  | members _ fs => allSourcedMember T fs

lemma Expr.Sourced.operands {e : Expr} (h : e.Sourced T) : allSourcedExpr T e.operands := by
  cases e with
  | literal | ref | lambda | this | super | invalid => exact trivial
  | assign => exact ⟨h.2, trivial⟩
  | get => exact ⟨h.2, trivial⟩
  | set => exact ⟨h.2.1, h.2.2, trivial⟩
  | conditional => exact ⟨h.1, h.2.1, h.2.2, trivial⟩
  | comma | logical => exact ⟨h.1, h.2, trivial⟩
  | binary => exact ⟨h.2.1, h.2.2, trivial⟩
  | unary => exact ⟨h.2, trivial⟩
  | call => exact h.2
  | grouping => exact ⟨h, trivial⟩
  | list => exact h

lemma Stmt.Sourced.leading {s : Stmt} {e : Expr} (h : s.Sourced T) (he : s.leading? = some e) :
    e.Sourced T := by
  cases s with
  | expression | print =>
    cases he
    exact h
  | whileLoop =>
    cases he
    exact h.1
  | ifElse keyword c yes no =>
    cases he
    cases no <;> exact h.1
  | _ => cases he

theorem Enters.sourced (h : Enters p n q m) (hn : n.Sourced T) : m.Sourced T := by
  cases h with
  | operands => exact hn.operands
  | headExpr | headStmt | headMember => exact hn.1
  | tailExprs | tailStmts | tailMembers => exact hn.2
  | leading he => exact Stmt.Sourced.leading hn he
  | @yes _ _ _ no =>
    cases no with
    | none => exact hn.2
    | some no => exact hn.2.1
  | no => exact hn.2.2
  | loopBody => exact hn.2
  | methods => exact hn.2.1
  | statics => exact hn.2.2
  | lambda | init | block | returned | named | body => exact hn

lemma Visits.sourced (h : Visits sources p n)
    (hsources : ∀ source ∈ sources, allSourced T (Program.ofSource source).body) : n.Sourced T := by
  obtain ⟨source, hmem, hreaches⟩ := h
  induction hreaches with
  | here => exact hsources source hmem
  | enter _ hm ih => exact hm.sourced ih

lemma Expr.Sourced.culprit? {e : Expr} (h : e.Sourced T) : ∀ t ∈ e.culprit?, T t := by
  intro t ht
  cases e with
  | ref | this | super =>
    cases ht
    exact h
  | assign | get | set | binary | unary =>
    cases ht
    exact h.1
  | call =>
    cases ht
    exact h.1.2
  | _ => cases ht

lemma Site.culprit?_expr (p : Site) (e : Expr) : (p.expr e).culprit? = e.culprit? := by
  cases e with
  | ref target => exact congrArg some (name_readName target p.scopes)
  | assign target value line => exact congrArg some (name_find target false (p.afterExpr value).scopes)
  | this target => exact congrArg some (name_readThis p.around target p.scopes)
  | _ => rfl

lemma Site.firstToken_expr : (e : Expr) → (p : Site) → (p.expr e).firstToken = e.firstToken
  | .literal _ _, _ | .unary _ _, _ | .grouping _ _, _ | .list _ _, _ | .invalid _, _ => rfl
  | .lambda (.mk _ _ _ _), _ => rfl
  | .ref target, p => name_readName target p.scopes
  | .assign target value _, p => name_find target false (p.afterExpr value).scopes
  | .this target, p => name_readThis p.around target p.scopes
  | .super target _, p => name_readSuper p.around target p.scopes
  | .get object _, p => firstToken_expr object p
  | .set object _ _ _, p => firstToken_expr object p
  | .conditional condition _ _ _, p => firstToken_expr condition p
  | .comma left _ _, p => firstToken_expr left p
  | .binary left _ _, p => firstToken_expr left p
  | .logical left _ _, p => firstToken_expr left p
  | .call callee _ _, p => firstToken_expr callee p

mutual

lemma Site.firstToken?_stmt : (s : Stmt) → (p : Site) → (p.stmt s).firstToken? = s.firstToken?
  | .print _ _, _ | .var _ none, _ | .var _ (some _), _ | .ifElse _ _ _ none, _
  | .ifElse _ _ _ (some _), _ | .whileLoop _ _ _, _ | .breakLoop _, _ | .returnValue _ none, _
  | .returnValue _ (some _), _ | .classDecl _ _ _ _ _, _ | .invalid _, _ => rfl
  | .function (.mk _ _ _ _), _ => rfl
  | .expression _ value, p => congrArg some (firstToken_expr value p)
  | .block _ body, p => firstTokenOf?_stmts body (p.inside (pure ()) (resolveStmts p.around body))

lemma Site.firstTokenOf?_stmts : (body : List Stmt) → (p : Site) →
    firstTokenOf? (p.stmts body) = firstTokenOf? body
  | [], _ => rfl
  | s :: body, p => by
    have hs := firstToken?_stmt s p
    have hbody := firstTokenOf?_stmts body (p.afterStmt s)
    change ((p.stmt s).firstToken?.or (firstTokenOf? ((p.afterStmt s).stmts body))) = _
    rw [hs, hbody]
    rfl

end

def Node.Sourced (T : Token → Prop) (node : Node) : Prop :=
  (∀ t ∈ node.culprit?, T t) ∧ (node.isCall → ∀ t ∈ node.tree.tokens.head?, T t)

lemma Node.Sourced.token {node : Node} {f : Failure} (h : node.Sourced T) (hf : node.Blames f) :
    ∃ t, f.token = some t ∧ T t := by
  unfold Blames at hf
  split at hf
  · obtain ⟨hcall, htoken⟩ := hf
    cases node with
    | stmt => cases hcall
    | expr e =>
      have hhead : (expr e).tree.tokens.head? = some e.firstToken := e.head?_tokens
      exact ⟨e.firstToken, htoken.trans hhead, h.2 hcall _ hhead⟩
  · obtain ⟨t, hculprit, htoken⟩ := hf
    exact ⟨t, htoken, h.1 t hculprit⟩

lemma Expr.Sourced.node {e : Expr} (h : e.Sourced T) (p : Site) :
    (Node.expr (p.expr e)).Sourced T := by
  refine ⟨fun t ht => ?_, fun hcall t ht => ?_⟩
  · exact h.culprit? t ((p.culprit?_expr e).symm.trans ht)
  · have hfirst : some (p.expr e).firstToken = some t := ((p.expr e).head?_tokens).symm.trans ht
    cases e with
    | call callee paren arguments =>
      rw [Site.firstToken_expr] at hfirst
      exact Option.some.inj hfirst ▸ h.1.1
    | _ => cases hcall

lemma Site.superclass_name (p : Site) (name : Token) (target : Option Reference) :
    (p.superclass name target).map Reference.name = target.map Reference.name := by
  cases target with
  | none => rfl
  | some target =>
    unfold Site.superclass resolveSuperclass
    dsimp only
    split
    · exact congrArg some (name_readName target _)
    · exact congrArg some (name_readName target _)

lemma Stmt.Sourced.node {s : Stmt} (h : s.Sourced T) (p : Site) :
    (Node.stmt (p.stmt s)).Sourced T := by
  refine ⟨fun t ht => ?_, fun hcall => ?_⟩
  · cases s with
    | classDecl name superclass line methods statics =>
      change (p.stmt (.classDecl name superclass line methods statics)).culprit? = some t at ht
      rw [Site.stmt_classDecl] at ht
      have hsuper := (p.superclass_name name superclass).symm.trans ht
      obtain ⟨parent, hparent, rfl⟩ := Option.map_eq_some_iff.mp hsuper
      exact h.1 parent hparent
    | var name init => cases init <;> cases ht
    | ifElse keyword c yes no => cases no <;> cases ht
    | returnValue keyword value => cases value <;> cases ht
    | _ => cases ht
  · cases hcall

end Lox
