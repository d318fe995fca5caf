import Lox.Proofs.Syntax.WellFormed
import Lox.Syntax.Tree
import Lox.Value.Apply

/-! The shape of a labelled tree: what stands below each label, as evaluation takes it apart. The
tree of a program that is read without an error has this shape, down to its leaves. -/

namespace Lox

namespace Tree

def label : Tree → String
  | node label _ _ _ => label

def placeholders : List String := ["invalid_expr", "invalid_stmt"]

/-- The labels of what declares a name in the scope around it. -/
def declaringLabels : List String := ["var_decl", "function", "class_decl"]

mutual

def labels : Tree → List String
  | .node label _ _ children => label :: labelsBelow children

def leafLabels : Leaf → List String
  | .tree t => t.labels
  | _ => []

def labelsBelow : List Leaf → List String
  | [] => []
  | leaf :: more => leafLabels leaf ++ labelsBelow more

end

inductive IsParams : Tree → Prop
  | mk {line depth} {names : List Token} : names.length ≤ maxArguments →
      (∀ name ∈ names, name.kind = .identifier) →
      IsParams (.node "params" line depth (names.map .token))

inductive IsParent : Leaf → Prop
  | absent : IsParent .absent
  | ref {line depth name} : name.kind = .identifier →
      IsParent (.tree (.node "variable" line depth [.token name]))

mutual

inductive IsExpr : Tree → Prop
  | literal {line depth token value} : token.literal? = some value →
      IsExpr (.node "literal" line depth [.token token, .value value])
  | ref {line depth name} : name.kind = .identifier →
      IsExpr (.node "variable" line depth [.token name])
  | assign {line depth name value} : name.kind = .identifier → IsExpr value →
      IsExpr (.node "assign" line depth [.token name, .tree value])
  | get {line depth object name} : name.kind = .identifier → IsExpr object →
      IsExpr (.node "get" line depth [.tree object, .token name])
  | set {line depth object name value} : name.kind = .identifier → IsExpr object →
      IsExpr value → IsExpr (.node "set" line depth [.tree object, .token name, .tree value])
  | conditional {line depth condition mark yes no} : IsExpr condition → IsExpr yes → IsExpr no →
      IsExpr (.node "conditional" line depth
        [.tree condition, .token mark, .tree yes, .tree no])
  | lambda {line depth keyword params body} : IsParams params → IsBody body →
      IsExpr (.node "lambda_expr" line depth [.token keyword, .tree params, .tree body])
  | comma {line depth left op right} : IsExpr left → IsExpr right →
      IsExpr (.node "comma" line depth [.tree left, .token op, .tree right])
  | binary {line depth left op right} : op.kind ∈ binaryOperators → IsExpr left →
      IsExpr right → IsExpr (.node "binary" line depth [.tree left, .token op, .tree right])
  | logical {line depth left op right} : op.kind ∈ [.orWord, .andWord] → IsExpr left →
      IsExpr right → IsExpr (.node "logical" line depth [.tree left, .token op, .tree right])
  | unary {line depth op operand} : op.kind ∈ [.bang, .minus] → IsExpr operand →
      IsExpr (.node "unary" line depth [.token op, .tree operand])
  | call {line depth callee paren line' depth'} {arguments : List Tree} :
      arguments.length ≤ maxArguments → IsExpr callee → (∀ e ∈ arguments, IsExpr e) →
      IsExpr (.node "call" line depth [.tree callee, .token paren,
        .tree (.node "arguments" line' depth' (arguments.map .tree))])
  | this {line depth keyword} : keyword.kind = .thisWord →
      IsExpr (.node "this_expr" line depth [.token keyword])
  | super {line depth keyword method} : keyword.kind = .superWord → method.kind = .identifier →
      IsExpr (.node "super_expr" line depth [.token keyword, .token method])
  | grouping {line depth paren inner} : IsExpr inner →
      IsExpr (.node "grouping" line depth [.token paren, .tree inner])
  | list {line depth bracket} {elements : List Tree} : (∀ e ∈ elements, IsExpr e) →
      IsExpr (.node "list" line depth (.token bracket :: elements.map .tree))

inductive IsStmt : Tree → Prop
  | expression {line depth value} : IsExpr value →
      IsStmt (.node "expression_stmt" line depth [.tree value])
  | print {line depth keyword value} : IsExpr value →
      IsStmt (.node "print_stmt" line depth [.token keyword, .tree value])
  | uninitialized {line depth name} : name.kind = .identifier →
      IsStmt (.node "var_decl" line depth [.token name, .absent])
  | initialized {line depth name init} : name.kind = .identifier → IsExpr init →
      IsStmt (.node "var_decl" line depth [.token name, .tree init])
  | block {line depth} {body : List Tree} : (∀ s ∈ body, IsStmt s) →
      IsStmt (.node "block" line depth (body.map .tree))
  | ifOnly {line depth keyword condition yes} : IsExpr condition → IsStmt yes →
      yes.label ∉ declaringLabels →
      IsStmt (.node "if_stmt" line depth
        [.token keyword, .tree condition, .tree yes, .absent])
  | ifElse {line depth keyword condition yes no} : IsExpr condition → IsStmt yes →
      yes.label ∉ declaringLabels → IsStmt no → no.label ∉ declaringLabels →
      IsStmt (.node "if_stmt" line depth
        [.token keyword, .tree condition, .tree yes, .tree no])
  | whileLoop {line depth keyword condition body} : IsExpr condition → IsStmt body →
      body.label ∉ declaringLabels →
      IsStmt (.node "while_stmt" line depth [.token keyword, .tree condition, .tree body])
  | breakLoop {line depth keyword} : IsStmt (.node "break_stmt" line depth [.token keyword])
  | returnNothing {line depth keyword} :
      IsStmt (.node "return_stmt" line depth [.token keyword, .absent])
  | returnValue {line depth keyword value} : IsExpr value →
      IsStmt (.node "return_stmt" line depth [.token keyword, .tree value])
  | function {line depth name params body} : name.kind = .identifier → IsParams params →
      IsBody body → IsStmt (.node "function" line depth [.token name, .tree params, .tree body])
  | classDecl {line depth name parent line' depth' line'' depth''} {methods statics : List Tree} :
      name.kind = .identifier → IsParent parent → (∀ m ∈ methods, IsMember m) →
      (∀ m ∈ statics, IsMember m) →
      IsStmt (.node "class_decl" line depth [.token name, parent,
        .tree (.node "methods" line' depth' (methods.map .tree)),
        .tree (.node "static_methods" line'' depth'' (statics.map .tree))])

inductive IsBody : Tree → Prop
  | mk {line depth} {body : List Tree} : (∀ s ∈ body, IsStmt s) →
      IsBody (.node "body" line depth (body.map .tree))

inductive IsMember : Tree → Prop
  | getter {line depth name body} : name.kind = .identifier → IsBody body →
      IsMember (.node "function" line depth [.token name, .absent, .tree body])
  | method {line depth name params body} : name.kind = .identifier → IsParams params →
      IsBody body → IsMember (.node "function" line depth [.token name, .tree params, .tree body])

end

def holdsPlaceholder (t : Tree) : Prop := ∃ l ∈ t.labels, l ∈ placeholders

def placeholderBelow (leaves : List Leaf) : Prop := ∃ l ∈ labelsBelow leaves, l ∈ placeholders

section Placeholders

variable {line : Nat} {depth : Option Nat} {l : String} {leaves more : List Leaf} {t : Tree}

lemma holdsPlaceholder_node :
    (node l line depth leaves).holdsPlaceholder ↔ l ∈ placeholders ∨ placeholderBelow leaves := by
  simp [holdsPlaceholder, placeholderBelow, labels]

@[simp] lemma not_placeholderBelow_nil : ¬placeholderBelow [] := by
  simp [placeholderBelow, labelsBelow]

@[simp] lemma placeholderBelow_tree :
    placeholderBelow (.tree t :: more) ↔ t.holdsPlaceholder ∨ placeholderBelow more := by
  simp [placeholderBelow, holdsPlaceholder, labelsBelow, leafLabels, or_and_right, exists_or]

@[simp] lemma placeholderBelow_token {token : Token} :
    placeholderBelow (.token token :: more) ↔ placeholderBelow more := by
  simp [placeholderBelow, labelsBelow, leafLabels]

@[simp] lemma placeholderBelow_value {value : Literal} :
    placeholderBelow (.value value :: more) ↔ placeholderBelow more := by
  simp [placeholderBelow, labelsBelow, leafLabels]

@[simp] lemma placeholderBelow_absent :
    placeholderBelow (.absent :: more) ↔ placeholderBelow more := by
  simp [placeholderBelow, labelsBelow, leafLabels]

lemma not_placeholderBelow_trees {ts : List Tree} (h : ∀ t ∈ ts, ¬t.holdsPlaceholder) :
    ¬placeholderBelow (ts.map .tree) := by
  induction ts with
  | nil => exact not_placeholderBelow_nil
  | cons t ts ih =>
    rw [List.map_cons, placeholderBelow_tree, not_or]
    exact ⟨h t List.mem_cons_self, ih fun t ht => h t (List.mem_cons_of_mem _ ht)⟩

lemma not_placeholderBelow_tokens (names : List Token) :
    ¬placeholderBelow (names.map .token) := by
  induction names with
  | nil => exact not_placeholderBelow_nil
  | cons name names ih => rwa [List.map_cons, placeholderBelow_token]

end Placeholders

lemma IsParams.sound {t : Tree} (h : t.IsParams) : ¬t.holdsPlaceholder := by
  cases h with
  | mk => simp [holdsPlaceholder_node, not_placeholderBelow_tokens, placeholders]

lemma IsParent.sound {leaf : Leaf} (h : IsParent leaf) (more : List Leaf) :
    placeholderBelow (leaf :: more) ↔ placeholderBelow more := by
  cases h with
  | absent => exact placeholderBelow_absent
  | ref => simp [holdsPlaceholder_node, placeholders]

mutual

lemma IsExpr.sound {t : Tree} : t.IsExpr → ¬t.holdsPlaceholder
  | .literal _ | .ref _ | .this _ | .super _ _ => by
    simp [holdsPlaceholder_node, placeholders]
  | .assign _ h | .get _ h | .unary _ h | .grouping h => by
    simp [holdsPlaceholder_node, placeholders, h.sound]
  | .set _ h h' | .comma h h' | .binary _ h h' | .logical _ h h' => by
    simp [holdsPlaceholder_node, placeholders, h.sound, h'.sound]
  | .conditional hc hy hn => by
    simp [holdsPlaceholder_node, placeholders, hc.sound, hy.sound, hn.sound]
  | .lambda hp hb => by simp [holdsPlaceholder_node, placeholders, hp.sound, hb.sound]
  | .call _ hc ha => by
    have harguments := not_placeholderBelow_trees fun e he => (ha e he).sound
    simp [holdsPlaceholder_node, placeholders, hc.sound, harguments]
  | .list h => by
    have helements := not_placeholderBelow_trees fun e he => (h e he).sound
    simp [holdsPlaceholder_node, placeholders, helements]

lemma IsStmt.sound {t : Tree} : t.IsStmt → ¬t.holdsPlaceholder
  | .uninitialized _ | .breakLoop | .returnNothing => by
    simp [holdsPlaceholder_node, placeholders]
  | .expression h | .print h | .initialized _ h | .returnValue h => by
    simp [holdsPlaceholder_node, placeholders, h.sound]
  | .block h => by
    have hbody := not_placeholderBelow_trees fun s hs => (h s hs).sound
    simp [holdsPlaceholder_node, placeholders, hbody]
  | .ifOnly hc hy _ | .whileLoop hc hy _ => by
    simp [holdsPlaceholder_node, placeholders, hc.sound, hy.sound]
  | .ifElse hc hy _ hn _ => by
    simp [holdsPlaceholder_node, placeholders, hc.sound, hy.sound, hn.sound]
  | .function _ hp hb => by simp [holdsPlaceholder_node, placeholders, hp.sound, hb.sound]
  | .classDecl _ hp hm hs => by
    have hmethods := not_placeholderBelow_trees fun m h => (hm m h).sound
    have hstatics := not_placeholderBelow_trees fun m h => (hs m h).sound
    simp [holdsPlaceholder_node, placeholders, hp.sound, hmethods, hstatics]

lemma IsBody.sound {t : Tree} : t.IsBody → ¬t.holdsPlaceholder
  | .mk h => by
    have hbody := not_placeholderBelow_trees fun s hs => (h s hs).sound
    simp [holdsPlaceholder_node, placeholders, hbody]

lemma IsMember.sound {t : Tree} : t.IsMember → ¬t.holdsPlaceholder
  | .getter _ hb => by simp [holdsPlaceholder_node, placeholders, hb.sound]
  | .method _ hp hb => by simp [holdsPlaceholder_node, placeholders, hp.sound, hb.sound]

end

end Tree

lemma exprLeaves_eq (es : List Expr) : exprLeaves es = (es.map Expr.tree).map .tree := by
  induction es with
  | nil => rfl
  | cons e es ih => rw [exprLeaves, ih, List.map_cons, List.map_cons]

lemma stmtLeaves_eq (body : List Stmt) : stmtLeaves body = (body.map Stmt.tree).map .tree := by
  induction body with
  | nil => rfl
  | cons s body ih => rw [stmtLeaves, ih, List.map_cons, List.map_cons]

lemma memberLeaves_eq (members : List Function) :
    memberLeaves members = (members.map (Function.tree "function")).map .tree := by
  induction members with
  | nil => rfl
  | cons f members ih => rw [memberLeaves, ih, List.map_cons, List.map_cons]

open Lox.Tree

lemma placeholderBelow_ofParams (params : Option Params) (more : List Leaf) :
    placeholderBelow (.ofParams params :: more) ↔ placeholderBelow more := by
  cases params with
  | none => exact placeholderBelow_absent
  | some ps =>
    simp [Leaf.ofParams, plain, holdsPlaceholder_node, placeholders, not_placeholderBelow_tokens]

mutual

lemma Expr.holdsPlaceholder_tree : (e : Expr) → (e.tree.holdsPlaceholder ↔ e.holdsInvalid = true)
  | .literal _ _ | .ref _ | .this _ | .super _ _ | .invalid _ => by
    simp [Expr.tree, Expr.holdsInvalid, plain, ofReference, holdsPlaceholder_node, placeholders]
  | .assign _ v _ | .get v _ | .unary _ v | .grouping _ v => by
    simp [Expr.tree, Expr.holdsInvalid, plain, holdsPlaceholder_node, placeholders,
      v.holdsPlaceholder_tree]
  | .set a _ b _ | .comma a _ b | .binary a _ b | .logical a _ b => by
    simp [Expr.tree, Expr.holdsInvalid, plain, ofInfix, holdsPlaceholder_node, placeholders,
      a.holdsPlaceholder_tree, b.holdsPlaceholder_tree]
  | .conditional c _ a b => by
    simp [Expr.tree, Expr.holdsInvalid, plain, holdsPlaceholder_node, placeholders,
      c.holdsPlaceholder_tree, a.holdsPlaceholder_tree, b.holdsPlaceholder_tree, or_assoc]
  | .lambda f => f.holdsPlaceholder_tree (by decide)
  | .call callee _ args => by
    simp [Expr.tree, Expr.holdsInvalid, plain, holdsPlaceholder_node, placeholders,
      callee.holdsPlaceholder_tree, placeholderBelow_exprLeaves args]
  | .list _ es => by
    simp [Expr.tree, Expr.holdsInvalid, plain, holdsPlaceholder_node, placeholders,
      placeholderBelow_exprLeaves es]

lemma placeholderBelow_exprLeaves :
    (es : List Expr) → (placeholderBelow (exprLeaves es) ↔ anyInvalidExpr es = true)
  | [] => by simp [exprLeaves, anyInvalidExpr]
  | e :: more => by
    simp [exprLeaves, anyInvalidExpr, e.holdsPlaceholder_tree, placeholderBelow_exprLeaves more]

lemma Stmt.holdsPlaceholder_tree : (s : Stmt) → (s.tree.holdsPlaceholder ↔ s.holdsInvalid = true)
  | .var _ none | .breakLoop _ | .returnValue _ none | .invalid _ => by
    simp [Stmt.tree, Stmt.holdsInvalid, plain, holdsPlaceholder_node, placeholders]
  | .expression _ v | .print _ v | .var _ (some v) | .returnValue _ (some v) => by
    simp [Stmt.tree, Stmt.holdsInvalid, plain, holdsPlaceholder_node, placeholders,
      v.holdsPlaceholder_tree]
  | .block _ body => by
    simp [Stmt.tree, Stmt.holdsInvalid, plain, holdsPlaceholder_node, placeholders,
      placeholderBelow_stmtLeaves body]
  | .ifElse _ c yes none | .whileLoop _ c yes => by
    simp [Stmt.tree, Stmt.holdsInvalid, plain, holdsPlaceholder_node, placeholders,
      c.holdsPlaceholder_tree, yes.holdsPlaceholder_tree]
  | .ifElse _ c yes (some no) => by
    simp [Stmt.tree, Stmt.holdsInvalid, plain, holdsPlaceholder_node, placeholders,
      c.holdsPlaceholder_tree, yes.holdsPlaceholder_tree, no.holdsPlaceholder_tree, or_assoc]
  | .function f => f.holdsPlaceholder_tree (by decide)
  | .classDecl _ parent _ methods statics => by
    cases parent <;>
      simp [Stmt.tree, Stmt.holdsInvalid, plain, ofReference, holdsPlaceholder_node, placeholders,
        placeholderBelow_memberLeaves methods, placeholderBelow_memberLeaves statics]

lemma placeholderBelow_stmtLeaves :
    (body : List Stmt) → (placeholderBelow (stmtLeaves body) ↔ anyInvalid body = true)
  | [] => by simp [stmtLeaves, anyInvalid]
  | s :: more => by
    simp [stmtLeaves, anyInvalid, s.holdsPlaceholder_tree, placeholderBelow_stmtLeaves more]

lemma Function.holdsPlaceholder_tree : (f : Function) → {l : String} → l ∉ placeholders →
    ((f.tree l).holdsPlaceholder ↔ f.holdsInvalid = true)
  | .mk _ params _ body, l, hl => by
    have hbody : "body" ∉ placeholders := by decide
    simp [Function.tree, Function.holdsInvalid, plain, holdsPlaceholder_node, hl, hbody,
      placeholderBelow_ofParams params, placeholderBelow_stmtLeaves body]

lemma placeholderBelow_memberLeaves :
    (fs : List Function) → (placeholderBelow (memberLeaves fs) ↔ anyInvalidMember fs = true)
  | [] => by simp [memberLeaves, anyInvalidMember]
  | f :: more => by
    simp [memberLeaves, anyInvalidMember, f.holdsPlaceholder_tree (l := "function") (by decide),
      placeholderBelow_memberLeaves more]

end

end Lox
