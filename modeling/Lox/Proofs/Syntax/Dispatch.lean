import Lox.Syntax.Tree
import Mathlib.Tactic.Lemma

/-! What evaluation makes of a labelled tree: a node is taken for the construct of its label, with
the parts that stand below it. The tree of a construct is taken for that construct. -/

namespace Lox

/-- What stands below a label, once it has been taken for a part of a construct. -/
inductive Part where
  | expr (e : Expr)
  | stmt (st : Stmt)
  | params (p : Params)
  | arguments (es : List Expr)
  | body (line : Nat) (body : List Stmt)
  | members (line : Nat) (fs : List Function)
  | token (t : Token)
  | value (v : Literal)
  | nothing

namespace Part

def expr? : Part → Option Expr
  | .expr e => some e
  | _ => none

def stmt? : Part → Option Stmt
  | .stmt st => some st
  | _ => none

def params? : Part → Option Params
  | .params p => some p
  | _ => none

def token? : Part → Option Token
  | .token t => some t
  | _ => none

def target? : Part → Option Reference
  | .expr (.ref target) => some target
  | _ => none

def member? : Part → Option Function
  | .stmt (.function f) => some f
  | _ => none

def ofFunction (make : Function → Part) : List Part → Part
  | [.token head, ps, .body line statements] => make (.mk head ps.params? line statements)
  | _ => .nothing

def ofInfix (make : Expr → Token → Expr → Expr) : List Part → Part
  | [.expr left, .token op, .expr right] => .expr (make left op right)
  | _ => .nothing

def ofNode (label : String) (line : Nat) (depth : Option Nat) (parts : List Part) : Part :=
  match label with
  | "literal" =>
    match parts with
    | [.token t, .value v] => .expr (.literal t v)
    | _ => .nothing
  | "variable" =>
    match parts with
    | [.token name] => .expr (.ref ⟨name, depth⟩)
    | _ => .nothing
  | "assign" =>
    match parts with
    | [.token name, .expr e] => .expr (.assign ⟨name, depth⟩ e line)
    | _ => .nothing
  | "get" =>
    match parts with
    | [.expr object, .token name] => .expr (.get object name)
    | _ => .nothing
  | "set" =>
    match parts with
    | [.expr object, .token name, .expr e] => .expr (.set object name e line)
    | _ => .nothing
  | "conditional" =>
    match parts with
    | [.expr condition, .token mark, .expr yes, .expr no] =>
      .expr (.conditional condition mark yes no)
    | _ => .nothing
  | "lambda_expr" => ofFunction (fun f => .expr (.lambda f)) parts
  | "comma" => ofInfix .comma parts
  | "binary" => ofInfix .binary parts
  | "logical" => ofInfix .logical parts
  | "unary" =>
    match parts with
    | [.token op, .expr operand] => .expr (.unary op operand)
    | _ => .nothing
  | "call" =>
    match parts with
    | [.expr callee, .token paren, .arguments es] => .expr (.call callee paren es)
    | _ => .nothing
  | "this_expr" =>
    match parts with
    | [.token name] => .expr (.this ⟨name, depth⟩)
    | _ => .nothing
  | "super_expr" =>
    match parts with
    | [.token name, .token method] => .expr (.super ⟨name, depth⟩ method)
    | _ => .nothing
  | "grouping" =>
    match parts with
    | [.token paren, .expr inner] => .expr (.grouping paren inner)
    | _ => .nothing
  | "list" =>
    match parts with
    | .token bracket :: elements => .expr (.list bracket (elements.filterMap expr?))
    | _ => .nothing
  | "invalid_expr" =>
    match parts with
    | [.token t] => .expr (.invalid t)
    | _ => .nothing
  | "expression_stmt" =>
    match parts with
    | [.expr e] => .stmt (.expression line e)
    | _ => .nothing
  | "print_stmt" =>
    match parts with
    | [.token keyword, .expr e] => .stmt (.print keyword e)
    | _ => .nothing
  | "var_decl" =>
    match parts with
    | [.token name, init] => .stmt (.var name init.expr?)
    | _ => .nothing
  | "block" => .stmt (.block line (parts.filterMap stmt?))
  | "if_stmt" =>
    match parts with
    | [.token keyword, .expr condition, .stmt yes, no] =>
      .stmt (.ifElse keyword condition yes no.stmt?)
    | _ => .nothing
  | "while_stmt" =>
    match parts with
    | [.token keyword, .expr condition, .stmt st] => .stmt (.whileLoop keyword condition st)
    | _ => .nothing
  | "break_stmt" =>
    match parts with
    | [.token keyword] => .stmt (.breakLoop keyword)
    | _ => .nothing
  | "return_stmt" =>
    match parts with
    | [.token keyword, e] => .stmt (.returnValue keyword e.expr?)
    | _ => .nothing
  | "function" => ofFunction (fun f => .stmt (.function f)) parts
  | "class_decl" =>
    match parts with
    | [.token name, superclass, .members line methods, .members _ statics] =>
      .stmt (.classDecl name superclass.target? line methods statics)
    | _ => .nothing
  | "invalid_stmt" =>
    match parts with
    | [.token t] => .stmt (.invalid t)
    | _ => .nothing
  | "params" => .params ⟨line, parts.filterMap token?⟩
  | "arguments" => .arguments (parts.filterMap expr?)
  | "body" => .body line (parts.filterMap stmt?)
  | "methods" | "static_methods" => .members line (parts.filterMap member?)
  | _ => .nothing

end Part

mutual

def Tree.part : Tree → Part
  | .node label line depth children => .ofNode label line depth (partsBelow children)

def partOfLeaf : Leaf → Part
  | .tree t => t.part
  | .token t => .token t
  | .value v => .value v
  | .absent => .nothing

def partsBelow : List Leaf → List Part
  | [] => []
  | leaf :: more => partOfLeaf leaf :: partsBelow more

end

lemma partsBelow_tokens (ts : List Token) :
    (partsBelow (ts.map Leaf.token)).filterMap Part.token? = ts := by
  induction ts with
  | nil => rfl
  | cons t ts ih => exact congrArg (t :: ·) ih

lemma params?_ofParams (p : Option Params) : (partOfLeaf (Leaf.ofParams p)).params? = p := by
  cases p with
  | none => rfl
  | some p =>
    change some (Params.mk p.line ((partsBelow (p.names.map Leaf.token)).filterMap Part.token?)) = _
    rw [partsBelow_tokens]

mutual

lemma Expr.part_tree : (e : Expr) → e.tree.part = .expr e
  | .literal token value => rfl
  | .ref target => rfl
  | .assign target value line => by
    simp only [Expr.tree, Tree.part, partsBelow, partOfLeaf, value.part_tree]
    rfl
  | .get object name => by
    simp only [Expr.tree, Tree.plain, Tree.part, partsBelow, partOfLeaf, object.part_tree]
    rfl
  | .set object name value line => by
    simp only [Expr.tree, Tree.plain, Tree.part, partsBelow, partOfLeaf, object.part_tree,
      value.part_tree]
    rfl
  | .conditional condition mark yes no => by
    simp only [Expr.tree, Tree.plain, Tree.part, partsBelow, partOfLeaf, condition.part_tree,
      yes.part_tree, no.part_tree]
    rfl
  | .lambda (.mk head params line body) => by
    have hbody := stmts?_stmtLeaves body
    change Part.expr (.lambda (.mk head (partOfLeaf (Leaf.ofParams params)).params? line
      ((partsBelow (stmtLeaves body)).filterMap Part.stmt?))) = _
    rw [params?_ofParams, hbody]
  | .comma left op right => by
    simp only [Expr.tree, Tree.ofInfix, Tree.plain, Tree.part, partsBelow, partOfLeaf,
      left.part_tree, right.part_tree]
    rfl
  | .binary left op right => by
    simp only [Expr.tree, Tree.ofInfix, Tree.plain, Tree.part, partsBelow, partOfLeaf,
      left.part_tree, right.part_tree]
    rfl
  | .logical left op right => by
    simp only [Expr.tree, Tree.ofInfix, Tree.plain, Tree.part, partsBelow, partOfLeaf,
      left.part_tree, right.part_tree]
    rfl
  | .unary op operand => by
    simp only [Expr.tree, Tree.plain, Tree.part, partsBelow, partOfLeaf, operand.part_tree]
    rfl
  | .call callee paren arguments => by
    have harguments := exprs?_exprLeaves arguments
    simp only [Expr.tree, Tree.plain, Tree.part, partsBelow, partOfLeaf, callee.part_tree]
    change Part.expr (.call callee paren ((partsBelow (exprLeaves arguments)).filterMap
      Part.expr?)) = _
    rw [harguments]
  | .this target => rfl
  | .super target method => rfl
  | .grouping paren inner => by
    simp only [Expr.tree, Tree.plain, Tree.part, partsBelow, partOfLeaf, inner.part_tree]
    rfl
  | .list bracket elements => by
    have helements := exprs?_exprLeaves elements
    change Part.expr (.list bracket ((partsBelow (exprLeaves elements)).filterMap Part.expr?)) = _
    rw [helements]
  | .invalid token => rfl

lemma exprs?_exprLeaves : (es : List Expr) →
    (partsBelow (exprLeaves es)).filterMap Part.expr? = es
  | [] => rfl
  | e :: es => by
    have hes := exprs?_exprLeaves es
    simp only [exprLeaves, partsBelow, partOfLeaf, e.part_tree, List.filterMap_cons, Part.expr?, hes]

lemma Stmt.part_tree : (st : Stmt) → st.tree.part = .stmt st
  | .expression line value => by
    simp only [Stmt.tree, Tree.plain, Tree.part, partsBelow, partOfLeaf, value.part_tree]
    rfl
  | .print keyword value => by
    simp only [Stmt.tree, Tree.plain, Tree.part, partsBelow, partOfLeaf, value.part_tree]
    rfl
  | .var name none => rfl
  | .var name (some init) => by
    simp only [Stmt.tree, Tree.plain, Tree.part, partsBelow, partOfLeaf, init.part_tree]
    rfl
  | .block line body => by
    have hbody := stmts?_stmtLeaves body
    change Part.stmt (.block line ((partsBelow (stmtLeaves body)).filterMap Part.stmt?)) = _
    rw [hbody]
  | .ifElse keyword condition yes none => by
    simp only [Stmt.tree, Tree.plain, Tree.part, partsBelow, partOfLeaf, condition.part_tree,
      yes.part_tree]
    rfl
  | .ifElse keyword condition yes (some no) => by
    simp only [Stmt.tree, Tree.plain, Tree.part, partsBelow, partOfLeaf, condition.part_tree,
      yes.part_tree, no.part_tree]
    rfl
  | .whileLoop keyword condition body => by
    simp only [Stmt.tree, Tree.plain, Tree.part, partsBelow, partOfLeaf, condition.part_tree,
      body.part_tree]
    rfl
  | .breakLoop keyword => rfl
  | .returnValue keyword none => rfl
  | .returnValue keyword (some value) => by
    simp only [Stmt.tree, Tree.plain, Tree.part, partsBelow, partOfLeaf, value.part_tree]
    rfl
  | .function f => f.part_tree
  | .classDecl name superclass line methods statics => by
    have hmethods := members?_memberLeaves methods
    have hstatics := members?_memberLeaves statics
    cases superclass with
    | none | some =>
      change Part.stmt (.classDecl name _ line
        ((partsBelow (memberLeaves methods)).filterMap Part.member?)
        ((partsBelow (memberLeaves statics)).filterMap Part.member?)) = _
      rw [hmethods, hstatics]
      rfl
  | .invalid token => rfl

lemma stmts?_stmtLeaves : (body : List Stmt) →
    (partsBelow (stmtLeaves body)).filterMap Part.stmt? = body
  | [] => rfl
  | st :: body => by
    have hbody := stmts?_stmtLeaves body
    simp only [stmtLeaves, partsBelow, partOfLeaf, st.part_tree, List.filterMap_cons, Part.stmt?,
      hbody]

lemma Function.part_tree : (f : Function) → (f.tree "function").part = .stmt (.function f)
  | .mk head params line body => by
    have hbody := stmts?_stmtLeaves body
    change Part.stmt (.function (.mk head (partOfLeaf (Leaf.ofParams params)).params? line
      ((partsBelow (stmtLeaves body)).filterMap Part.stmt?))) = _
    rw [params?_ofParams, hbody]

lemma members?_memberLeaves : (fs : List Function) →
    (partsBelow (memberLeaves fs)).filterMap Part.member? = fs
  | [] => rfl
  | f :: fs => by
    have hfs := members?_memberLeaves fs
    simp only [memberLeaves, partsBelow, partOfLeaf, f.part_tree, List.filterMap_cons,
      Part.member?, hfs]

end

end Lox
