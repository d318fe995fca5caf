import Lox.Number.Notation
import Lox.Syntax

/-! The labelled tree of a program: one node per construct, with its line and, where scopes have
been resolved, the depth of a name. It is what a tree dump shows. -/

namespace Lox

def Literal.shown : Literal → String
  | .nil => "nil"
  | .bool true => "true"
  | .bool false => "false"
  | .number value => Number.text value
  | .string value => "\"" ++ value ++ "\""

mutual

inductive Tree where
  | node (label : String) (line : Nat) (depth : Option Nat) (children : List Leaf)

inductive Leaf where
  | tree (t : Tree)
  | token (t : Token)
  | value (v : Literal)
  | absent

end

namespace Tree

/-- A node that is no use of a name. -/
def plain (label : String) (line : Nat) (children : List Leaf) : Tree :=
  node label line none children

def ofReference (label : String) (r : Reference) (children : List Leaf) : Tree :=
  node label r.name.line r.depth (.token r.name :: children)

def ofInfix (label : String) (left : Tree) (op : Token) (right : Tree) : Tree :=
  plain label op.line [.tree left, .token op, .tree right]

end Tree

def Leaf.ofParams : Option Params → Leaf
  | some params => .tree (.plain "params" params.line (params.names.map Leaf.token))
  | none => .absent

mutual

def Expr.tree : Expr → Tree
  | .literal token value => .plain "literal" token.line [.token token, .value value]
  | .ref target => .ofReference "variable" target []
  | .assign target value line =>
    .node "assign" line target.depth [.token target.name, .tree value.tree]
  | .get object name => .plain "get" name.line [.tree object.tree, .token name]
  | .set object name value line =>
    .plain "set" line [.tree object.tree, .token name, .tree value.tree]
  | .conditional condition mark yes no =>
    .plain "conditional" mark.line
      [.tree condition.tree, .token mark, .tree yes.tree, .tree no.tree]
  | .lambda function => function.tree "lambda_expr"
  | .comma left op right => .ofInfix "comma" left.tree op right.tree
  | .binary left op right => .ofInfix "binary" left.tree op right.tree
  | .logical left op right => .ofInfix "logical" left.tree op right.tree
  | .unary op operand => .plain "unary" op.line [.token op, .tree operand.tree]
  | .call callee paren arguments =>
    .plain "call" paren.line
      [.tree callee.tree, .token paren, .tree (.plain "arguments" paren.line (exprLeaves arguments))]
  | .this target => .ofReference "this_expr" target []
  | .super target method => .ofReference "super_expr" target [.token method]
  | .grouping paren inner => .plain "grouping" paren.line [.token paren, .tree inner.tree]
  | .list bracket elements => .plain "list" bracket.line (.token bracket :: exprLeaves elements)
  | .invalid token => .plain "invalid_expr" token.line [.token token]

def exprLeaves : List Expr → List Leaf
  | [] => []
  | e :: more => .tree e.tree :: exprLeaves more

def Stmt.tree : Stmt → Tree
  | .expression line value => .plain "expression_stmt" line [.tree value.tree]
  | .print keyword value => .plain "print_stmt" keyword.line [.token keyword, .tree value.tree]
  | .var name none => .plain "var_decl" name.line [.token name, .absent]
  | .var name (some init) => .plain "var_decl" name.line [.token name, .tree init.tree]
  | .block line body => .plain "block" line (stmtLeaves body)
  | .ifElse keyword condition yes none =>
    .plain "if_stmt" keyword.line [.token keyword, .tree condition.tree, .tree yes.tree, .absent]
  | .ifElse keyword condition yes (some no) =>
    .plain "if_stmt" keyword.line
      [.token keyword, .tree condition.tree, .tree yes.tree, .tree no.tree]
  | .whileLoop keyword condition body =>
    .plain "while_stmt" keyword.line [.token keyword, .tree condition.tree, .tree body.tree]
  | .breakLoop keyword => .plain "break_stmt" keyword.line [.token keyword]
  | .returnValue keyword none => .plain "return_stmt" keyword.line [.token keyword, .absent]
  | .returnValue keyword (some value) =>
    .plain "return_stmt" keyword.line [.token keyword, .tree value.tree]
  | .function function => function.tree "function"
  | .classDecl name superclass line methods statics =>
    .plain "class_decl" name.line
      [.token name,
       match superclass with
       | some target => .tree (.ofReference "variable" target [])
       | none => .absent,
       .tree (.plain "methods" line (memberLeaves methods)),
       .tree (.plain "static_methods" line (memberLeaves statics))]
  | .invalid token => .plain "invalid_stmt" token.line [.token token]

def stmtLeaves : List Stmt → List Leaf
  | [] => []
  | s :: more => .tree s.tree :: stmtLeaves more

def Function.tree (label : String) : Function → Tree
  | .mk head params line body =>
    .plain label head.line
      [.token head, .ofParams params, .tree (.plain "body" line (stmtLeaves body))]

def memberLeaves : List Function → List Leaf
  | [] => []
  | f :: more => .tree (f.tree "function") :: memberLeaves more

end

namespace Tree

def indentation (level : Nat) : String := String.ofList (List.replicate (2 * level) ' ')

mutual

def pretty (level : Nat) : Tree → String
  | .node label _ _ [leaf] => indentation level ++ label ++ onlyLeaf level leaf
  | .node label _ _ children =>
    indentation level ++ label ++ "\n" ++ prettyLeaves (level + 1) children

def onlyLeaf (level : Nat) : Leaf → String
  | .tree t => "\n" ++ t.pretty (level + 1)
  | .token t => "\t" ++ t.lexeme ++ "\n"
  | .value v => "\t" ++ v.shown ++ "\n"
  | .absent => "\tNone\n"

def prettyLeaf (level : Nat) : Leaf → String
  | .tree t => t.pretty level
  | .token t => indentation level ++ t.lexeme ++ "\n"
  | .value v => indentation level ++ v.shown ++ "\n"
  | .absent => indentation level ++ "None\n"

def prettyLeaves (level : Nat) : List Leaf → String
  | [] => ""
  | leaf :: more => prettyLeaf level leaf ++ prettyLeaves level more

end

end Tree

end Lox
