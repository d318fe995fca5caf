import Lox.Syntax

namespace Lox

variable (f : Token → Token) (g : Nat → Nat)

def Reference.map (r : Reference) : Reference := ⟨f r.name, r.depth⟩

def Params.map (p : Params) : Params := ⟨g p.line, p.names.map f⟩

mutual

def Expr.map : Expr → Expr
  | .literal token value => .literal (f token) value
  | .ref target => .ref (target.map f)
  | .assign target value line => .assign (target.map f) value.map (g line)
  | .get object name => .get object.map (f name)
  | .set object name value line => .set object.map (f name) value.map (g line)
  | .conditional condition mark yes no => .conditional condition.map (f mark) yes.map no.map
  | .lambda function => .lambda function.map
  | .comma left op right => .comma left.map (f op) right.map
  | .binary left op right => .binary left.map (f op) right.map
  | .logical left op right => .logical left.map (f op) right.map
  | .unary op operand => .unary (f op) operand.map
  | .call callee paren arguments => .call callee.map (f paren) (mapExprs arguments)
  | .this target => .this (target.map f)
  | .super target method => .super (target.map f) (f method)
  | .grouping paren inner => .grouping (f paren) inner.map
  | .list bracket elements => .list (f bracket) (mapExprs elements)
  | .invalid token => .invalid (f token)

def mapExprs : List Expr → List Expr
  | [] => []
  | e :: more => e.map :: mapExprs more

def Stmt.map : Stmt → Stmt
  | .expression line value => .expression (g line) value.map
  | .print keyword value => .print (f keyword) value.map
  | .var name none => .var (f name) none
  | .var name (some init) => .var (f name) (some init.map)
  | .block line body => .block (g line) (mapStmts body)
  | .ifElse keyword condition yes none => .ifElse (f keyword) condition.map yes.map none
  | .ifElse keyword condition yes (some no) =>
    .ifElse (f keyword) condition.map yes.map (some no.map)
  | .whileLoop keyword condition body => .whileLoop (f keyword) condition.map body.map
  | .breakLoop keyword => .breakLoop (f keyword)
  | .returnValue keyword none => .returnValue (f keyword) none
  | .returnValue keyword (some value) => .returnValue (f keyword) (some value.map)
  | .function function => .function function.map
  | .classDecl name superclass line methods statics =>
    .classDecl (f name) (superclass.map (Reference.map f)) (g line) (mapMembers methods)
      (mapMembers statics)
  | .invalid token => .invalid (f token)

def mapStmts : List Stmt → List Stmt
  | [] => []
  | s :: more => s.map :: mapStmts more

def Function.map : Function → Function
  | .mk head params line body => .mk (f head) (params.map (Params.map f g)) (g line) (mapStmts body)

def mapMembers : List Function → List Function
  | [] => []
  | m :: more => m.map :: mapMembers more

end

end Lox
