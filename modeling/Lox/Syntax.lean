import Lox.Token

/-! The syntax of programs. Every construct keeps the tokens and lines that messages refer to;
`invalid` stands where the text could not be read. -/

namespace Lox

/-- A use of a name. The depth counts the scopes between the use and the binding; a global name
has none, and before scopes are resolved no name has. -/
structure Reference where
  name : Token
  depth : Option Nat
  deriving Repr, DecidableEq, Inhabited

structure Params where
  line : Nat
  names : List Token
  deriving Repr, DecidableEq, Inhabited

mutual

inductive Expr where
  | literal (token : Token) (value : Literal)
  | ref (target : Reference)
  | assign (target : Reference) (value : Expr) (line : Nat)
  | get (object : Expr) (name : Token)
  | set (object : Expr) (name : Token) (value : Expr) (line : Nat)
  | conditional (condition : Expr) (mark : Token) (yes no : Expr)
  | lambda (function : Function)
  | comma (left : Expr) (op : Token) (right : Expr)
  | binary (left : Expr) (op : Token) (right : Expr)
  | logical (left : Expr) (op : Token) (right : Expr)
  | unary (op : Token) (operand : Expr)
  | call (callee : Expr) (paren : Token) (arguments : List Expr)
  | this (target : Reference)
  | super (target : Reference) (method : Token)
  | grouping (paren : Token) (inner : Expr)
  | list (bracket : Token) (elements : List Expr)
  | invalid (token : Token)

inductive Stmt where
  | expression (line : Nat) (value : Expr)
  | print (keyword : Token) (value : Expr)
  | var (name : Token) (init : Option Expr)
  | block (line : Nat) (body : List Stmt)
  | ifElse (keyword : Token) (condition : Expr) (yes : Stmt) (no : Option Stmt)
  | whileLoop (keyword : Token) (condition : Expr) (body : Stmt)
  | breakLoop (keyword : Token)
  | returnValue (keyword : Token) (value : Option Expr)
  | function (function : Function)
  | classDecl (name : Token) (superclass : Option Reference) (line : Nat)
      (methods statics : List Function)
  | invalid (token : Token)

/-- A named function, a class member or a lambda, whose head is its keyword. A member without
parameters runs as soon as it is read. -/
inductive Function where
  | mk (head : Token) (params : Option Params) (line : Nat) (body : List Stmt)

end

namespace Function

def head : Function → Token
  | mk head _ _ _ => head

def name (f : Function) : String := f.head.lexeme

def params : Function → Option Params
  | mk _ params _ _ => params

def paramNames (f : Function) : List Token := (f.params.map Params.names).getD []

def body : Function → List Stmt
  | mk _ _ _ body => body

def isGetter (f : Function) : Bool := f.params.isNone

def isInitializer (isStatic : Bool) (f : Function) : Bool :=
  !isStatic && f.name = "init" && !f.isGetter

end Function

def Expr.firstToken : Expr → Token
  | literal token _ => token
  | ref target => target.name
  | assign target _ _ => target.name
  | get object _ => object.firstToken
  | set object _ _ _ => object.firstToken
  | conditional condition _ _ _ => condition.firstToken
  | lambda function => function.head
  | comma left _ _ => left.firstToken
  | binary left _ _ => left.firstToken
  | logical left _ _ => left.firstToken
  | unary op _ => op
  | call callee _ _ => callee.firstToken
  | this target => target.name
  | super target _ => target.name
  | grouping paren _ => paren
  | list bracket _ => bracket
  | invalid token => token

mutual

def Stmt.firstToken? : Stmt → Option Token
  | .expression _ value => some value.firstToken
  | .print keyword _ => some keyword
  | .var name _ => some name
  | .block _ body => firstTokenOf? body
  | .ifElse keyword _ _ _ => some keyword
  | .whileLoop keyword _ _ => some keyword
  | .breakLoop keyword => some keyword
  | .returnValue keyword _ => some keyword
  | .function function => some function.head
  | .classDecl name _ _ _ _ => some name
  | .invalid token => some token

def firstTokenOf? : List Stmt → Option Token
  | [] => none
  | s :: more => s.firstToken?.or (firstTokenOf? more)

end

mutual

def Expr.holdsInvalid : Expr → Bool
  | .literal _ _ => false
  | .ref _ => false
  | .assign _ value _ => value.holdsInvalid
  | .get object _ => object.holdsInvalid
  | .set object _ value _ => object.holdsInvalid || value.holdsInvalid
  | .conditional condition _ yes no =>
    condition.holdsInvalid || yes.holdsInvalid || no.holdsInvalid
  | .lambda function => function.holdsInvalid
  | .comma left _ right => left.holdsInvalid || right.holdsInvalid
  | .binary left _ right => left.holdsInvalid || right.holdsInvalid
  | .logical left _ right => left.holdsInvalid || right.holdsInvalid
  | .unary _ operand => operand.holdsInvalid
  | .call callee _ arguments => callee.holdsInvalid || anyInvalidExpr arguments
  | .this _ => false
  | .super _ _ => false
  | .grouping _ inner => inner.holdsInvalid
  | .list _ elements => anyInvalidExpr elements
  | .invalid _ => true

def anyInvalidExpr : List Expr → Bool
  | [] => false
  | e :: more => e.holdsInvalid || anyInvalidExpr more

def Stmt.holdsInvalid : Stmt → Bool
  | .expression _ value => value.holdsInvalid
  | .print _ value => value.holdsInvalid
  | .var _ none => false
  | .var _ (some init) => init.holdsInvalid
  | .block _ body => anyInvalid body
  | .ifElse _ condition yes none => condition.holdsInvalid || yes.holdsInvalid
  | .ifElse _ condition yes (some no) =>
    condition.holdsInvalid || yes.holdsInvalid || no.holdsInvalid
  | .whileLoop _ condition body => condition.holdsInvalid || body.holdsInvalid
  | .breakLoop _ => false
  | .returnValue _ none => false
  | .returnValue _ (some value) => value.holdsInvalid
  | .function function => function.holdsInvalid
  | .classDecl _ _ _ methods statics => anyInvalidMember methods || anyInvalidMember statics
  | .invalid _ => true

def anyInvalid : List Stmt → Bool
  | [] => false
  | s :: more => s.holdsInvalid || anyInvalid more

def Function.holdsInvalid : Function → Bool
  | .mk _ _ _ body => anyInvalid body

def anyInvalidMember : List Function → Bool
  | [] => false
  | f :: more => f.holdsInvalid || anyInvalidMember more

end

end Lox
