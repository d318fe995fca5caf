import Lox.Diagnostic

/-! The grammar of programs, over the kinds of their tokens. Symbols carry the conditions that
depend on where a phrase stands: what an assignment may assign to, whether a loop encloses a
statement within its function, and how long lists may be. -/

namespace Lox

inductive Level where
  | comma | ternary | assignment | or | and | equality | comparison | sum | product | sign | call
  | primary
  deriving DecidableEq

namespace Level

def next : Level → Level
  | comma => ternary
  | ternary => assignment
  | assignment => or
  | or => and
  | and => equality
  | equality => comparison
  | comparison => sum
  | sum => product
  | product => sign
  | sign => call
  | call => primary
  | primary => primary

def ops : Level → List Kind
  | comma => [.comma]
  | or => [.orWord]
  | and => [.andWord]
  | equality => [.bangEqual, .equalEqual]
  | comparison => [.greater, .greaterEqual, .less, .lessEqual]
  | sum => [.minus, .plus]
  | product => [.slash, .star, .percent]
  | _ => []

end Level

/-- What an expression is as far as assignments are concerned. In parentheses it is neither a name
nor a property. -/
inductive Assignee where
  | name | property | other
  deriving DecidableEq

inductive Symbol where
  | expression (level : Level) (assignee : Assignee)
  -- So many expressions with commas between them.
  | expressions (count : Nat)
  -- So many names with commas between them.
  | names (count : Nat)
  | parameters
  | body
  | member
  | classMember
  | superclass
  | variable
  | expressionStatement
  | forStart
  -- The flag tells whether a loop encloses the statement within its function.
  | statement (inLoop : Bool)
  | declaration (inLoop : Bool)
  | optional (s : Symbol)
  | many (s : Symbol)
  | program

def constants : List Kind :=
  [.falseWord, .trueWord, .nilWord, .number, .string, .thisWord]

inductive Derives : Symbol → List Kind → Prop
  | absent {s} : Derives (.optional s) []
  | present {s w} : Derives s w → Derives (.optional s) w
  | none {s} : Derives (.many s) []
  | more {s v w} : Derives s v → Derives (.many s) w → Derives (.many s) (v ++ w)
  -- Expressions.
  | pass {level assignee w} : level ≠ .primary → Derives (.expression level.next assignee) w →
      Derives (.expression level assignee) w
  | join {level l r op v w} : op ∈ level.ops → Derives (.expression level l) v →
      Derives (.expression level.next r) w → Derives (.expression level .other) (v ++ op :: w)
  | lambda {v w} : Derives .parameters v → Derives .body w →
      Derives (.expression .ternary .other) (.funWord :: (v ++ w))
  | conditional {s t u v w x} : Derives (.expression .assignment s) v →
      Derives (.expression .comma t) w → Derives (.expression .ternary u) x →
      Derives (.expression .ternary .other) (v ++ .question :: (w ++ .colon :: x))
  | assign {s t v w} : s ≠ .other → Derives (.expression .or s) v →
      Derives (.expression .ternary t) w →
      Derives (.expression .assignment .other) (v ++ .equal :: w)
  | sign {s op w} : op ∈ [.bang, .minus] → Derives (.expression .sign s) w →
      Derives (.expression .sign .other) (op :: w)
  | call {s count v w} : count ≤ maxArguments → Derives (.expression .call s) v →
      Derives (.optional (.expressions count)) w →
      Derives (.expression .call .other) (v ++ .leftParen :: (w ++ [.rightParen]))
  | property {s v} : Derives (.expression .call s) v →
      Derives (.expression .call .property) (v ++ [.dot, .identifier])
  | constant {k} : k ∈ constants → Derives (.expression .primary .other) [k]
  | name : Derives (.expression .primary .name) [.identifier]
  | super : Derives (.expression .primary .other) [.superWord, .dot, .identifier]
  | grouping {s w} : Derives (.expression .comma s) w →
      Derives (.expression .primary .other) (.leftParen :: (w ++ [.rightParen]))
  | list {count w} : Derives (.optional (.expressions count)) w →
      Derives (.expression .primary .other) (.leftBracket :: (w ++ [.rightBracket]))
  | lastExpression {s w} : Derives (.expression .ternary s) w → Derives (.expressions 1) w
  | moreExpressions {s count v w} : Derives (.expression .ternary s) v →
      Derives (.expressions count) w → Derives (.expressions (count + 1)) (v ++ .comma :: w)
  -- Functions and classes. A loop around a function does not reach into its body.
  | lastName : Derives (.names 1) [.identifier]
  | moreNames {count w} : Derives (.names count) w →
      Derives (.names (count + 1)) (.identifier :: .comma :: w)
  | parameters {count w} : count ≤ maxArguments → Derives (.optional (.names count)) w →
      Derives .parameters (.leftParen :: (w ++ [.rightParen]))
  | body {w} : Derives (.many (.declaration false)) w →
      Derives .body (.leftBrace :: (w ++ [.rightBrace]))
  | member {v w} : Derives (.optional .parameters) v → Derives .body w →
      Derives .member (.identifier :: (v ++ w))
  | method {w} : Derives .member w → Derives .classMember w
  | staticMember {w} : Derives .member w → Derives .classMember (.classWord :: w)
  | superclass : Derives .superclass [.less, .identifier]
  | classDecl {b v w} : Derives (.optional .superclass) v → Derives (.many .classMember) w →
      Derives (.declaration b)
        (.classWord :: .identifier :: (v ++ .leftBrace :: (w ++ [.rightBrace])))
  | function {b v w} : Derives .parameters v → Derives .body w →
      Derives (.declaration b) (.funWord :: .identifier :: (v ++ w))
  -- Statements.
  | uninitialized : Derives .variable [.varWord, .identifier, .semicolon]
  | initialized {s w} : Derives (.expression .comma s) w →
      Derives .variable (.varWord :: .identifier :: .equal :: (w ++ [.semicolon]))
  | variableDecl {b w} : Derives .variable w → Derives (.declaration b) w
  | statement {b w} : Derives (.statement b) w → Derives (.declaration b) w
  | expressionStatement {s w} : Derives (.expression .comma s) w →
      Derives .expressionStatement (w ++ [.semicolon])
  | expression {b w} : Derives .expressionStatement w → Derives (.statement b) w
  | breakLoop : Derives (.statement true) [.breakWord, .semicolon]
  | print {b s w} : Derives (.expression .comma s) w →
      Derives (.statement b) (.printWord :: (w ++ [.semicolon]))
  | returnValue {b s w} : Derives (.optional (.expression .comma s)) w →
      Derives (.statement b) (.returnWord :: (w ++ [.semicolon]))
  | block {b w} : Derives (.many (.declaration b)) w →
      Derives (.statement b) (.leftBrace :: (w ++ [.rightBrace]))
  | ifOnly {b s v w} : Derives (.expression .comma s) v → Derives (.statement b) w →
      Derives (.statement b) (.ifWord :: .leftParen :: (v ++ .rightParen :: w))
  | ifElse {b s v w x} : Derives (.expression .comma s) v → Derives (.statement b) w →
      Derives (.statement b) x →
      Derives (.statement b)
        (.ifWord :: .leftParen :: (v ++ .rightParen :: (w ++ .elseWord :: x)))
  | whileLoop {b s v w} : Derives (.expression .comma s) v → Derives (.statement true) w →
      Derives (.statement b) (.whileWord :: .leftParen :: (v ++ .rightParen :: w))
  | forStart : Derives .forStart [.semicolon]
  | forVariable {w} : Derives .variable w → Derives .forStart w
  | forExpression {w} : Derives .expressionStatement w → Derives .forStart w
  | forLoop {b s t u v w x} : Derives .forStart u → Derives (.optional (.expression .comma s)) v →
      Derives (.optional (.expression .comma t)) w → Derives (.statement true) x →
      Derives (.statement b) (.forWord :: .leftParen ::
        (u ++ (v ++ .semicolon :: (w ++ .rightParen :: x))))
  | program {w} : Derives (.many (.declaration false)) w → Derives .program (w ++ [.finish])

end Lox
