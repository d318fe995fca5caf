import Lox.Token

namespace Lox

inductive Declared where
  | function
  | method
  | staticMethod
  deriving Repr, DecidableEq

def Declared.noun : Declared → String
  | .function => "function"
  | .method => "method"
  | .staticMethod => "static method"

inductive Expectation where
  | className | superclassName | classOpening | classClosing
  | declaredName (what : Declared) | declaredParen (what : Declared) | declaredBody (what : Declared)
  | parameterName | parametersClosing
  | variableName | variableEnd
  | blockClosing
  | breakEnd
  | forParen | conditionEnd | forClosing
  | ifParen | ifClosing
  | printEnd | returnEnd
  | whileParen | whileClosing
  | expressionEnd
  | elseColon
  | lambdaParen | lambdaBody
  | propertyName | argumentsClosing
  | superDot | superMethod
  | groupClosing | listClosing
  deriving Repr, DecidableEq

namespace Expectation

def kind : Expectation → Kind
  | className | superclassName | declaredName _ | parameterName | variableName | propertyName
  | superMethod => .identifier
  | classOpening | declaredBody _ | lambdaBody => .leftBrace
  | classClosing | blockClosing => .rightBrace
  | declaredParen _ | forParen | ifParen | whileParen | lambdaParen => .leftParen
  | parametersClosing | forClosing | ifClosing | whileClosing | argumentsClosing
  | groupClosing => .rightParen
  | variableEnd | breakEnd | conditionEnd | printEnd | returnEnd | expressionEnd => .semicolon
  | elseColon => .colon
  | superDot => .dot
  | listClosing => .rightBracket

def message : Expectation → String
  | className => "Expect class name."
  | superclassName => "Expect superclass name."
  | classOpening => "Expect '\x7b' before class body."
  | classClosing => "Expect '\x7d' after class body."
  | declaredName what => "Expect " ++ what.noun ++ " name."
  | declaredParen what => "Expect '(' after " ++ what.noun ++ " name."
  | declaredBody what => "Expect '\x7b' before " ++ what.noun ++ " body."
  | parameterName => "Expect parameter name."
  | parametersClosing => "Expect ')' after parameters."
  | variableName => "Expect variable name."
  | variableEnd => "Expect ';' after variable declaration."
  | blockClosing => "Expect '\x7d' after block."
  | breakEnd => "Expect ';' after 'break'."
  | forParen => "Expect '(' after 'for'."
  | conditionEnd => "Expect ';' after loop condition."
  | forClosing => "Expect ')' after for clauses."
  | ifParen => "Expect '(' after 'if'."
  | ifClosing => "Expect ')' after if condition."
  | printEnd => "Expect ';' after value."
  | returnEnd => "Expect ';' after return value."
  | whileParen => "Expect '(' after 'while'."
  | whileClosing => "Expect ')' after condition."
  | expressionEnd => "Expect ';' after expression."
  | elseColon => "Expect ':' after then branch of conditional expression."
  | lambdaParen => "Expect '(' after 'fun'."
  | lambdaBody => "Expect '\x7b' before lambda body."
  | propertyName => "Expect property name after '.'."
  | argumentsClosing => "Expect ')' after arguments."
  | superDot => "Expect '.' after 'super'."
  | superMethod => "Expect superclass method name."
  | groupClosing => "Expect ')' after expression."
  | listClosing => "Expect ']' after list elements."

end Expectation

def maxArguments : Nat := 255

inductive Problem where
  | strayCharacter
  | openString
  | openComment
  | expected (what : Expectation)
  | noExpression
  | noLeftOperand
  | badAssignment
  | tooManyParameters
  | tooManyArguments
  | breakOutsideLoop
  | declaredTwice
  | readInInitializer
  | returnAtTopLevel
  | returnFromInitializer
  | inheritsItself
  | thisOutsideClass
  | superOutsideClass
  | superWithoutSuperclass
  | unusedLocal (name : String)
  deriving Repr, DecidableEq

inductive Severity where
  | error
  | warning
  deriving Repr, DecidableEq

def Severity.word : Severity → String
  | .error => "Error"
  | .warning => "Warning"

namespace Problem

/-- Only an unused local lets the program run. -/
def severity : Problem → Severity
  | unusedLocal _ => .warning
  | _ => .error

def message : Problem → String
  | strayCharacter => "Unexpected character."
  | openString => "Unterminated string."
  | openComment => "Unterminated block comment."
  | expected what => what.message
  | noExpression => "Expect expression."
  | noLeftOperand => "Missing left-hand operand."
  | badAssignment => "Invalid assignment target."
  | tooManyParameters => "Can't have more than " ++ toString maxArguments ++ " parameters."
  | tooManyArguments => "Can't have more than " ++ toString maxArguments ++ " arguments."
  | breakOutsideLoop => "Can't use 'break' outside of a loop."
  | declaredTwice => "Already a variable with this name in this scope."
  | readInInitializer => "Can't read local variable in its own initializer."
  | returnAtTopLevel => "Can't return from top-level code."
  | returnFromInitializer => "Can't return a value from an initializer."
  | inheritsItself => "A class can't inherit from itself."
  | thisOutsideClass => "Can't use 'this' outside of a class."
  | superOutsideClass => "Can't use 'super' outside of a class."
  | superWithoutSuperclass => "Can't use 'super' in a class with no superclass."
  | unusedLocal name => "Local variable '" ++ name ++ "' is never used."

end Problem

inductive Spot where
  | line
  | finish
  | lexeme (text : String)
  deriving Repr, DecidableEq

namespace Spot

def ofToken (t : Token) : Spot := if t.kind = .finish then finish else lexeme t.lexeme

def phrase : Spot → String
  | line => ""
  | finish => " at end"
  | lexeme text => " at '" ++ text ++ "'"

end Spot

structure Diagnostic where
  line : Nat
  spot : Spot
  problem : Problem
  deriving Repr, DecidableEq

namespace Diagnostic

def onLine (line : Nat) (problem : Problem) : Diagnostic := ⟨line, .line, problem⟩

def atToken (t : Token) (problem : Problem) : Diagnostic := ⟨t.line, .ofToken t, problem⟩

def severity (d : Diagnostic) : Severity := d.problem.severity

def isError (d : Diagnostic) : Bool := d.severity = .error

def render (d : Diagnostic) : String :=
  "[line " ++ toString d.line ++ "] " ++ d.severity.word ++ d.spot.phrase ++ ": " ++
    d.problem.message

def errors (ds : List Diagnostic) : List Diagnostic := ds.filter isError

def hasError (ds : List Diagnostic) : Bool := ds.any isError

def summary (ds : List Diagnostic) : String :=
  String.intercalate "\n" ((errors ds).map render)

end Diagnostic

end Lox
