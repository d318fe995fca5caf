import Lox.Grammar.Expression

namespace Lox.Readers

open Reader

variable (self : Readers)

def readVar : Reader Stmt := do
  let name ← expect .variableName
  let init ←
    match ← accept? [.equal] with
    | some _ => some <$> self.readExpression
    | none => pure none
  let _ ← expect .variableEnd
  return .var name init

def readExpressionStmt : Reader Stmt := do
  let start ← look
  let value ← self.readExpression
  let _ ← expect .expressionEnd
  return .expression start.line value

def readPrint (keyword : Token) : Reader Stmt := do
  let value ← self.readExpression
  let _ ← expect .printEnd
  return .print keyword value

def readReturn (keyword : Token) : Reader Stmt := do
  let value ← if ← sees .semicolon then pure none else some <$> self.readExpression
  let _ ← expect .returnEnd
  return .returnValue keyword value

def readBreak (inLoop : Bool) (keyword : Token) : Reader Stmt := do
  if !inLoop then report keyword .breakOutsideLoop
  let _ ← expect .breakEnd
  return .breakLoop keyword

def readIf (inLoop : Bool) (keyword : Token) : Reader Stmt := do
  let _ ← expect .ifParen
  let condition ← self.readExpression
  let _ ← expect .ifClosing
  let yes ← self.statement inLoop
  let no ←
    match ← accept? [.elseWord] with
    | some _ => some <$> self.statement inLoop
    | none => pure none
  return .ifElse keyword condition yes no

def readWhile (keyword : Token) : Reader Stmt := do
  let _ ← expect .whileParen
  let condition ← self.readExpression
  let _ ← expect .whileClosing
  let body ← self.statement true
  return .whileLoop keyword condition body

def alwaysTrue (keyword : Token) : Expr :=
  .literal ⟨.trueWord, "true", keyword.line, 0⟩ (.bool true)

/-- The `while` loop that a `for` loop stands for. -/
def expandFor (keyword : Token) (init : Option Stmt) (condition increment : Option Expr)
    (body : Stmt) : Stmt :=
  let body :=
    match increment with
    | some step => .block keyword.line [body, .expression keyword.line step]
    | none => body
  let loop := .whileLoop keyword (condition.getD (alwaysTrue keyword)) body
  match init with
  | some first => .block keyword.line [first, loop]
  | none => loop

def readForInit : Reader (Option Stmt) := do
  match ← accept? [.semicolon] with
  | some _ => return none
  | none =>
    match ← accept? [.varWord] with
    | some _ => some <$> self.readVar
    | none => some <$> self.readExpressionStmt

def readFor (keyword : Token) : Reader Stmt := do
  let _ ← expect .forParen
  let init ← self.readForInit
  let condition ← if ← sees .semicolon then pure none else some <$> self.readExpression
  let _ ← expect .conditionEnd
  let increment ← if ← sees .rightParen then pure none else some <$> self.readExpression
  let _ ← expect .forClosing
  let body ← self.statement true
  return expandFor keyword init condition increment body

def readStatement (inLoop : Bool) : Reader Stmt := do
  let t ← look
  match t.kind with
  | .breakWord =>
    skip
    readBreak inLoop t
  | .forWord =>
    skip
    self.readFor t
  | .ifWord =>
    skip
    self.readIf inLoop t
  | .leftBrace =>
    skip
    return .block t.line (← self.readBlock inLoop)
  | .printWord =>
    skip
    self.readPrint t
  | .returnWord =>
    skip
    self.readReturn t
  | .whileWord =>
    skip
    self.readWhile t
  | _ => self.readExpressionStmt

def readFunction (what : Declared) : Reader Function := do
  let name ← expect (.declaredName what)
  let params ←
    if what = .function || !(← sees .leftBrace) then
      let paren ← expect (.declaredParen what)
      some <$> readParams paren
    else pure none
  let brace ← expect (.declaredBody what)
  self.readBody brace name params

def readMember : Reader (Bool × Function) := do
  match ← accept? [.classWord] with
  | some _ => return (true, ← self.readFunction .staticMethod)
  | none => return (false, ← self.readFunction .method)

def readSuperclass : Reader (Option Reference) := do
  match ← accept? [.less] with
  | some _ => return some ⟨← expect .superclassName, none⟩
  | none => return none

def readClass : Reader Stmt := do
  let name ← expect .className
  let superclass ← readSuperclass
  let brace ← expect .classOpening
  let members ← collect (fun c => c.sees .rightBrace || c.atEnd) self.readMember
  let _ ← expect .classClosing
  let methods := members.filterMap fun m => if m.1 then none else some m.2
  let statics := members.filterMap fun m => if m.1 then some m.2 else none
  return .classDecl name superclass brace.line methods statics

def declaresFunction (c : Cursor) : Bool :=
  match c.rest with
  | t :: name :: _ => t.kind = .funWord && name.kind = .identifier
  | _ => false

def readDeclared (inLoop : Bool) : Reader Stmt := do
  match ← accept? [.classWord] with
  | some _ => self.readClass
  | none =>
    if declaresFunction (← get) then
      skip
      return .function (← self.readFunction .function)
    else
      match ← accept? [.varWord] with
      | some _ => self.readVar
      | none => self.readStatement inLoop

def recover : Reader Stmt := do
  let t ← look
  modify Cursor.skipStatement
  return .invalid t

def readDeclaration (inLoop : Bool) : Reader Stmt := orElse (self.readDeclared inLoop) recover

end Lox.Readers
