import Lox.Grammar.Cursor
import Lox.Syntax

/-! Reading expressions. The tiers, from the loosest: comma, conditional or lambda, assignment, or,
and, equality, comparison, sum, product, sign, call, primary. -/

namespace Lox

/-- The readers that the grammar uses within itself. Each such use has read a token before. -/
structure Readers where
  expression : Reader Expr
  ternary : Reader Expr
  equality : Reader Expr
  comparison : Reader Expr
  sum : Reader Expr
  product : Reader Expr
  sign : Reader Expr
  -- The flag tells whether a loop encloses the statement within its function.
  statement : Bool → Reader Stmt
  declaration : Bool → Reader Stmt

namespace Readers

open Reader

variable (self : Readers)

def readBlock (inLoop : Bool) : Reader (List Stmt) := do
  let body ← collect (fun c => c.sees .rightBrace || c.atEnd) (self.declaration inLoop)
  let _ ← expect .blockClosing
  return body

def readParams (paren : Token) : Reader Params := do
  let names ←
    if ← sees .rightParen then pure []
    else commaList (some .tooManyParameters) (expect .parameterName)
  let _ ← expect .parametersClosing
  return ⟨paren.line, names⟩

def readBody (brace : Token) (head : Token) (params : Option Params) : Reader Function := do
  let body ← self.readBlock false
  return .mk head params brace.line body

def readLambda (keyword : Token) : Reader Expr := do
  let paren ← expect .lambdaParen
  let params ← readParams paren
  let brace ← expect .lambdaBody
  return .lambda (← self.readBody brace keyword (some params))

def readArguments : Reader (List Expr) := do
  if ← sees .rightParen then return []
  else commaList (some .tooManyArguments) self.ternary

def readList (bracket : Token) : Reader Expr := do
  let elements ← if ← sees .rightBracket then pure [] else commaList none self.ternary
  let _ ← expect .listClosing
  return .list bracket elements

def readGrouping (paren : Token) : Reader Expr := do
  let inner ← self.expression
  let _ ← expect .groupClosing
  return .grouping paren inner

def readSuper (keyword : Token) : Reader Expr := do
  let _ ← expect .superDot
  let method ← expect .superMethod
  return .super ⟨keyword, none⟩ method

/-- An operator without a left operand: its right operand is read and thrown away. -/
def readOrphan (op : Token) (operand : Reader Expr) : Reader Expr := do
  report op .noLeftOperand
  let _ ← operand
  return .invalid (← look)

def readPrimary : Reader Expr := do
  let t ← look
  match t.literal? with
  | some value =>
    skip
    return .literal t value
  | none =>
    match t.kind with
    | .thisWord =>
      skip
      return .this ⟨t, none⟩
    | .identifier =>
      skip
      return .ref ⟨t, none⟩
    | .superWord =>
      skip
      readSuper t
    | .leftParen =>
      skip
      self.readGrouping t
    | .leftBracket =>
      skip
      self.readList t
    | .bangEqual | .equalEqual =>
      skip
      readOrphan t self.equality
    | .greater | .greaterEqual | .less | .lessEqual =>
      skip
      readOrphan t self.comparison
    | .plus =>
      skip
      readOrphan t self.sum
    | .slash | .star | .percent =>
      skip
      readOrphan t self.product
    | _ => fail t .noExpression

def readSuffixes : Nat → Expr → Reader Expr
  | 0, e => return e
  | bound + 1, e => do
    match ← accept? [.leftParen] with
    | some _ =>
      let arguments ← self.readArguments
      let paren ← expect .argumentsClosing
      readSuffixes bound (.call e paren arguments)
    | none =>
      match ← accept? [.dot] with
      | some _ =>
        let name ← expect .propertyName
        readSuffixes bound (.get e name)
      | none => return e

def readCall : Reader Expr := do
  let e ← self.readPrimary
  if ← seesOneOf [.leftParen, .dot] then self.readSuffixes (← get).rest.length e else return e

def readSign : Reader Expr := do
  match ← accept? [.bang, .minus] with
  | some op => return .unary op (← self.sign)
  | none => self.readCall

def readProduct : Reader Expr := chain [.slash, .star, .percent] .binary self.readSign

def readSum : Reader Expr := chain [.minus, .plus] .binary self.readProduct

def readComparison : Reader Expr :=
  chain [.greater, .greaterEqual, .less, .lessEqual] .binary self.readSum

def readEquality : Reader Expr := chain [.bangEqual, .equalEqual] .binary self.readComparison

def readAnd : Reader Expr := chain [.andWord] .logical self.readEquality

def readOr : Reader Expr := chain [.orWord] .logical self.readAnd

def finishAssignment (target : Expr) (equals : Token) : Reader Expr := do
  let value ← self.ternary
  match target with
  | .ref name => return .assign name value equals.line
  | .get object name => return .set object name value equals.line
  | _ =>
    report equals .badAssignment
    return target

def readAssignment : Reader Expr := do
  let target ← self.readOr
  match ← accept? [.equal] with
  | some equals => self.finishAssignment target equals
  | none => return target

def finishConditional (condition : Expr) (mark : Token) : Reader Expr := do
  let yes ← self.expression
  let _ ← expect .elseColon
  let no ← self.ternary
  return .conditional condition mark yes no

def readTernary : Reader Expr := do
  match ← accept? [.funWord] with
  | some keyword => self.readLambda keyword
  | none =>
    let e ← self.readAssignment
    match ← accept? [.question] with
    | some mark => self.finishConditional e mark
    | none => return e

def readExpression : Reader Expr := chain [.comma] .comma self.readTernary

end Readers

end Lox
