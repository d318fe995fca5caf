import Lox.Grammar
import Lox.Syntax.Tree

/-! Parsing into numbered trees. Every node that is built takes the next number of a counter, also
a node that is dropped again; the counter is never set back. -/

namespace Lox

mutual

/-- A tree whose nodes have the numbers that they were built under. -/
inductive Numbered where
  | node (number : Nat) (label : String) (line : Nat) (children : List NumberedLeaf)

inductive NumberedLeaf where
  | tree (t : Numbered)
  | token (t : Token)
  | value (v : Literal)
  | absent

end

namespace Numbered

def number : Numbered → Nat
  | .node number _ _ _ => number

mutual

def subtrees : Numbered → List Numbered
  | .node number label line children => .node number label line children :: subtreesBelow children

def subtreesOfLeaf : NumberedLeaf → List Numbered
  | .tree t => t.subtrees
  | .token _ | .value _ | .absent => []

def subtreesBelow : List NumberedLeaf → List Numbered
  | [] => []
  | leaf :: more => subtreesOfLeaf leaf ++ subtreesBelow more

end

mutual

def plain (depths : Nat → Option Nat) : Numbered → Tree
  | .node number label line children =>
    .node label line (depths number) (plainBelow depths children)

def plainLeaf (depths : Nat → Option Nat) : NumberedLeaf → Leaf
  | .tree t => .tree (t.plain depths)
  | .token t => .token t
  | .value v => .value v
  | .absent => .absent

def plainBelow (depths : Nat → Option Nat) : List NumberedLeaf → List Leaf
  | [] => []
  | leaf :: more => plainLeaf depths leaf :: plainBelow depths more

end

def numbers (t : Numbered) : List Nat := t.subtrees.map number

def numbersBelow (leaves : List NumberedLeaf) : List Nat := (subtreesBelow leaves).map number

def bare (t : Numbered) : Tree := t.plain fun _ => none

def bareBelow (leaves : List NumberedLeaf) : List Leaf := plainBelow (fun _ => none) leaves

end Numbered

def NumberedLeaf.ofOption : Option Numbered → NumberedLeaf
  | some t => .tree t
  | none => .absent

structure Desk where
  cursor : Cursor
  next : Nat

abbrev Builder := EStateM Misread Desk

namespace Builder

variable {α : Type}

def reading (r : Reader α) : Builder α := fun d =>
  match r d.cursor with
  | .ok x cursor => .ok x { d with cursor }
  | .error e cursor => .error e { d with cursor }

instance : MonadLift Reader Builder := ⟨reading⟩

def node (label : String) (line : Nat) (children : List NumberedLeaf) : Builder Numbered :=
  modifyGet fun d => (.node d.next label line children, { d with next := d.next + 1 })

def orElse (builder recovery : Builder α) : Builder α := fun d =>
  match builder d with
  | .ok x d => .ok x d
  | .error _ d => recovery d

def collect (stop : Cursor → Bool) (item : Builder α) : Builder (List α) := do
  go (← get).cursor.rest.length
where
  go : Nat → Builder (List α)
    | 0 => return []
    | bound + 1 => do
      if stop (← get).cursor then return []
      else
        let x ← item
        let more ← go bound
        return x :: more

def checkCount (tooMany : Option Problem) (count : Nat) : Reader Unit :=
  match tooMany with
  | some problem =>
    if maxArguments ≤ count then do Reader.report (← Reader.look) problem else pure ()
  | none => pure ()

def commaList (tooMany : Option Problem) (item : Builder α) : Builder (List α) := do
  go ((← get).cursor.rest.length + 1) 0
where
  go : Nat → Nat → Builder (List α)
    | 0, _ => return []
    | bound + 1, count => do
      checkCount tooMany count
      let x ← item
      match ← Reader.accept? [.comma] with
      | some _ =>
        let more ← go bound (count + 1)
        return x :: more
      | none => return [x]

def chain (ops : List Kind) (label : String) (operand : Builder Numbered) : Builder Numbered := do
  let first ← operand
  if ← Reader.seesOneOf ops then go (← get).cursor.rest.length first else return first
where
  go : Nat → Numbered → Builder Numbered
    | 0, left => return left
    | bound + 1, left => do
      match ← Reader.accept? ops with
      | some op =>
        let right ← operand
        go bound (← node label op.line [.tree left, .token op, .tree right])
      | none => return left

def afterToken (kinds : List Kind) (builder : Builder α) : Builder (Option α) := do
  match ← Reader.accept? kinds with
  | some _ => some <$> builder
  | none => return none

def beforeToken (kind : Kind) (builder : Builder α) : Builder (Option α) := do
  if ← Reader.sees kind then return none else some <$> builder

end Builder

structure Builders where
  expression : Builder Numbered
  ternary : Builder Numbered
  equality : Builder Numbered
  comparison : Builder Numbered
  sum : Builder Numbered
  product : Builder Numbered
  sign : Builder Numbered
  statement : Bool → Builder Numbered
  declaration : Bool → Builder Numbered

namespace Builders

open Builder
open Reader hiding collect commaList chain orElse

variable (self : Builders)

def buildBlock (inLoop : Bool) : Builder (List Numbered) := do
  let body ← collect (fun c => c.sees .rightBrace || c.atEnd) (self.declaration inLoop)
  let _ ← expect .blockClosing
  return body

def buildParams (paren : Token) : Builder Numbered := do
  let params ← Readers.readParams paren
  node "params" params.line (params.names.map .token)

def buildBody (brace : Token) : Builder Numbered := do
  let body ← self.buildBlock false
  node "body" brace.line (body.map .tree)

def buildLambda (keyword : Token) : Builder Numbered := do
  let paren ← expect .lambdaParen
  let params ← buildParams paren
  let brace ← expect .lambdaBody
  let body ← self.buildBody brace
  node "lambda_expr" keyword.line [.token keyword, .tree params, .tree body]

def buildDeclaredParams (what : Declared) : Builder (Option Numbered) := do
  let atBody ← sees .leftBrace
  if what = .function || !atBody then
    let paren ← expect (.declaredParen what)
    some <$> buildParams paren
  else return none

def buildFunction (what : Declared) : Builder Numbered := do
  let name ← expect (.declaredName what)
  let params ← buildDeclaredParams what
  let brace ← expect (.declaredBody what)
  let body ← self.buildBody brace
  node "function" name.line [.token name, .ofOption params, .tree body]

def buildItems (closing : Kind) (tooMany : Option Problem) : Builder (List Numbered) := do
  if ← sees closing then return [] else commaList tooMany self.ternary

def buildList (bracket : Token) : Builder Numbered := do
  let elements ← self.buildItems .rightBracket none
  let _ ← expect .listClosing
  node "list" bracket.line (.token bracket :: elements.map .tree)

def buildGrouping (paren : Token) : Builder Numbered := do
  let inner ← self.expression
  let _ ← expect .groupClosing
  node "grouping" paren.line [.token paren, .tree inner]

def buildSuper (keyword : Token) : Builder Numbered := do
  let _ ← expect .superDot
  let method ← expect .superMethod
  node "super_expr" keyword.line [.token keyword, .token method]

def buildOrphan (op : Token) (operand : Builder Numbered) : Builder Numbered := do
  report op .noLeftOperand
  let _ ← operand
  let t ← look
  node "invalid_expr" t.line [.token t]

def buildPrimary : Builder Numbered := do
  let t ← look
  match t.literal? with
  | some value =>
    skip
    node "literal" t.line [.token t, .value value]
  | none =>
    match t.kind with
    | .thisWord =>
      skip
      node "this_expr" t.line [.token t]
    | .identifier =>
      skip
      node "variable" t.line [.token t]
    | .superWord =>
      skip
      buildSuper t
    | .leftParen =>
      skip
      self.buildGrouping t
    | .leftBracket =>
      skip
      self.buildList t
    | .bangEqual | .equalEqual =>
      skip
      buildOrphan t self.equality
    | .greater | .greaterEqual | .less | .lessEqual =>
      skip
      buildOrphan t self.comparison
    | .plus =>
      skip
      buildOrphan t self.sum
    | .slash | .star | .percent =>
      skip
      buildOrphan t self.product
    | _ => fail t .noExpression

def buildSuffixes : Nat → Numbered → Builder Numbered
  | 0, e => return e
  | bound + 1, e => do
    match ← accept? [.leftParen] with
    | some _ =>
      let items ← self.buildItems .rightParen (some .tooManyArguments)
      let paren ← expect .argumentsClosing
      let arguments ← node "arguments" paren.line (items.map .tree)
      buildSuffixes bound (← node "call" paren.line [.tree e, .token paren, .tree arguments])
    | none =>
      match ← accept? [.dot] with
      | some _ =>
        let name ← expect .propertyName
        buildSuffixes bound (← node "get" name.line [.tree e, .token name])
      | none => return e

def buildCall : Builder Numbered := do
  let e ← self.buildPrimary
  if ← seesOneOf [.leftParen, .dot] then self.buildSuffixes (← get).cursor.rest.length e
  else return e

def buildSign : Builder Numbered := do
  match ← accept? [.bang, .minus] with
  | some op =>
    let operand ← self.sign
    node "unary" op.line [.token op, .tree operand]
  | none => self.buildCall

def buildProduct : Builder Numbered := chain [.slash, .star, .percent] "binary" self.buildSign

def buildSum : Builder Numbered := chain [.minus, .plus] "binary" self.buildProduct

def buildComparison : Builder Numbered :=
  chain [.greater, .greaterEqual, .less, .lessEqual] "binary" self.buildSum

def buildEquality : Builder Numbered :=
  chain [.bangEqual, .equalEqual] "binary" self.buildComparison

def buildAnd : Builder Numbered := chain [.andWord] "logical" self.buildEquality

def buildOr : Builder Numbered := chain [.orWord] "logical" self.buildAnd

def finishAssignment (target : Numbered) (equals : Token) : Builder Numbered := do
  let value ← self.ternary
  match target with
  | .node _ label _ children =>
    if label = "variable" then
      node "assign" equals.line (children.take 1 ++ [.tree value])
    else if label = "get" then
      node "set" equals.line (children ++ [.tree value])
    else do
      report equals .badAssignment
      return target

def buildAssignment : Builder Numbered := do
  let target ← self.buildOr
  match ← accept? [.equal] with
  | some equals => self.finishAssignment target equals
  | none => return target

def finishConditional (condition : Numbered) (mark : Token) : Builder Numbered := do
  let yes ← self.expression
  let _ ← expect .elseColon
  let no ← self.ternary
  node "conditional" mark.line [.tree condition, .token mark, .tree yes, .tree no]

def buildTernary : Builder Numbered := do
  match ← accept? [.funWord] with
  | some keyword => self.buildLambda keyword
  | none =>
    let e ← self.buildAssignment
    match ← accept? [.question] with
    | some mark => self.finishConditional e mark
    | none => return e

def buildExpression : Builder Numbered := chain [.comma] "comma" self.buildTernary

def buildVar : Builder Numbered := do
  let name ← expect .variableName
  let init ← afterToken [.equal] self.buildExpression
  let _ ← expect .variableEnd
  node "var_decl" name.line [.token name, .ofOption init]

def buildExpressionStmt : Builder Numbered := do
  let start ← look
  let value ← self.buildExpression
  let _ ← expect .expressionEnd
  node "expression_stmt" start.line [.tree value]

def buildPrint (keyword : Token) : Builder Numbered := do
  let value ← self.buildExpression
  let _ ← expect .printEnd
  node "print_stmt" keyword.line [.token keyword, .tree value]

def buildReturn (keyword : Token) : Builder Numbered := do
  let value ← beforeToken .semicolon self.buildExpression
  let _ ← expect .returnEnd
  node "return_stmt" keyword.line [.token keyword, .ofOption value]

def buildBreak (inLoop : Bool) (keyword : Token) : Builder Numbered := do
  if !inLoop then report keyword .breakOutsideLoop
  let _ ← expect .breakEnd
  node "break_stmt" keyword.line [.token keyword]

def buildIf (inLoop : Bool) (keyword : Token) : Builder Numbered := do
  let _ ← expect .ifParen
  let condition ← self.buildExpression
  let _ ← expect .ifClosing
  let yes ← self.statement inLoop
  let no ← afterToken [.elseWord] (self.statement inLoop)
  node "if_stmt" keyword.line [.token keyword, .tree condition, .tree yes, .ofOption no]

def buildWhile (keyword : Token) : Builder Numbered := do
  let _ ← expect .whileParen
  let condition ← self.buildExpression
  let _ ← expect .whileClosing
  let body ← self.statement true
  node "while_stmt" keyword.line [.token keyword, .tree condition, .tree body]

def addStep (keyword : Token) (body : Numbered) : Option Numbered → Builder Numbered
  | some step => do
    let last ← node "expression_stmt" keyword.line [.tree step]
    node "block" keyword.line [.tree body, .tree last]
  | none => return body

def conditionOrTrue (keyword : Token) : Option Numbered → Builder Numbered
  | some condition => return condition
  | none =>
    node "literal" keyword.line
      [.token ⟨.trueWord, "true", keyword.line, 0⟩, .value (.bool true)]

def addInit (keyword : Token) (loop : Numbered) : Option Numbered → Builder Numbered
  | some first => node "block" keyword.line [.tree first, .tree loop]
  | none => return loop

def expandFor (keyword : Token) (init condition increment : Option Numbered) (body : Numbered) :
    Builder Numbered := do
  let body ← addStep keyword body increment
  let condition ← conditionOrTrue keyword condition
  let loop ← node "while_stmt" keyword.line [.token keyword, .tree condition, .tree body]
  addInit keyword loop init

def buildForInit : Builder (Option Numbered) := do
  match ← accept? [.semicolon] with
  | some _ => return none
  | none =>
    match ← accept? [.varWord] with
    | some _ => some <$> self.buildVar
    | none => some <$> self.buildExpressionStmt

def buildFor (keyword : Token) : Builder Numbered := do
  let _ ← expect .forParen
  let init ← self.buildForInit
  let condition ← beforeToken .semicolon self.buildExpression
  let _ ← expect .conditionEnd
  let increment ← beforeToken .rightParen self.buildExpression
  let _ ← expect .forClosing
  let body ← self.statement true
  expandFor keyword init condition increment body

def buildStatement (inLoop : Bool) : Builder Numbered := do
  let t ← look
  match t.kind with
  | .breakWord =>
    skip
    buildBreak inLoop t
  | .forWord =>
    skip
    self.buildFor t
  | .ifWord =>
    skip
    self.buildIf inLoop t
  | .leftBrace =>
    skip
    let body ← self.buildBlock inLoop
    node "block" t.line (body.map .tree)
  | .printWord =>
    skip
    self.buildPrint t
  | .returnWord =>
    skip
    self.buildReturn t
  | .whileWord =>
    skip
    self.buildWhile t
  | _ => self.buildExpressionStmt

def buildMember : Builder (Bool × Numbered) := do
  match ← accept? [.classWord] with
  | some _ =>
    let f ← self.buildFunction .staticMethod
    return (true, f)
  | none =>
    let f ← self.buildFunction .method
    return (false, f)

def buildSuperclass : Builder (Option Numbered) := do
  match ← accept? [.less] with
  | some _ =>
    let name ← expect .superclassName
    let parent ← node "variable" name.line [.token name]
    return some parent
  | none => return none

def leavesOf (isStatic : Bool) (members : List (Bool × Numbered)) : List NumberedLeaf :=
  members.filterMap fun m => if m.1 = isStatic then some (.tree m.2) else none

def buildClass : Builder Numbered := do
  let name ← expect .className
  let superclass ← buildSuperclass
  let brace ← expect .classOpening
  let members ← collect (fun c => c.sees .rightBrace || c.atEnd) self.buildMember
  let _ ← expect .classClosing
  let methods ← node "methods" brace.line (leavesOf false members)
  let statics ← node "static_methods" brace.line (leavesOf true members)
  node "class_decl" name.line
    [.token name, .ofOption superclass, .tree methods, .tree statics]

def buildDeclared (inLoop : Bool) : Builder Numbered := do
  match ← accept? [.classWord] with
  | some _ => self.buildClass
  | none =>
    if Readers.declaresFunction (← get).cursor then
      skip
      self.buildFunction .function
    else
      match ← accept? [.varWord] with
      | some _ => self.buildVar
      | none => self.buildStatement inLoop

def recover : Builder Numbered := do
  let t ← look
  (modify Cursor.skipStatement : Reader Unit)
  node "invalid_stmt" t.line [.token t]

def buildDeclaration (inLoop : Bool) : Builder Numbered :=
  orElse (self.buildDeclared inLoop) recover

def within (inner : Builders) : Builders where
  expression := inner.buildExpression
  ternary := inner.buildTernary
  equality := inner.buildEquality
  comparison := inner.buildComparison
  sum := inner.buildSum
  product := inner.buildProduct
  sign := inner.buildSign
  statement := inner.buildStatement
  declaration := inner.buildDeclaration

def noExpression : Builder Numbered := do
  let t ← look
  fail t .noExpression

def empty : Builders where
  expression := noExpression
  ternary := noExpression
  equality := noExpression
  comparison := noExpression
  sum := noExpression
  product := noExpression
  sign := noExpression
  statement := fun _ => noExpression
  declaration := fun _ => noExpression

def nested : Nat → Builders
  | 0 => empty
  | depth + 1 => within (nested depth)

end Builders

end Lox
