import Lox.Scope
import Lox.Syntax

namespace Lox

inductive Routine where
  | topLevel
  | ordinary
  | initializer
  deriving Repr, DecidableEq

inductive Membership where
  | noClass
  | rootClass
  | subclass
  deriving Repr, DecidableEq

structure Surroundings where
  routine : Routine
  membership : Membership
  deriving Repr, DecidableEq

abbrev Resolver := StateM Scopes

namespace Resolver

def outermost : Surroundings := ⟨.topLevel, .noClass⟩

def report (t : Token) (problem : Problem) : Resolver Unit := modify fun s => s.report t problem

def find (target : Reference) (isRead : Bool) : Resolver Reference := do
  let s ← get
  let name := target.name.lexeme
  match s.depth? name with
  | some depth =>
    if isRead then set (s.markUsed depth name)
    return { target with depth := some depth }
  | none => return target

def readName (target : Reference) : Resolver Reference := do
  if let some b := (← get).innermost? target.name.lexeme then
    if !b.ready then report target.name .readInInitializer
  find target true

def readThis (around : Surroundings) (target : Reference) : Resolver Reference :=
  match around.membership with
  | .noClass => do
    report target.name .thisOutsideClass
    return target
  | _ => find target true

def readSuper (around : Surroundings) (target : Reference) : Resolver Reference :=
  match around.membership with
  | .noClass => do
    report target.name .superOutsideClass
    return target
  | .rootClass => do
    report target.name .superWithoutSuperclass
    return target
  | .subclass => find target true

def declareReady (name : Token) (tracked : Bool) : Resolver Unit :=
  modify fun s => (s.declare name tracked).define name

def declareParams : List Token → Resolver Unit
  | [] => return ()
  | param :: more => do
    declareReady param false
    declareParams more

def inScope {α : Type} (walk : Resolver α) : Resolver α := do
  modify Scopes.enter
  let x ← walk
  modify Scopes.leave
  return x

def checkReturn (around : Surroundings) (keyword : Token) (hasValue : Bool) : Resolver Unit := do
  if around.routine = .topLevel then report keyword .returnAtTopLevel
  if hasValue && around.routine = .initializer then report keyword .returnFromInitializer

def resolveSuperclass (name : Token) : Option Reference → Resolver (Option Reference)
  | none => return none
  | some parent => do
    if parent.name.lexeme = name.lexeme then report parent.name .inheritsItself
    return some (← readName parent)

def inMemberScopes {α : Type} (hasSuper : Bool) (walk : Resolver α) : Resolver α :=
  let members := inScope do
    modify (·.declareImplicit "this")
    walk
  if hasSuper then
    inScope do
      modify (·.declareImplicit "super")
      members
  else members

/-- Static members are ordinary; of the others an initializer is what has its name and parameters. -/
def memberRoutine (isStatic : Bool) (f : Function) : Routine :=
  if isStatic then .ordinary
  else if f.name = "init" && f.params.isSome then .initializer
  else .ordinary

mutual

def resolveExpr (around : Surroundings) : Expr → Resolver Expr
  | .literal token value => return .literal token value
  | .ref target => return .ref (← readName target)
  | .assign target value line => do
    let value ← resolveExpr around value
    return .assign (← find target false) value line
  | .get object name => return .get (← resolveExpr around object) name
  | .set object name value line => do
    let object ← resolveExpr around object
    return .set object name (← resolveExpr around value) line
  | .conditional condition mark yes no => do
    let condition ← resolveExpr around condition
    let yes ← resolveExpr around yes
    return .conditional condition mark yes (← resolveExpr around no)
  | .lambda function => return .lambda (← resolveFunction around .ordinary function)
  | .comma left op right => do
    let left ← resolveExpr around left
    return .comma left op (← resolveExpr around right)
  | .binary left op right => do
    let left ← resolveExpr around left
    return .binary left op (← resolveExpr around right)
  | .logical left op right => do
    let left ← resolveExpr around left
    return .logical left op (← resolveExpr around right)
  | .unary op operand => return .unary op (← resolveExpr around operand)
  | .call callee paren arguments => do
    let callee ← resolveExpr around callee
    return .call callee paren (← resolveExprs around arguments)
  | .this target => return .this (← readThis around target)
  | .super target method => return .super (← readSuper around target) method
  | .grouping paren inner => return .grouping paren (← resolveExpr around inner)
  | .list bracket elements => return .list bracket (← resolveExprs around elements)
  | .invalid token => return .invalid token

def resolveExprs (around : Surroundings) : List Expr → Resolver (List Expr)
  | [] => return []
  | e :: more => do
    let e ← resolveExpr around e
    return e :: (← resolveExprs around more)

def resolveStmt (around : Surroundings) : Stmt → Resolver Stmt
  | .expression line value => return .expression line (← resolveExpr around value)
  | .print keyword value => return .print keyword (← resolveExpr around value)
  | .var name none => do
    declareReady name true
    return .var name none
  | .var name (some init) => do
    modify (·.declare name true)
    let init ← resolveExpr around init
    modify (·.define name)
    return .var name (some init)
  | .block line body => return .block line (← inScope (resolveStmts around body))
  | .ifElse keyword condition yes none => do
    let condition ← resolveExpr around condition
    return .ifElse keyword condition (← resolveStmt around yes) none
  | .ifElse keyword condition yes (some no) => do
    let condition ← resolveExpr around condition
    let yes ← resolveStmt around yes
    return .ifElse keyword condition yes (some (← resolveStmt around no))
  | .whileLoop keyword condition body => do
    let condition ← resolveExpr around condition
    return .whileLoop keyword condition (← resolveStmt around body)
  | .breakLoop keyword => return .breakLoop keyword
  | .returnValue keyword none => do
    checkReturn around keyword false
    return .returnValue keyword none
  | .returnValue keyword (some value) => do
    checkReturn around keyword true
    return .returnValue keyword (some (← resolveExpr around value))
  | .function function => do
    declareReady function.head true
    return .function (← resolveFunction around .ordinary function)
  | .classDecl name superclass line methods statics => do
    declareReady name true
    let superclass ← resolveSuperclass name superclass
    let inside := { around with
      membership := if superclass.isSome then .subclass else .rootClass }
    let (methods, statics) ← inMemberScopes superclass.isSome do
      let methods ← resolveMembers inside false methods
      return (methods, ← resolveMembers inside true statics)
    return .classDecl name superclass line methods statics
  | .invalid token => return .invalid token

def resolveStmts (around : Surroundings) : List Stmt → Resolver (List Stmt)
  | [] => return []
  | s :: more => do
    let s ← resolveStmt around s
    return s :: (← resolveStmts around more)

def resolveFunction (around : Surroundings) (routine : Routine) : Function → Resolver Function
  | .mk head params line body => inScope do
    declareParams ((params.map Params.names).getD [])
    return .mk head params line (← resolveStmts { around with routine } body)

def resolveMembers (around : Surroundings) (isStatic : Bool) :
    List Function → Resolver (List Function)
  | [] => return []
  | f :: more => do
    let f ← resolveFunction around (memberRoutine isStatic f) f
    return f :: (← resolveMembers around isStatic more)

end

def program (body : List Stmt) : List Stmt × List Diagnostic :=
  let (body, s) := (resolveStmts outermost body).run .start
  (body, s.reportUnused.reports)

def expression (e : Expr) : Expr × List Diagnostic :=
  let (e, s) := (resolveExpr outermost e).run .start
  (e, s.reports)

end Resolver

end Lox
