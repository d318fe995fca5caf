import Lox.Scope.Resolve
import Lox.Syntax.Tree

/-! Visits to labelled trees. A visitor goes by the labels of nodes alone. Which scopes are open and
what it is inside of stands in a state of its own, which it changes on the way into a node and has
to change back on the way out; it breaks off where this state or a node is not as it expects. -/

namespace Lox

inductive Setting where
  | topLevel
  | named
  | lambda
  | method
  | initializer
  deriving Repr, DecidableEq

def Setting.routine : Setting → Routine
  | topLevel => .topLevel
  | named | lambda | method => .ordinary
  | initializer => .initializer

inductive Flaw where
  -- A name is marked as ready that the innermost scope does not declare.
  | undeclared (name : String)
  -- There is no scope to leave, or to declare something in.
  | noScope
  -- A declaration that nothing has read has no token to report.
  | nameless
  -- The children of a node are not those that go with its label.
  | misshapen (label : String)
  deriving Repr, DecidableEq

structure Progress where
  stack : List Scope
  reports : List Diagnostic
  -- The unread declarations of the scopes that have been left.
  unused : List Binding
  setting : Setting
  membership : Membership

def Scope.unread (s : Scope) : List Binding := s.values.filter fun b => b.tracked && !b.used

abbrev Visitor := EStateM Flaw Progress

namespace Visitor

variable {α : Type}

def start : Progress := ⟨[], [], [], .topLevel, .noClass⟩

def report (t : Token) (problem : Problem) : Visitor Unit :=
  modify fun v => { v with reports := v.reports ++ [.atToken t problem] }

def setSetting (setting : Setting) : Visitor Unit := modify fun v => { v with setting }

def setMembership (membership : Membership) : Visitor Unit := modify fun v => { v with membership }

def enter : Visitor Unit := modify fun v => { v with stack := .empty :: v.stack }

def leave : Visitor Unit := do
  match (← get).stack with
  | [] => throw .noScope
  | scope :: outer =>
    modify fun v => { v with stack := outer, unused := v.unused ++ Scope.unread scope }

def changeInnermost (f : Scope → Scope) : Visitor Unit :=
  modify fun v => { v with stack := v.stack.modifyHead f }

def declare (name : Token) (tracked : Bool) : Visitor Unit := do
  match (← get).stack with
  | [] => return ()
  | scope :: _ =>
    if scope.binds name.lexeme then report name .declaredTwice
    changeInnermost (·.put name.lexeme ⟨some name, false, false, tracked⟩)

def define (name : Token) : Visitor Unit := do
  match (← get).stack with
  | [] => return ()
  | scope :: _ =>
    if scope.binds name.lexeme then
      changeInnermost (·.update name.lexeme fun b => { b with ready := true })
    else throw (.undeclared name.lexeme)

def declareReady (name : Token) (tracked : Bool) : Visitor Unit := do
  declare name tracked
  define name

def declareParams : List Token → Visitor Unit
  | [] => return ()
  | param :: more => do
    declareReady param false
    declareParams more

def declareImplicit (name : String) : Visitor Unit := do
  match (← get).stack with
  | [] => throw .noScope
  | _ :: _ => changeInnermost (·.put name ⟨none, true, false, false⟩)

def inScope (visit : Visitor α) : Visitor α := do
  enter
  let x ← visit
  leave
  return x

def inImplicit (name : String) (visit : Visitor α) : Visitor α :=
  inScope do
    declareImplicit name
    visit

def inMemberScopes (hasSuper : Bool) (visit : Visitor α) : Visitor α :=
  if hasSuper then inImplicit "super" (inImplicit "this" visit) else inImplicit "this" visit

def inFunction (setting : Setting) (visit : Visitor α) : Visitor α := do
  let enclosing := (← get).setting
  setSetting setting
  let x ← inScope visit
  setSetting enclosing
  return x

def inClass (visit : Visitor α) : Visitor α := do
  let enclosing := (← get).membership
  setMembership .rootClass
  let x ← visit
  setMembership enclosing
  return x

def find (target : Reference) (isRead : Bool) : Visitor (Option Nat) := do
  let name := target.name.lexeme
  match (← get).stack.findIdx? (·.binds name) with
  | some depth =>
    if isRead then
      modify fun v =>
        { v with stack := v.stack.modify depth (·.update name fun b => { b with used := true }) }
    return some depth
  | none => return target.depth

def readName (target : Reference) : Visitor (Option Nat) := do
  match (← get).stack.head?.bind (·.find? target.name.lexeme) with
  | some b => if !b.ready then report target.name .readInInitializer
  | none => pure ()
  find target true

def readThis (target : Reference) : Visitor (Option Nat) := do
  match (← get).membership with
  | .noClass =>
    report target.name .thisOutsideClass
    return target.depth
  | .rootClass | .subclass => find target true

def readSuper (target : Reference) : Visitor (Option Nat) := do
  match (← get).membership with
  | .noClass =>
    report target.name .superOutsideClass
    return target.depth
  | .rootClass =>
    report target.name .superWithoutSuperclass
    return target.depth
  | .subclass => find target true

def checkReturn (keyword : Token) (hasValue : Bool) : Visitor Unit := do
  if (← get).setting = .topLevel then report keyword .returnAtTopLevel
  if hasValue then
    if (← get).setting = .initializer then report keyword .returnFromInitializer

def headToken (label : String) : List Leaf → Visitor Token
  | .token t :: _ => return t
  | _ => throw (.misshapen label)

def tokens (label : String) : List Leaf → Visitor (List Token)
  | [] => return []
  | .token t :: more => return t :: (← tokens label more)
  | _ :: _ => throw (.misshapen label)

def isPresent : Leaf → Bool
  | .absent => false
  | _ => true

def parameters : Leaf → Visitor (List Token)
  | .absent => return []
  | .tree (.node label _ _ names) => tokens label names
  | _ => throw (.misshapen "params")

def memberSetting (isStatic : Bool) : List Leaf → Setting
  | .token name :: params :: _ =>
    if !isStatic && name.lexeme = "init" && isPresent params then .initializer else .method
  | _ => .method

/-- What a visitor does at a node. -/
inductive Rule where
  | block | varDecl | function | returnStmt | classDecl | variable | assign | lambda | this | super
  | placeholder

def rule? : String → Option Rule
  | "block" => some .block
  | "var_decl" => some .varDecl
  | "function" => some .function
  | "return_stmt" => some .returnStmt
  | "class_decl" => some .classDecl
  | "variable" => some .variable
  | "assign" => some .assign
  | "lambda_expr" => some .lambda
  | "this_expr" => some .this
  | "super_expr" => some .super
  | "invalid_stmt" | "invalid_expr" => some .placeholder
  | _ => none

mutual

def visit : Tree → Visitor Tree
  | .node label line depth children => do
    match rule? label with
    | none => return .node label line depth (← visitChildren children)
    | some .placeholder => return .node label line depth children
    | some .block => return .node label line depth (← inScope (visitChildren children))
    | some .variable =>
      let name ← headToken label children
      return .node label line (← readName ⟨name, depth⟩) children
    | some .this =>
      let keyword ← headToken label children
      return .node label line (← readThis ⟨keyword, depth⟩) children
    | some .super =>
      let keyword ← headToken label children
      return .node label line (← readSuper ⟨keyword, depth⟩) children
    | some .assign =>
      match children with
      | [.token name, value] =>
        let value ← visitOperand label value
        return .node label line (← find ⟨name, depth⟩ false) [.token name, value]
      | _ => throw (.misshapen label)
    | some .varDecl =>
      match children with
      | [.token name, .absent] =>
        declareReady name true
        return .node label line depth [.token name, .absent]
      | [.token name, init] =>
        declare name true
        let init ← visitOperand label init
        define name
        return .node label line depth [.token name, init]
      | _ => throw (.misshapen label)
    | some .returnStmt =>
      match children with
      | [.token keyword, .absent] =>
        checkReturn keyword false
        return .node label line depth [.token keyword, .absent]
      | [.token keyword, value] =>
        checkReturn keyword true
        return .node label line depth [.token keyword, ← visitOperand label value]
      | _ => throw (.misshapen label)
    | some .lambda => return .node label line depth (← visitFunction label .lambda children)
    | some .function =>
      declareReady (← headToken label children) true
      return .node label line depth (← visitFunction label .named children)
    | some .classDecl =>
      match children with
      | [.token name, parent, .tree (.node l₁ n₁ d₁ methods), .tree (.node l₂ n₂ d₂ statics)] =>
        inClass do
          declareReady name true
          let visited ← visitSuperclass label name parent
          let (methods, statics) ← inMemberScopes (isPresent parent) do
            let methods ← visitMembers label false methods
            return (methods, ← visitMembers label true statics)
          return .node label line depth
            [.token name, visited, .tree (.node l₁ n₁ d₁ methods), .tree (.node l₂ n₂ d₂ statics)]
      | _ => throw (.misshapen label)

def visitChildren : List Leaf → Visitor (List Leaf)
  | [] => return []
  | .tree t :: more => do
    let t ← visit t
    return .tree t :: (← visitChildren more)
  | leaf :: more => return leaf :: (← visitChildren more)

def visitOperand (label : String) : Leaf → Visitor Leaf
  | .tree t => return .tree (← visit t)
  | _ => throw (.misshapen label)

def visitStatements (label : String) : List Leaf → Visitor (List Leaf)
  | [] => return []
  | statement :: more => do
    let statement ← visitOperand label statement
    return statement :: (← visitStatements label more)

def visitFunction (label : String) (setting : Setting) : List Leaf → Visitor (List Leaf)
  | [head, params, .tree (.node bodyLabel line depth body)] => do
    let names ← parameters params
    inFunction setting do
      declareParams names
      let body ← visitStatements bodyLabel body
      return [head, params, .tree (.node bodyLabel line depth body)]
  | _ => throw (.misshapen label)

def visitMembers (label : String) (isStatic : Bool) : List Leaf → Visitor (List Leaf)
  | [] => return []
  | .tree (.node memberLabel line depth children) :: more => do
    let children ← visitFunction memberLabel (memberSetting isStatic children) children
    return .tree (.node memberLabel line depth children) :: (← visitMembers label isStatic more)
  | _ :: _ => throw (.misshapen label)

def visitSuperclass (label : String) (name : Token) : Leaf → Visitor Leaf
  | .absent => return .absent
  | .tree (.node parentLabel line depth children) => do
    let parent ← headToken parentLabel children
    if parent.lexeme = name.lexeme then report parent .inheritsItself
    setMembership .subclass
    return .tree (← visit (.node parentLabel line depth children))
  | _ => throw (.misshapen label)

end

def unreadTokens : List Binding → Visitor (List Token)
  | [] => return []
  | b :: more =>
    match b.token with
    | some t => return t :: (← unreadTokens more)
    | none => throw .nameless

def reportUnused : Visitor Unit := do
  let unread ← unreadTokens (← get).unused
  let warnings := (unread.mergeSort Scopes.before).map fun t => .atToken t (.unusedLocal t.lexeme)
  modify fun v => { v with reports := v.reports ++ warnings, unused := [] }

def visitProgram (body : List Tree) : Visitor (List Tree) := do
  let body ← body.mapM visit
  reportUnused
  return body

end Visitor

end Lox
