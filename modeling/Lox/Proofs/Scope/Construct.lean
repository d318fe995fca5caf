import Lox.Proofs.Scope.Walk

namespace Lox

inductive Body where
  | block
  | function
  | member (hasSuper isInitializer : Bool)

structure Enclosure where
  body : Body
  -- The names declared so far, parameters included.
  declared : List Token

/-- The bodies around a construct, innermost first. Outside of all of them names are global. -/
abbrev Trail := List Enclosure

def classScopes (hasSuper : Bool) : List (List Token) := if hasSuper then [[], []] else [[]]

namespace Body

def isInitializer? : Body → Option Bool
  | block => none
  | function => some false
  | member _ isInitializer => some isInitializer

def hasSuper? : Body → Option Bool
  | member hasSuper _ => some hasSuper
  | _ => none

def scopes : Body → List (List Token)
  | member hasSuper _ => classScopes hasSuper
  | _ => []

end Body

def Enclosure.scopes (e : Enclosure) : List (List Token) := e.declared :: e.body.scopes

namespace Trail

def isInitializer? (T : Trail) : Option Bool := T.findSome? fun e => e.body.isInitializer?

def hasSuper? (T : Trail) : Option Bool := T.findSome? fun e => e.body.hasSuper?

def scopes (T : Trail) : List (List Token) := T.flatMap Enclosure.scopes

def declares (T : Trail) (name : String) : Bool :=
  (T.head?.map Enclosure.declared).any fun ts => ts.any fun t => t.lexeme = name

def declare (ts : List Token) (T : Trail) : Trail :=
  T.modifyHead fun e => { e with declared := e.declared ++ ts }

lemma declare_append (T : Trail) (ts us : List Token) :
    (T.declare ts).declare us = T.declare (ts ++ us) := by
  cases T <;> simp [declare]

lemma declare_nil (T : Trail) : T.declare [] = T := by
  cases T <;> simp [declare]

end Trail

inductive Construct where
  -- A variable, a named function or a class.
  | declaration (name : Token)
  | parameter (name : Token)
  -- A use of a name that is no assignment. In the initializer of a variable, and in no scope of its
  -- own there, it may read a variable that is not ready.
  | read (target : Reference) (initializing : Option Token)
  | inherits (name parent : Token)
  | returned (keyword : Token) (hasValue : Bool)
  | this (keyword : Token)
  | super (keyword : Token)

structure Located where
  trail : Trail
  construct : Construct

def parametersOf (T : Trail) : List Token → List Located
  | [] => []
  | t :: ts => ⟨T, .parameter t⟩ :: parametersOf (T.declare [t]) ts

def inheritance (T : Trail) (name : Token) : Option Reference → List Located
  | none => []
  | some parent => [⟨T, .inherits name parent.name⟩, ⟨T, .read parent none⟩]

mutual

def Expr.constructs (T : Trail) (initializing : Option Token) : Expr → List Located
  | .literal _ _ => []
  | .ref target => [⟨T, .read target initializing⟩]
  | .assign _ value _ => value.constructs T initializing
  | .get object _ => object.constructs T initializing
  | .set object _ value _ => object.constructs T initializing ++ value.constructs T initializing
  | .conditional condition _ yes no =>
    condition.constructs T initializing ++
      (yes.constructs T initializing ++ no.constructs T initializing)
  | .lambda f => f.constructs T .function
  | .comma left _ right => left.constructs T initializing ++ right.constructs T initializing
  | .binary left _ right => left.constructs T initializing ++ right.constructs T initializing
  | .logical left _ right => left.constructs T initializing ++ right.constructs T initializing
  | .unary _ operand => operand.constructs T initializing
  | .call callee _ arguments =>
    callee.constructs T initializing ++ constructsOfExprs T initializing arguments
  | .this target => [⟨T, .this target.name⟩]
  | .super target _ => [⟨T, .super target.name⟩]
  | .grouping _ inner => inner.constructs T initializing
  | .list _ elements => constructsOfExprs T initializing elements
  | .invalid _ => []

def constructsOfExprs (T : Trail) (initializing : Option Token) : List Expr → List Located
  | [] => []
  | e :: es => e.constructs T initializing ++ constructsOfExprs T initializing es

def Stmt.constructs (T : Trail) : Stmt → List Located
  | .expression _ value => value.constructs T none
  | .print _ value => value.constructs T none
  | .var name none => [⟨T, .declaration name⟩]
  | .var name (some init) =>
    ⟨T, .declaration name⟩ :: init.constructs (T.declare [name]) (some name)
  | .block _ body => constructsOf (⟨.block, []⟩ :: T) body
  | .ifElse _ condition yes none => condition.constructs T none ++ yes.constructs T
  | .ifElse _ condition yes (some no) =>
    condition.constructs T none ++ (yes.constructs T ++ no.constructs T)
  | .whileLoop _ condition body => condition.constructs T none ++ body.constructs T
  | .breakLoop _ => []
  | .returnValue keyword none => [⟨T, .returned keyword false⟩]
  | .returnValue keyword (some value) => ⟨T, .returned keyword true⟩ :: value.constructs T none
  | .function f => ⟨T, .declaration f.head⟩ :: f.constructs (T.declare [f.head]) .function
  | .classDecl name superclass _ methods statics =>
    ⟨T, .declaration name⟩ :: (inheritance (T.declare [name]) name superclass ++
      (constructsOfMembers (T.declare [name]) superclass.isSome false methods ++
        constructsOfMembers (T.declare [name]) superclass.isSome true statics))
  | .invalid _ => []

def constructsOf (T : Trail) : List Stmt → List Located
  | [] => []
  | s :: body => s.constructs T ++ constructsOf (T.declare s.declared?.toList) body

def Function.constructs (T : Trail) (body : Body) : Function → List Located
  | .mk _ params _ stmts =>
    let names := (params.map Params.names).getD []
    parametersOf (⟨body, []⟩ :: T) names ++ constructsOf (⟨body, names⟩ :: T) stmts

def constructsOfMembers (T : Trail) (hasSuper isStatic : Bool) : List Function → List Located
  | [] => []
  | f :: fs =>
    f.constructs T (.member hasSuper (f.isInitializer isStatic)) ++
      constructsOfMembers T hasSuper isStatic fs

end

namespace Located

def reportIf (t : Token) (problem : Problem) (condition : Bool) : List Diagnostic :=
  if condition then [.atToken t problem] else []

/-- What is wrong with a construct in its place. -/
def errors (p : Located) : List Diagnostic :=
  match p.construct with
  | .declaration name | .parameter name =>
    reportIf name .declaredTwice (p.trail.declares name.lexeme)
  | .read target initializing =>
    reportIf target.name .readInInitializer
      (!p.trail.isEmpty && initializing.any fun t => t.lexeme = target.name.lexeme)
  | .inherits name parent => reportIf parent .inheritsItself (parent.lexeme = name.lexeme)
  | .returned keyword hasValue =>
    reportIf keyword .returnAtTopLevel (p.trail.isInitializer? = none) ++
      reportIf keyword .returnFromInitializer (hasValue && p.trail.isInitializer? = some true)
  | .this keyword => reportIf keyword .thisOutsideClass (p.trail.hasSuper? = none)
  | .super keyword =>
    reportIf keyword .superOutsideClass (p.trail.hasSuper? = none) ++
      reportIf keyword .superWithoutSuperclass (p.trail.hasSuper? = some false)

def declared? (p : Located) : Option Token :=
  match p.construct with
  | .declaration name | .parameter name => some name
  | _ => none

def local? (p : Located) : Option Token :=
  match p.construct with
  | .declaration name => if p.trail.isEmpty then none else some name
  | _ => none

def reads (t : Token) (p : Located) : Bool :=
  match p.construct with
  | .read target _ =>
    target.name.lexeme = t.lexeme &&
      target.depth.any fun depth => t ∈ p.trail.scopes.getD depth []
  | _ => false

end Located

def declaredBy (ps : List Located) : List Token := ps.filterMap Located.declared?

def localsOf (ps : List Located) : List Token := ps.filterMap Located.local?

def isRead (ps : List Located) (t : Token) : Bool := ps.any (Located.reads t)

end Lox
