import Lox.Eval.Abort
import Lox.Value.Apply

/-! Evaluators: one step of evaluation, given how to evaluate what stands inside. -/

namespace Lox

/-- How to evaluate what stands inside, and how much room there is for it. -/
structure Evaluator where
  eval : FrameId → Expr → Eval Value
  exec : FrameId → Stmt → Eval Completion
  -- How many levels deep things may still be nested.
  levels : Nat
  -- How many turns a loop may take.
  turns : Nat

namespace Evaluator

/-- Goes on only if a value is not nested too deep to be walked through. -/
def guardDepth (inner : Evaluator) (v : Value) : Eval Unit :=
  if v.nestsWithin inner.levels then return () else throw .tooDeep

def evalAll (inner : Evaluator) (frame : FrameId) : List Expr → Eval (List Value)
  | [] => return []
  | e :: more => do
    let v ← inner.eval frame e
    return v :: (← inner.evalAll frame more)

def execAll (inner : Evaluator) (frame : FrameId) : List Stmt → Eval Completion
  | [] => return .normal
  | s :: more => do
    match ← inner.exec frame s with
    | .normal => inner.execAll frame more
    | outcome => return outcome

/-- A function runs in a frame of its own inside the one it was declared in. An initializer always
gives its receiver. -/
def invoke (inner : Evaluator) (f : Closure) (args : List Value) : Eval Value := do
  let frame ← Eval.newFrame (.empty f.frame)
  Eval.bindArguments frame f.function.paramNames args
  let outcome ← inner.execAll frame f.function.body
  if f.isInitializer then Eval.receiver f
  else
    match outcome with
    | .normal => return .nil
    | .returned v => return v
    | .broke => Eval.defect .breakFromBody

def instantiate (inner : Evaluator) (c : Class) (args : List Value) : Eval Value := do
  let object := Value.object ⟨← Eval.newFields, c⟩
  if let some m := c.initializer? then
    let _ ← inner.invoke (← Eval.bind m object) args
  return object

def access (inner : Evaluator) (m : Method) (receiver : Value) : Eval Value := do
  let f ← Eval.bind m receiver
  if f.function.isGetter then inner.invoke f [] else return .function f

/-- A native function knows no tokens: its faults find one on their way outward. -/
def callValue (inner : Evaluator) (paren : Token) (callee : Value) (args : List Value) :
    Eval Value :=
  match callee.arity? with
  | none => Eval.fail .notCallable paren
  | some expected =>
    if args.length ≠ expected then Eval.fail (.wrongCount expected args.length) paren
    else
      match callee with
      | .function f => inner.invoke f args
      | .cls c => inner.instantiate c args
      | .native f => do Eval.raising (f.apply (← get).time args)
      | _ => Eval.fail .notCallable paren

def readProperty (inner : Evaluator) (object : Value) (name : Token) : Eval Value :=
  match Eval.fields? object with
  | none => Eval.fail .noProperties name
  | some id => do
    match (← get).field? id name.lexeme with
    | some v => return v
    | none =>
      match Eval.member? name.lexeme object with
      | some m => inner.access m object
      | none => Eval.fail (.undefinedProperty name.lexeme) name

def assignProperty (object : Value) (name : Token) (v : Value) : Eval Value :=
  match Eval.fields? object with
  | none => Eval.fail .noFields name
  | some id => do
    modify (·.setField id name.lexeme v)
    return v

/-- The frame of `this` stands directly inside the frame of `super`. In a static member `this` is
a class, and so the methods of the metaclass of the superclass are meant. -/
def readSuper (inner : Evaluator) (frame : FrameId) (target : Reference) (method : Token) :
    Eval Value :=
  match target.depth with
  | none => Eval.defect .superUnresolved
  | some depth => do
    let superclass ← Eval.readAt frame depth target.name
    let object ← Eval.readAt frame (depth - 1)
      { target.name with kind := .thisWord, lexeme := Eval.thisName }
    match superclass with
    | .cls parent =>
      let owner :=
        match object with
        | .cls _ => parent.metaclass?
        | _ => some parent
      match owner.bind (·.findMethod? method.lexeme) with
      | some m => inner.access m object
      | none => Eval.fail (.undefinedProperty method.lexeme) method
    | _ => Eval.defect .superNotClass

def applyBinary (inner : Evaluator) (op : Token) (a b : Value) : Eval Value := do
  if op.kind = .equalEqual || op.kind = .bangEqual then
    if !b.nestsWithin inner.levels then inner.guardDepth a
  match ← Eval.located op (a.binary op b) with
  | some v => return v
  | none => throw .noRemainder

def evalNode (inner : Evaluator) (frame : FrameId) : Expr → Eval Value
  | .literal _ value => return .ofLiteral value
  | .ref target => Eval.readName frame target
  | .assign target value _ => do
    let v ← inner.eval frame value
    Eval.assignName frame target v
    return v
  | .get object name => do inner.readProperty (← inner.eval frame object) name
  | .set object name value _ => do
    let object ← inner.eval frame object
    let v ← inner.eval frame value
    assignProperty object name v
  | .conditional condition _ yes no => do
    if (← inner.eval frame condition).isTruthy then inner.eval frame yes else inner.eval frame no
  | .lambda function => return .function (← Eval.closure function frame false)
  | .comma left _ right => do
    let _ ← inner.eval frame left
    inner.eval frame right
  | .binary left op right => do
    let a ← inner.eval frame left
    let b ← inner.eval frame right
    inner.applyBinary op a b
  | .logical left op right => do
    let v ← inner.eval frame left
    if v.isTruthy = (op.kind = .orWord) then return v else inner.eval frame right
  | .unary op operand => do Eval.located op ((← inner.eval frame operand).unary op)
  | .call callee paren arguments => do
    let f ← inner.eval frame callee
    let args ← inner.evalAll frame arguments
    inner.callValue paren f args
  | .this target => Eval.readName frame target
  | .super target method => inner.readSuper frame target method
  | .grouping _ content => inner.eval frame content
  | .list _ elements => return .list (← inner.evalAll frame elements)
  | .invalid _ => Eval.defect .invalidExpression

def loop (condition : Eval Bool) (body : Eval Completion) : Nat → Eval Completion
  | 0 => throw .endless
  | turns + 1 => do
    if ← condition then
      match ← body with
      | .normal => loop condition body turns
      | .broke => return .normal
      | .returned v => return .returned v
    else return .normal

def memberTable (frame : FrameId) (isStatic : Bool) (members : List Function) : Table Method :=
  members.foldl (fun t f => t.put f.name ⟨f, frame, f.isInitializer isStatic⟩) .empty

def superclass (frame : FrameId) : Option Reference → Eval (Option Class)
  | none => return none
  | some target => do
    match ← Eval.readName frame target with
    | .cls c => return some c
    | _ => Eval.fail .superclassNotClass target.name

def memberFrame (frame : FrameId) : Option Class → Eval FrameId
  | none => return frame
  | some parent => do
    let inside ← Eval.newFrame (.empty frame)
    Eval.define inside Eval.superName (.cls parent)
    return inside

/-- The metaclass of a class extends the metaclass of its superclass, and so static members are
inherited. -/
def declareClass (frame : FrameId) (name : Token) (target : Option Reference)
    (methods statics : List Function) : Eval Unit := do
  let parent ← superclass frame target
  let inside ← memberFrame frame parent
  let metaclass ← Eval.newClass (name.lexeme ++ " metaclass") (parent.bind Class.metaclass?) none
    (memberTable inside true statics)
  let c ← Eval.newClass name.lexeme parent (some metaclass) (memberTable inside false methods)
  Eval.define frame name.lexeme (.cls c)

def execStmt (inner : Evaluator) (frame : FrameId) : Stmt → Eval Completion
  | .expression _ value => do
    let _ ← inner.eval frame value
    return .normal
  | .print _ value => do
    let v ← inner.eval frame value
    inner.guardDepth v
    modify (·.printLine v.text)
    return .normal
  | .var name none => do
    Eval.declare frame name.lexeme
    return .normal
  | .var name (some init) => do
    Eval.define frame name.lexeme (← inner.eval frame init)
    return .normal
  | .block _ body => do inner.execAll (← Eval.newFrame (.empty frame)) body
  | .ifElse _ condition yes no => do
    if (← inner.eval frame condition).isTruthy then inner.exec frame yes
    else
      match no with
      | some no => inner.exec frame no
      | none => return .normal
  | .whileLoop _ condition body =>
    loop (Value.isTruthy <$> inner.eval frame condition) (inner.exec frame body) inner.turns
  | .breakLoop _ => return .broke
  | .returnValue _ none => return .returned .nil
  | .returnValue _ (some value) => return .returned (← inner.eval frame value)
  | .function function => do
    Eval.define frame function.name (.function (← Eval.closure function frame false))
    return .normal
  | .classDecl name superclass _ methods statics => do
    declareClass frame name superclass methods statics
    return .normal
  | .invalid _ => Eval.defect .invalidStatement

end Evaluator

end Lox
