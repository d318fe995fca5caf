import Lox.Store

/-! How running a program ends before its end, and the steps on the store that can end it. -/

namespace Lox

inductive Completion where
  | normal
  | returned (v : Value)
  | broke

/-- What only a program that was reported as wrong can run into. -/
inductive Defect where
  | escapedReturn (v : Value)
  | escapedBreak
  | breakFromBody
  | invalidStatement
  | invalidExpression
  | depthTooLarge
  | superUnresolved
  | superNotClass
  | receiverMissing

def Defect.message : Defect → String
  | escapedReturn v => "Returned(value=" ++ v.shown ++ ") escaped to top level"
  | escapedBreak => "Broke escaped to top level"
  | breakFromBody => "'break' escaped a function body"
  | invalidStatement => "invalid_stmt placeholder reached the evaluator"
  | invalidExpression => "invalid_expr placeholder reached the evaluator"
  | depthTooLarge => "resolver distance exceeds frame depth"
  | superUnresolved => "super"
  | superNotClass => ""
  | receiverMissing => "'this'"

inductive Abort where
  -- A fault of the program, which is reported.
  | failure (f : Failure)
  | defect (d : Defect)
  -- The remainder of an infinite number was asked for; nothing reports that.
  | noRemainder
  -- The program is nested deeper than the limit.
  | tooDeep
  -- A loop has taken more turns than the limit.
  | endless

def Abort.message : Abort → String
  | failure f => f.report
  | defect d => d.message
  | noRemainder => "math domain error"
  | tooDeep => "nested too deep"
  | endless => "too many turns"

def Abort.attach (t : Option Token) : Abort → Abort
  | failure f => failure (f.attach t)
  | e => e

abbrev Eval := EStateM Abort Store

namespace Eval

def defect {α : Type} (d : Defect) : Eval α := throw (.defect d)

def fail {α : Type} (fault : Fault) (t : Token) : Eval α := throw (.failure ⟨fault, some t⟩)

def located {α : Type} (t : Token) : Except Fault α → Eval α
  | .ok x => return x
  | .error fault => fail fault t

/-- Raises a fault away from any token. -/
def raising {α : Type} : Except Fault α → Eval α
  | .ok x => return x
  | .error fault => throw (.failure ⟨fault, none⟩)

/-- A failure that comes out without a token takes the first one of the node around it. -/
def attaching {α : Type} (first : Unit → Option Token) (act : Eval α) : Eval α := fun s =>
  match act s with
  | .error e s => .error (e.attach (first ())) s
  | result => result

def reportingDepth {α : Type} (t : Option Token) (act : Eval α) : Eval α := fun s =>
  match act s with
  | .error .tooDeep s => .error (.failure ⟨.stackOverflow, t⟩) s
  | result => result

def newFrame (f : Frame) : Eval FrameId := modifyGet (·.newFrame f)

def define (frame : FrameId) (name : String) (v : Value) : Eval Unit :=
  modify (·.assign frame name v)

def declare (frame : FrameId) (name : String) : Eval Unit :=
  modify (·.define frame name ⟨.nil, false⟩)

def bindArguments (frame : FrameId) : List Token → List Value → Eval Unit
  | param :: params, v :: args => do
    define frame param.lexeme v
    bindArguments frame params args
  | _, _ => return ()

def ancestor (frame : FrameId) (distance : Nat) : Eval FrameId := do
  match (← get).ancestor? frame distance with
  | some holder => return holder
  | none => defect .depthTooLarge

def readAt (frame : FrameId) (distance : Nat) (name : Token) : Eval Value := do
  let holder ← ancestor frame distance
  located name ((← get).readIn holder name.lexeme)

def assignAt (frame : FrameId) (distance : Nat) (name : Token) (v : Value) : Eval Unit := do
  let holder ← ancestor frame distance
  modify (·.assign holder name.lexeme v)

def readNearest (frame : FrameId) (name : Token) : Eval Value := do
  located name ((← get).readNearest frame name.lexeme)

def assignNearest (frame : FrameId) (name : Token) (v : Value) : Eval Unit := do
  match (← get).holder? frame name.lexeme with
  | some holder => modify (·.assign holder name.lexeme v)
  | none => fail (.undefinedVariable name.lexeme) name

def readName (frame : FrameId) (target : Reference) : Eval Value :=
  match target.depth with
  | some depth => readAt frame depth target.name
  | none => readNearest Store.globals target.name

def assignName (frame : FrameId) (target : Reference) (v : Value) : Eval Unit :=
  match target.depth with
  | some depth => assignAt frame depth target.name v
  | none => assignNearest Store.globals target.name v

def closure (f : Function) (frame : FrameId) (isInitializer : Bool) : Eval Closure := do
  return ⟨← modifyGet Store.newFunction, f, frame, isInitializer⟩

def newFields : Eval ObjectId := modifyGet Store.newFields

def newClass (name : String) (superclass metaclass : Option Class) (methods : Table Method) :
    Eval Class := do
  return .mk (← newFields) name superclass metaclass methods

def thisName : String := "this"

def superName : String := "super"

def bind (m : Method) (receiver : Value) : Eval Closure := do
  let frame ← newFrame (.empty m.frame)
  define frame thisName receiver
  closure m.function frame m.isInitializer

def receiver (f : Closure) : Eval Value := do
  match (← get).readIn f.frame thisName with
  | .ok v => return v
  | .error _ => defect .receiverMissing

def fields? : Value → Option ObjectId
  | .cls c => some c.id
  | .object o => some o.id
  | _ => none

def class? : Value → Option Class
  | .cls c => c.metaclass?
  | .object o => some o.cls
  | _ => none

def member? (name : String) (v : Value) : Option Method :=
  (class? v).bind (·.findMethod? name)

end Eval

end Lox
