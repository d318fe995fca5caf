import Lox.Fault
import Lox.Value

/-! The store: what a running program can change, and what it has printed. Variables lie in frames
that are linked to the frames around them; every frame is younger than the one around it. -/

namespace Lox

structure Variable where
  value : Value
  -- A variable that is declared without a value cannot be read before it is assigned.
  assigned : Bool

structure Frame where
  parent : Option FrameId
  «variables» : Table Variable

namespace Frame

def empty (parent : FrameId) : Frame := ⟨some parent, .empty⟩

def root : Frame := ⟨none, ⟨Native.all.map fun native => (native.name, ⟨.native native, true⟩)⟩⟩

def define (f : Frame) (name : String) (x : Variable) : Frame :=
  { f with «variables» := f.variables.put name x }

def read (f : Frame) (name : String) : Except Fault Value :=
  match f.variables.find? name with
  | some x => if x.assigned then .ok x.value else .error (.unassignedVariable name)
  | none => .error (.undefinedVariable name)

end Frame

structure Store where
  frames : Array Frame
  -- The fields of the classes and objects made so far.
  fields : Array (Table Value)
  -- How many functions have been made.
  functions : Nat
  -- What the native clock answers.
  time : Float
  output : String

namespace Store

def globals : FrameId := 0

def initial (time : Float) : Store := ⟨#[Frame.root], #[], 0, time, ""⟩

def newFrame (s : Store) (f : Frame) : FrameId × Store :=
  (s.frames.size, { s with frames := s.frames.push f })

def parent? (s : Store) (id : FrameId) : Option FrameId := s.frames[id]?.bind Frame.parent

def ancestor? (s : Store) (id : FrameId) : Nat → Option FrameId
  | 0 => some id
  | distance + 1 => (s.parent? id).bind fun parent => s.ancestor? parent distance

def binds (s : Store) (id : FrameId) (name : String) : Bool :=
  match s.frames[id]? with
  | some f => f.variables.binds name
  | none => false

def holderWithin (s : Store) (name : String) : Nat → FrameId → Option FrameId
  | 0, _ => none
  | count + 1, id =>
    if s.binds id name then some id
    else (s.parent? id).bind (s.holderWithin name count)

/-- The nearest frame that binds a name. There are no more frames in a chain than are older than
its first. -/
def holder? (s : Store) (id : FrameId) (name : String) : Option FrameId :=
  s.holderWithin name (id + 1) id

def define (s : Store) (id : FrameId) (name : String) (x : Variable) : Store :=
  { s with frames := s.frames.modify id (·.define name x) }

def assign (s : Store) (id : FrameId) (name : String) (v : Value) : Store :=
  s.define id name ⟨v, true⟩

def readIn (s : Store) (id : FrameId) (name : String) : Except Fault Value :=
  match s.frames[id]? with
  | some f => f.read name
  | none => .error (.undefinedVariable name)

def readNearest (s : Store) (id : FrameId) (name : String) : Except Fault Value :=
  match s.holder? id name with
  | some holder => s.readIn holder name
  | none => .error (.undefinedVariable name)

def newFields (s : Store) : ObjectId × Store :=
  (s.fields.size, { s with fields := s.fields.push .empty })

def field? (s : Store) (id : ObjectId) (name : String) : Option Value :=
  s.fields[id]?.bind (·.find? name)

def setField (s : Store) (id : ObjectId) (name : String) (v : Value) : Store :=
  { s with fields := s.fields.modify id (·.put name v) }

def newFunction (s : Store) : Nat × Store := (s.functions, { s with functions := s.functions + 1 })

def printLine (s : Store) (text : String) : Store := { s with output := s.output ++ text ++ "\n" }

end Store

end Lox
