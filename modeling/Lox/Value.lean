import Lox.Native
import Lox.Number.Notation
import Lox.Syntax
import Lox.Table

/-! Values. What can change, the variables and the fields, lies in the store; functions, classes
and objects say where. -/

namespace Lox

abbrev FrameId := Nat

abbrev ObjectId := Nat

structure Closure where
  id : Nat
  function : Function
  frame : FrameId
  isInitializer : Bool

/-- A class member that has no receiver yet. -/
structure Method where
  function : Function
  frame : FrameId
  isInitializer : Bool

/-- A class is an object too, of its metaclass, which has the static members for its methods. Its
links are set when it is made, to classes that there are already, and never after. -/
inductive Class where
  | mk (id : ObjectId) (name : String) (superclass metaclass : Option Class)
      (methods : Table Method)

structure Object where
  id : ObjectId
  cls : Class

inductive Value where
  | nil
  | bool (b : Bool)
  | number (x : Float)
  | string (s : String)
  | list (items : List Value)
  | function (f : Closure)
  | native (f : Native)
  | cls (c : Class)
  | object (o : Object)

instance : Inhabited Value := ⟨.nil⟩

def Function.name? (f : Function) : Option String :=
  if f.head.kind = .funWord then none else some f.name

def Function.arity (f : Function) : Nat := f.paramNames.length

def Closure.text (f : Closure) : String :=
  match f.function.name? with
  | some name => "<fn " ++ name ++ ">"
  | none => "<lambda>"

namespace Class

def id : Class → ObjectId
  | mk id _ _ _ _ => id

def name : Class → String
  | mk _ name _ _ _ => name

def superclass? : Class → Option Class
  | mk _ _ superclass _ _ => superclass

def metaclass? : Class → Option Class
  | mk _ _ _ metaclass _ => metaclass

def methods : Class → Table Method
  | mk _ _ _ _ methods => methods

def findMethod? (name : String) : Class → Option Method
  | mk _ _ none _ methods => methods.find? name
  | mk _ _ (some parent) _ methods => (methods.find? name).or (parent.findMethod? name)

def initializer? (c : Class) : Option Method := c.findMethod? "init"

def arity (c : Class) : Nat := (c.initializer?.map fun m => m.function.arity).getD 0

end Class

def Object.text (o : Object) : String := o.cls.name ++ " instance"

namespace Value

def ofLiteral : Literal → Value
  | .nil => nil
  | .bool b => bool b
  | .number x => number x
  | .string s => string s

def typeName : Value → String
  | nil => "nil"
  | bool _ => "boolean"
  | number _ => "number"
  | string _ => "string"
  | list _ => "list"
  | function _ | native _ => "function"
  | cls _ => "class"
  | object _ => "instance"

def isTruthy : Value → Bool
  | nil => false
  | bool b => b
  | _ => true

def arity? : Value → Option Nat
  | function f => some f.function.arity
  | native f => some f.arity
  | cls c => some c.arity
  | _ => none

mutual

/-- Lists are equal if their items are; functions, classes and objects are equal to themselves. -/
def equals : Value → Value → Bool
  | nil, nil => true
  | bool a, bool b => a == b
  | number x, number y => x == y
  | string s, string t => s == t
  | list xs, list ys => equalItems xs ys
  | function f, function g => f.id == g.id
  | native f, native g => f == g
  | cls c, cls d => c.id == d.id
  | object o, object p => o.id == p.id
  | _, _ => false

def equalItems : List Value → List Value → Bool
  | [], [] => true
  | x :: xs, y :: ys => x.equals y && equalItems xs ys
  | _, _ => false

end

mutual

def write (quoting : Bool) : Value → String
  | nil => "nil"
  | bool true => "true"
  | bool false => "false"
  | number x => Number.text x
  | string s => if quoting then "\"" ++ s ++ "\"" else s
  | list items => "[" ++ String.intercalate ", " (writeItems quoting items) ++ "]"
  | function f => f.text
  | native _ => "<native fn>"
  | cls c => c.name
  | object o => o.text

def writeItems (quoting : Bool) : List Value → List String
  | [] => []
  | v :: more => v.write quoting :: writeItems quoting more

end

def text (v : Value) : String := v.write false

def shown (v : Value) : String := v.write true

mutual

def nestsWithin (levels : Nat) : Value → Bool
  | list items =>
    match levels with
    | 0 => false
    | levels + 1 => nestItemsWithin levels items
  | _ => true

def nestItemsWithin (levels : Nat) : List Value → Bool
  | [] => true
  | v :: more => v.nestsWithin levels && nestItemsWithin levels more

end

end Value

end Lox
