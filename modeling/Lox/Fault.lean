import Lox.Native
import Lox.Token

namespace Lox

inductive Fault where
  | operandNotNumber (op : String)
  | operandsNotNumbers (op : String)
  | operandsNotAddable (op : String)
  | unknownOperator (op : String)
  | unknownUnaryOperator (op : String)
  | divisionByZero
  | undefinedVariable (name : String)
  | unassignedVariable (name : String)
  | undefinedProperty (name : String)
  | notCallable
  | wrongCount (expected given : Nat)
  | noProperties
  | noFields
  | superclassNotClass
  | notList (native : Native) (typeName : String)
  | notSequence (native : Native) (typeName : String)
  | stackOverflow
  deriving Repr, DecidableEq

inductive FaultKind where
  | type | arity | name | zeroDivision | other
  deriving Repr, DecidableEq

namespace Fault

def kind : Fault → FaultKind
  | operandNotNumber _ | operandsNotNumbers _ | operandsNotAddable _ | notCallable | noProperties
  | noFields | superclassNotClass | notList _ _ | notSequence _ _ => .type
  | wrongCount _ _ => .arity
  | undefinedVariable _ | unassignedVariable _ | undefinedProperty _ => .name
  | divisionByZero => .zeroDivision
  | unknownOperator _ | unknownUnaryOperator _ | stackOverflow => .other

def message : Fault → String
  | operandNotNumber op => "Operand of '" ++ op ++ "' must be a number."
  | operandsNotNumbers op => "Operands of '" ++ op ++ "' must be numbers."
  | operandsNotAddable op => "Operands of '" ++ op ++ "' must be two numbers or two strings."
  | unknownOperator op => "Unknown operator '" ++ op ++ "'."
  | unknownUnaryOperator op => "Unknown unary operator '" ++ op ++ "'."
  | divisionByZero => "Division by zero."
  | undefinedVariable name => "Undefined variable '" ++ name ++ "'."
  | unassignedVariable name => "Unassigned variable '" ++ name ++ "'."
  | undefinedProperty name => "Undefined property '" ++ name ++ "'."
  | notCallable => "Can only call functions and classes."
  | wrongCount expected given =>
    "Expected " ++ toString expected ++ " arguments but got " ++ toString given ++ "."
  | noProperties => "Only instances have properties."
  | noFields => "Only instances have fields."
  | superclassNotClass => "Superclass must be a class."
  | notList native typeName => native.name ++ " expects a list; got " ++ typeName ++ "."
  | notSequence native typeName =>
    native.name ++ " expects a list or string; got " ++ typeName ++ "."
  | stackOverflow => "Stack overflow."

end Fault

structure Failure where
  fault : Fault
  token : Option Token
  deriving Repr, DecidableEq

namespace Failure

def line? (f : Failure) : Option Nat := f.token.map Token.line

/-- A failure that has no token yet is put down to the given one, if there is one. -/
def attach (t : Option Token) (f : Failure) : Failure := { f with token := f.token.or t }

def report (f : Failure) : String :=
  match f.line? with
  | some line => f.fault.message ++ "\n[line " ++ toString line ++ "]"
  | none => f.fault.message

end Failure

end Lox
