namespace Lox

inductive Native where
  | clock | cons | empty | first | rest | length
  deriving Repr, DecidableEq

namespace Native

def all : List Native := [clock, cons, empty, first, rest, length]

def name : Native → String
  | clock => "clock"
  | cons => "cons"
  | empty => "empty"
  | first => "first"
  | rest => "rest"
  | length => "length"

def arity : Native → Nat
  | clock => 0
  | cons => 2
  | empty | first | rest | length => 1

def ofName? (name : String) : Option Native := all.find? fun native => native.name = name

end Native

end Lox
