import Lox.Fault
import Lox.Number.Remainder
import Lox.Value

/-! What operators and native functions make of values. An operator has no value at all for one
pair of operands: a division of infinity has no remainder. -/

namespace Lox

namespace Value

def ofNumbers (op : Token) (x y : Float) : Except Fault (Option Value) :=
  match op.kind with
  | .minus => .ok (some (.number (x - y)))
  | .star => .ok (some (.number (x * y)))
  | .slash => if y == 0 then .error .divisionByZero else .ok (some (.number (x / y)))
  | .percent =>
    if y == 0 then .error .divisionByZero else .ok ((Number.remainder? x y).map Value.number)
  | .greater => .ok (some (.bool (x > y)))
  | .greaterEqual => .ok (some (.bool (x ≥ y)))
  | .less => .ok (some (.bool (x < y)))
  | .lessEqual => .ok (some (.bool (x ≤ y)))
  | _ => .error (.unknownOperator op.lexeme)

def add (op : Token) : Value → Value → Except Fault (Option Value)
  | number x, number y => .ok (some (.number (x + y)))
  | string s, string t => .ok (some (.string (s ++ t)))
  | _, _ => .error (.operandsNotAddable op.lexeme)

def binary (op : Token) (a b : Value) : Except Fault (Option Value) :=
  match op.kind with
  | .equalEqual => .ok (some (.bool (a.equals b)))
  | .bangEqual => .ok (some (.bool (!a.equals b)))
  | .plus => a.add op b
  | _ =>
    match a, b with
    | number x, number y => ofNumbers op x y
    | _, _ => .error (.operandsNotNumbers op.lexeme)

def unary (op : Token) (v : Value) : Except Fault Value :=
  match op.kind with
  | .minus =>
    match v with
    | number x => .ok (.number (-x))
    | _ => .error (.operandNotNumber op.lexeme)
  | .bang => .ok (.bool (!v.isTruthy))
  | _ => .error (.unknownUnaryOperator op.lexeme)

end Value

namespace Native

def ofSequence (native : Native) (ofItems : List Value → Value) (ofChars : List Char → Value) :
    Value → Except Fault Value
  | .list items => .ok (ofItems items)
  | .string s => .ok (ofChars s.toList)
  | v => .error (.notSequence native v.typeName)

def ofChar (c : Char) : Value := .string (String.singleton c)

def apply (time : Float) (native : Native) (args : List Value) : Except Fault Value :=
  let arg := args.head?.getD .nil
  match native with
  | clock => .ok (.number time)
  | cons =>
    match args[1]?.getD .nil with
    | .list items => .ok (.list (arg :: items))
    | v => .error (.notList cons v.typeName)
  | empty => ofSequence empty (fun vs => .bool vs.isEmpty) (fun cs => .bool cs.isEmpty) arg
  | first =>
    ofSequence first (fun vs => vs.head?.getD .nil) (fun cs => (cs.head?.map ofChar).getD .nil) arg
  | rest =>
    ofSequence rest (fun vs => .list (vs.drop 1)) (fun cs => .string (String.ofList (cs.drop 1))) arg
  | length =>
    ofSequence length (fun vs => .number (Float.ofNat vs.length))
      (fun cs => .number (Float.ofNat cs.length)) arg

end Native

end Lox
