import Lox.Number.Binary

/-! The shortest decimal that reads back as a given number: of all decimals in the interval of
reals that round to the number, one with the fewest digits, and of those the nearest. -/

namespace Lox.Number

structure Ratio where
  num : Nat
  den : Nat

namespace Ratio

def le (a b : Ratio) : Bool := decide (a.num * b.den ≤ b.num * a.den)

def lt (a b : Ratio) : Bool := decide (a.num * b.den < b.num * a.den)

def gap (a b : Ratio) : Ratio :=
  ⟨(a.num * b.den - b.num * a.den) + (b.num * a.den - a.num * b.den), a.den * b.den⟩

def scaled (n : Nat) (base : Nat) (exponent : Int) : Ratio :=
  if 0 ≤ exponent then ⟨n * Nat.pow base exponent.toNat, 1⟩
  else ⟨n, Nat.pow base (-exponent).toNat⟩

end Ratio

structure Decimal where
  digits : Nat
  exponent : Int
  deriving Repr, DecidableEq

def Decimal.value (d : Decimal) : Ratio := Ratio.scaled d.digits 10 d.exponent

/-- The reals that round to one number; its ends belong to it when the mantissa is even. -/
structure Interval where
  low : Ratio
  high : Ratio
  closed : Bool

namespace Interval

def around (mantissa : Nat) (exponent : Int) : Interval where
  low :=
    if mantissa = Binary.hidden && decide (Binary.minExponent < exponent) then
      Ratio.scaled (4 * mantissa - 1) 2 (exponent - 2)
    else Ratio.scaled (2 * mantissa - 1) 2 (exponent - 1)
  high := Ratio.scaled (2 * mantissa + 1) 2 (exponent - 1)
  closed := mantissa % 2 = 0

def holds (i : Interval) (x : Ratio) : Bool :=
  if i.closed then i.low.le x && x.le i.high else i.low.lt x && x.lt i.high

end Interval

def width (n : Nat) : Nat := (Nat.toDigits 10 n).length

def magnitude (x : Ratio) : Int :=
  if x.den ≤ x.num then width (x.num / x.den) - 1
  else
    let places := width (x.den / x.num)
    if x.den ≤ x.num * Nat.pow 10 (places - 1) then 1 - (places : Int) else -(places : Int)

def neighbours (x : Ratio) (exponent : Int) : Decimal × Decimal :=
  let below :=
    if 0 ≤ exponent then x.num / (x.den * Nat.pow 10 exponent.toNat)
    else x.num * Nat.pow 10 (-exponent).toNat / x.den
  (⟨below, exponent⟩, ⟨below + 1, exponent⟩)

def nearer (x : Ratio) (a b : Decimal) : Decimal :=
  let toA := x.gap a.value
  let toB := x.gap b.value
  if toA.lt toB then a
  else if toB.lt toA then b
  else if a.digits % 2 = 0 then a else b

def onGrid? (x : Ratio) (i : Interval) (exponent : Int) : Option Decimal :=
  let (a, b) := neighbours x exponent
  match i.holds a.value, i.holds b.value with
  | true, true => some (nearer x a b)
  | true, false => some a
  | false, true => some b
  | false, false => none

def shortest (mantissa : Nat) (exponent : Int) : Decimal :=
  let x := Ratio.scaled mantissa 2 exponent
  let i := Interval.around mantissa exponent
  let top := magnitude x
  let grid (count : Nat) : Int := top + 1 - count
  match (List.range 16).findSome? fun n => onGrid? x i (grid (n + 1)) with
  | some d => d
  | none => nearer x (neighbours x (grid 17)).1 (neighbours x (grid 17)).2

end Lox.Number
