namespace Lox.Number

inductive Binary where
  | nan
  | infinite (negative : Bool)
  -- The number with magnitude `mantissa * 2 ^ exponent`.
  | finite (negative : Bool) (mantissa : Nat) (exponent : Int)
  deriving Repr, DecidableEq

namespace Binary

def minExponent : Int := -1074

def hidden : Nat := Nat.pow 2 52

def ofFloat (x : Float) : Binary :=
  let bits := x.toBits.toNat
  let negative := decide (bits / Nat.pow 2 63 = 1)
  let biased : Nat := bits / hidden % Nat.pow 2 11
  let fraction : Nat := bits % hidden
  if biased = 2047 then
    if fraction = 0 then infinite negative else nan
  else if biased = 0 then finite negative fraction minExponent
  else finite negative (fraction + hidden) ((biased : Int) + minExponent - 1)

def normalize (mantissa room : Nat) : Nat × Nat :=
  let shift := min (52 - mantissa.log2) room
  (mantissa * Nat.pow 2 shift, room - shift)

def assemble (negative : Bool) (mantissa : Nat) (exponent : Int) : Float :=
  let (m, room) := normalize mantissa (exponent - minExponent).toNat
  let magnitude := if m < hidden then m else room * hidden + m
  let sign := if negative then Nat.pow 2 63 else 0
  Float.ofBits (UInt64.ofNat (sign + magnitude))

def whole? : Binary → Option Nat
  | finite _ mantissa exponent =>
    if 0 ≤ exponent then some (mantissa * Nat.pow 2 exponent.toNat)
    else
      let unit := Nat.pow 2 (-exponent).toNat
      if mantissa % unit = 0 then some (mantissa / unit) else none
  | _ => none

end Binary

end Lox.Number
