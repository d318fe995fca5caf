import Lox.Number.Shortest

/-! How numbers are written: whole numbers below `10 ^ 16` without a point, all others with the
fewest digits that read back, positional from `10 ^ -4` up to `10 ^ 16` and scientific beyond. -/

namespace Lox.Number

structure Layout where
  low : Int
  high : Int
  -- The least count of digits of a written exponent.
  exponentWidth : Nat

def layout : Layout := ⟨-4, 16, 2⟩

def digitsOf (n : Nat) : List Char := Nat.toDigits 10 n

def significant (d : Decimal) : List Char :=
  ((digitsOf d.digits).reverse.dropWhile (· = '0')).reverse

def Decimal.leading (d : Decimal) : Int := d.exponent + (digitsOf d.digits).length - 1

def positional (digits : List Char) (leading : Int) : List Char :=
  if leading < 0 then
    '0' :: '.' :: List.replicate (-leading - 1).toNat '0' ++ digits
  else
    let whole := leading.toNat + 1
    let padded := digits ++ List.replicate (whole - digits.length) '0'
    match padded.drop whole with
    | [] => padded
    | fraction => padded.take whole ++ '.' :: fraction

def scientific (digits : List Char) (leading : Int) : List Char :=
  let written := digitsOf leading.natAbs
  let exponent := List.replicate (layout.exponentWidth - written.length) '0' ++ written
  let mantissa :=
    match digits with
    | first :: second :: more => first :: '.' :: second :: more
    | short => short
  mantissa ++ 'e' :: (if leading < 0 then '-' else '+') :: exponent

def writeDecimal (d : Decimal) : List Char :=
  let digits := significant d
  if layout.low ≤ d.leading && decide (d.leading < layout.high) then positional digits d.leading
  else scientific digits d.leading

def signed (negative : Bool) (text : List Char) : List Char :=
  if negative then '-' :: text else text

def wholeLimit : Nat := Nat.pow 10 16

def write : Binary → List Char
  | .nan => ['n', 'a', 'n']
  | .infinite negative => signed negative ['i', 'n', 'f']
  | .finite negative mantissa exponent =>
    let fractional := signed negative (writeDecimal (shortest mantissa exponent))
    match (Binary.finite negative mantissa exponent).whole? with
    | some n =>
      if n = 0 then ['0'] else if n < wholeLimit then signed negative (digitsOf n) else fractional
    | none => fractional

def text (x : Float) : String := String.ofList (write (Binary.ofFloat x))

end Lox.Number
