import Lox.Number.Binary

namespace Lox.Number

def remainderOf (m : Nat) (e : Int) (n : Nat) (f : Int) : Nat × Int :=
  let unit := min e f
  (m * Nat.pow 2 (e - unit).toNat % (n * Nat.pow 2 (f - unit).toNat), unit)

/-- The result has the sign of the dividend. An infinite dividend has no remainder unless the
divisor is no number; a divisor of zero is left to the caller and treated like no number. -/
def remainder? (x y : Float) : Option Float :=
  match Binary.ofFloat x, Binary.ofFloat y with
  | .nan, _ => some (0.0 / 0.0)
  | _, .nan => some (0.0 / 0.0)
  | .infinite _, _ => none
  | .finite .., .infinite _ => some x
  | .finite negative m e, .finite _ n f =>
    if n = 0 then some (0.0 / 0.0)
    else
      let (r, unit) := remainderOf m e n f
      some (Binary.assemble negative r unit)

end Lox.Number
