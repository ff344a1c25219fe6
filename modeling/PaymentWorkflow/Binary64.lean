import Mathlib.Data.Nat.Digits.Defs

/-! Doubles: the one nearest to a fraction, and the shortest decimal that is read back as it. -/

namespace Binary64

/-- The value `mantissa * 2 ^ exponent`. -/
structure Finite where
  mantissa : Nat
  exponent : Int
deriving DecidableEq

/-- `mantissa * base ^ exponent` as a numerator and a denominator. -/
def ratio (base mantissa : Nat) (exponent : Int) : Nat × Nat :=
  (mantissa * base ^ exponent.toNat, base ^ (-exponent).toNat)

def roundEven (numerator denominator : Nat) : Nat :=
  let quotient := numerator / denominator
  let twice := 2 * (numerator % denominator)
  if twice < denominator ∨ (twice = denominator ∧ quotient % 2 = 0) then quotient else quotient + 1

/-- The exponent of the last of 53 bits, or of the subnormal numbers. -/
def lastPlace (numerator denominator : Nat) : Int :=
  let low := (Nat.log2 numerator : Int) - Nat.log2 denominator - 53
  let fits := numerator * 2 ^ (-low).toNat < denominator * 2 ^ low.toNat * 2 ^ 53
  max (if fits then low else low + 1) (-1074)

/-- `none` where the nearest double would be infinite. -/
def nearest (numerator denominator : Nat) : Option Finite :=
  if numerator = 0 then some ⟨0, 0⟩
  else
    let last := lastPlace numerator denominator
    let mantissa := roundEven (numerator * 2 ^ (-last).toNat) (denominator * 2 ^ last.toNat)
    if 2 ^ 1024 ≤ mantissa * 2 ^ last.toNat ∧ 0 ≤ last then none
    else if mantissa = 2 ^ 53 then some ⟨2 ^ 52, last + 1⟩
    else some ⟨mantissa, last⟩

/-- The fewest digits, and of these the closest. Seventeen are always enough. -/
def shortest (value : Finite) : Option (Nat × Int) :=
  if value.mantissa = 0 then some (0, 0)
  else
    let (numerator, denominator) := ratio 2 value.mantissa value.exponent
    let first := ((Nat.toDigits 10 numerator).length : Int) - (Nat.toDigits 10 denominator).length
    (List.range 19).findSome? fun (count : Nat) =>
      let place := first - (count : Int)
      let scaled := numerator * 10 ^ (-place).toNat
      let unit := denominator * 10 ^ place.toNat
      let below := scaled / unit
      ([roundEven scaled unit, below, below + 1].find? fun digits =>
        let candidate := ratio 10 digits place
        nearest candidate.1 candidate.2 = some value).map fun digits => (digits, place)

example : (nearest 1 10).bind shortest = some (1, -1) := by decide +kernel
example : (nearest 12345678901234567890 1).bind shortest = some (12345678901234567, 3) := by
  decide +kernel

end Binary64
