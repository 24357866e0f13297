import QuadStore.Number.Binary

/-!
# Rounding to a binary format

The magnitude nearest to a fraction, ties going to the even one. Past the greatest finite
magnitude, this is infinity. The computation is exact: the fraction is cut into units of the last
place, and what remains decides.
-/

namespace QuadStore

/-- A quotient rounded to the nearest whole number, a tie to the even one. -/
def roundedQuotient (num den : Nat) : Nat :=
  let q := num / den
  let rest := 2 * (num % den)
  if rest < den then q
  else if den < rest then q + 1
  else q + q % 2

/-- The exponent of the greatest power of two that is at most a positive fraction. -/
def leadingExponent (num den : Nat) : Int :=
  let guess : Int := (num.log2 : Int) - den.log2
  if den * Nat.pow 2 guess.toNat ≤ num * Nat.pow 2 (-guess).toNat then guess else guess - 1

namespace BinaryFormat

variable (f : BinaryFormat)

/-- The exponent of the smallest unit of the last place. -/
def leastExponent : Int := 2 - Nat.pow 2 (f.exponentBits - 1) - f.fractionBits

/-- The magnitude nearest to a fraction. -/
def ofRatio (num den : Nat) : Nat :=
  if num = 0 then 0
  else
    let exponent := max (leadingExponent num den - f.fractionBits) f.leastExponent
    let units := roundedQuotient (num * Nat.pow 2 (-exponent).toNat)
      (den * Nat.pow 2 exponent.toNat)
    min f.infinity ((exponent - f.leastExponent).toNat * Nat.pow 2 f.fractionBits + units)

/-- The magnitude nearest to a whole number times a power of two. -/
def ofScaled (mantissa : Nat) (exponent : Int) : Nat :=
  f.ofRatio (mantissa * Nat.pow 2 exponent.toNat) (Nat.pow 2 (-exponent).toNat)

/-- The magnitude nearest to a whole number times a power of ten. -/
def ofDecimal (digits : Nat) (exponent : Int) : Nat :=
  f.ofRatio (digits * Nat.pow 10 exponent.toNat) (Nat.pow 10 (-exponent).toNat)

/-- The pattern of a sign and a magnitude. -/
def withSign (negative : Bool) (magnitude : Nat) : Nat :=
  if negative then f.signWeight + magnitude else magnitude

/-- The pattern nearest to a whole number. -/
def ofInt (n : Int) : Nat := f.withSign (n < 0) (f.ofRatio n.natAbs 1)

end BinaryFormat
end QuadStore
