import QuadStore.Number.Rounding

/-!
# Arithmetic of binary numbers

Sums, products and quotients of patterns of a format: the exact result is rounded once. A NaN
operand is given back, the first one of two. An operation without a result, such as the difference
of two infinities, gives the NaN with the sign set.
-/

namespace QuadStore
namespace BinaryFormat

variable (f : BinaryFormat)

/-- The NaN that stands for a missing result. -/
def missing : Nat := f.withSign true f.quietNaN

/-- Whether a pattern is an infinity. -/
def isInfinite (bits : Nat) : Bool := f.magnitude bits == f.infinity

/-- Whether a pattern is a zero. -/
def isZero (bits : Nat) : Bool := f.magnitude bits == 0

/-- The pattern with the sign turned over. -/
def negated (bits : Nat) : Nat := f.withSign (!f.isNegative bits) (f.magnitude bits)

/-- A finite pattern as a multiple of a power of two that is no greater than its own. -/
def multiple (exponent : Int) (bits : Nat) : Int :=
  let (mantissa, own) := f.decode (f.magnitude bits)
  let units : Nat := mantissa * Nat.pow 2 (own - exponent).toNat
  if f.isNegative bits then -(units : Int) else units

/-- Two operands, the first NaN among them, or else the result of an operation. -/
def unlessNaN (a b : Nat) (result : Nat) : Nat :=
  if f.isNaN a then a else if f.isNaN b then b else result

/-- The sum of two finite patterns. A sum of zero is negative only if both summands are. -/
def finiteSum (a b : Nat) : Nat :=
  let exponent := min (f.decode (f.magnitude a)).2 (f.decode (f.magnitude b)).2
  let sum := f.multiple exponent a + f.multiple exponent b
  if sum = 0 then f.withSign (f.isNegative a && f.isNegative b) 0
  else f.withSign (sum < 0) (f.ofScaled sum.natAbs exponent)

/-- The sum of two patterns. -/
def add (a b : Nat) : Nat :=
  f.unlessNaN a b <|
    if f.isInfinite a then
      if f.isInfinite b && f.isNegative a != f.isNegative b then f.missing else a
    else if f.isInfinite b then b
    else f.finiteSum a b

/-- The difference of two patterns. -/
def sub (a b : Nat) : Nat := f.unlessNaN a b (f.add a (f.negated b))

/-- The product of two patterns. -/
def mul (a b : Nat) : Nat :=
  let negative := f.isNegative a != f.isNegative b
  let (m, d) := f.decode (f.magnitude a)
  let (n, e) := f.decode (f.magnitude b)
  f.unlessNaN a b <|
    if f.isInfinite a || f.isInfinite b then
      if f.isZero a || f.isZero b then f.missing else f.withSign negative f.infinity
    else f.withSign negative (f.ofScaled (m * n) (d + e))

/-- The quotient of two patterns. -/
def div (a b : Nat) : Nat :=
  let negative := f.isNegative a != f.isNegative b
  let (m, d) := f.decode (f.magnitude a)
  let (n, e) := f.decode (f.magnitude b)
  f.unlessNaN a b <|
    if f.isInfinite a then
      if f.isInfinite b then f.missing else f.withSign negative f.infinity
    else if f.isInfinite b then f.withSign negative 0
    else if f.isZero b then
      if f.isZero a then f.missing else f.withSign negative f.infinity
    else
      f.withSign negative (f.ofRatio (m * Nat.pow 2 (d - e).toNat) (n * Nat.pow 2 (e - d).toNat))

end BinaryFormat
end QuadStore
