import QuadStore.Number.Binary
import QuadStore.Text.Digits

/-!
# Shortest decimal text of a binary number

The fewest digits that lie in the interval of numbers rounded to the binary one, the nearest such
digits to it, and of two equally near ones the greater. They are written positionally, without an
exponent, however large or small the number.

All arithmetic is on natural numbers: a number and the ends of its interval are fractions over one
denominator.
-/

namespace QuadStore
namespace Shortest

/-- A number and the ends of the interval that is rounded to it, as numerators over `unit`; the
ends belong to it when `closed` is set. -/
structure Interval where
  low : Nat
  value : Nat
  high : Nat
  unit : Nat
  closed : Bool

/-- The interval of a finite magnitude other than zero. Below a power of two the spacing halves. -/
def Interval.of (f : BinaryFormat) (magnitude : Nat) : Interval :=
  let (mantissa, exponent) := f.decode magnitude
  let narrow := mantissa = Nat.pow 2 f.fractionBits ∧ 2 * Nat.pow 2 f.fractionBits ≤ magnitude
  let scale := Nat.pow 2 exponent.toNat
  { low := (4 * mantissa - if narrow then 1 else 2) * scale
    value := 4 * mantissa * scale
    high := (4 * mantissa + 2) * scale
    unit := 4 * Nat.pow 2 (-exponent).toNat
    closed := mantissa % 2 == 0 }

/-- The numerator of a multiple of a power of ten over a denominator scaled by `10 ^ down`, where
`up` and `down` are the positive and the negative part of the power's exponent. -/
def Interval.digitsOn? (i : Interval) (up down : Nat) : Option Nat :=
  let value := i.value * Nat.pow 10 down
  let low := i.low * Nat.pow 10 down
  let high := i.high * Nat.pow 10 down
  let step := Nat.pow 10 up * i.unit
  let below := value / step
  let above := below + 1
  let hasBelow := if i.closed then low ≤ below * step else low < below * step
  let hasAbove := if i.closed then above * step ≤ high else above * step < high
  if hasBelow ∧ hasAbove then
    some (if 2 * (value - below * step) < step then below else above)
  else if hasBelow then some below
  else if hasAbove then some above
  else none

/-- The number of digits before the point, or minus the number of zeros after it. -/
def Interval.pointPosition (i : Interval) : Int :=
  if i.unit ≤ i.value then (Text.digits (i.value / i.unit)).length
  else Int.negOfNat ((List.range 400).countP fun k => i.value * Nat.pow 10 (k + 1) < i.unit)

/-- The digits on the first decimal grid that has a multiple in the interval, with the exponent of
the grid. Seventeen digits always suffice. -/
def Interval.digits (i : Interval) : Nat × Int :=
  ((List.range 17).findSome? fun k =>
    let exponent := i.pointPosition - (k + 1 : Nat)
    (i.digitsOn? exponent.toNat (-exponent).toNat).map fun d => (d, exponent)).getD (0, 0)

/-- A whole number times a power of ten, written positionally. -/
def positional (digits : Nat) (exponent : Int) : List Char :=
  if 0 ≤ exponent then Text.digits (digits * Nat.pow 10 exponent.toNat)
  else
    let places := (-exponent).toNat
    let fraction := Text.trimZeros (Text.paddedDigits places (digits % Nat.pow 10 places))
    Text.digits (digits / Nat.pow 10 places) ++ if fraction.isEmpty then [] else '.' :: fraction

/-- The text of a finite magnitude. -/
def text (f : BinaryFormat) (magnitude : Nat) : List Char :=
  if magnitude = 0 then ['0']
  else
    let (digits, exponent) := (Interval.of f magnitude).digits
    positional digits exponent

end Shortest
end QuadStore
