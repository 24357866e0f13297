import QuadStore.Xsd.Integer

/-!
# Decimals

The values of `xsd:decimal` are multiples of 10⁻¹⁸ whose count of units fits in 128 bits. Addition
and subtraction are exact or have no result. A product with zero is zero; any other product is
exact or has no result: its factors are first freed of their final zeros, and together they must
have had at least eighteen. A quotient is cut off after eighteen places.
-/

namespace QuadStore
namespace Xsd

/-- The number of places after the point. -/
def Decimal.places : Nat := 18

/-- A count of units of 10⁻¹⁸. -/
structure Decimal where
  units : Int
  fits : Fits 128 units
deriving DecidableEq, Repr

namespace Decimal

/-- A count of units, if it is in range. -/
def ofUnits? (n : Int) : Option Decimal := if h : Fits 128 n then some ⟨n, h⟩ else none

/-- A whole number, if it is in range. -/
def ofInt? (n : Int) : Option Decimal := ofUnits? (n * Nat.pow 10 places)

/-- Every integer is a decimal. -/
def ofInteger (n : Integer) : Decimal :=
  ⟨n.value * Nat.pow 10 places, by
    have h := n.fits
    simp only [Fits, places, Nat.pow_eq] at *
    omega⟩

/-- A lexical form: an optional sign, digits, and optionally a point and more digits; there is a
digit before or after the point. Zeros at the end do not count as places. -/
def parse? (text : String) : Option Decimal :=
  let (negative, body) := Text.readSign text.toList
  let (whole, rest) := Text.spanDigits body
  let fraction? : Option (List Char) :=
    match rest with
    | [] => if whole.isEmpty then none else some []
    | '.' :: fraction => if whole.isEmpty && fraction.isEmpty then none else some fraction
    | _ :: _ => none
  fraction?.bind fun fraction =>
    let fraction := Text.trimZeros fraction
    if fraction.all Name.isDigit && fraction.length ≤ places then
      let digits := Text.ofDigits (whole ++ fraction)
      ofUnits? (Text.signed negative digits * Nat.pow 10 (places - fraction.length))
    else none

/-- The canonical lexical form: no point without a place after it, and no zeros at the end. -/
def text (d : Decimal) : String :=
  let n := d.units.natAbs
  let fraction := Text.trimZeros (Text.paddedDigits places (n % Nat.pow 10 places))
  let sign := if d.units < 0 then ['-'] else []
  let point := if fraction.isEmpty then [] else '.' :: fraction
  String.ofList (sign ++ Text.digits (n / Nat.pow 10 places) ++ point)

/-- How many of the first `limit` powers of ten divide a number. -/
def finalZeros (limit : Nat) (n : Int) : Nat :=
  (List.range limit).countP fun k => n % Nat.pow 10 (k + 1) == 0

/-- The final zeros of a number other than zero; zero counts as having none. -/
def ownZeros (n : Int) : Nat := if n = 0 then 0 else finalZeros 38 n

/-- By how many powers of ten a number can be multiplied within 128 bits; zero counts as none. -/
def headroom (n : Int) : Nat :=
  if n = 0 then 0 else (List.range 38).countP fun k => Fits 128 (n * Nat.pow 10 (k + 1))

def add? (a b : Decimal) : Option Decimal := ofUnits? (a.units + b.units)
def sub? (a b : Decimal) : Option Decimal := ofUnits? (a.units - b.units)
def neg? (a : Decimal) : Option Decimal := ofUnits? (-a.units)
def abs? (a : Decimal) : Option Decimal := ofUnits? (a.units.natAbs : Int)

def mul? (a b : Decimal) : Option Decimal :=
  let zerosA := ownZeros a.units
  let zerosB := ownZeros b.units
  if a.units = 0 ∨ b.units = 0 then ofUnits? 0
  else if zerosA + zerosB < places then none
  else
    ofUnits? (a.units.tdiv (Nat.pow 10 zerosA) * b.units.tdiv (Nat.pow 10 zerosB) *
      Nat.pow 10 (zerosA + zerosB - places))

def div? (a b : Decimal) : Option Decimal :=
  let room := headroom a.units
  let zeros := ownZeros b.units
  if b.units = 0 ∨ room + zeros < places ∨ 38 < room + zeros - places then none
  else
    let quotient := (a.units * Nat.pow 10 room).tdiv (b.units.tdiv (Nat.pow 10 zeros))
    if Fits 128 quotient then ofUnits? (quotient.tdiv (Nat.pow 10 (room + zeros - places)))
    else none

/-- The remainder by a whole number other than zero, from zero up to that number. -/
def remainder (a : Decimal) (n : Nat) : Int := a.units % (n * Nat.pow 10 places)

/-- The whole part, cut off toward zero. -/
def whole (a : Decimal) : Int := a.units.tdiv (Nat.pow 10 places)

/-- The order of the values. -/
def order (a b : Decimal) : Ordering := compare a.units b.units

end Decimal
end Xsd
end QuadStore
