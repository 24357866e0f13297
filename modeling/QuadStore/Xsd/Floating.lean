import QuadStore.Number.Arithmetic
import QuadStore.Number.Numeral
import QuadStore.Number.Shortest
import QuadStore.Xsd.Decimal

/-!
# Floating point numbers

The values of `xsd:float` and `xsd:double`, held as their bit patterns. Arithmetic rounds to
nearest. A NaN keeps a sign, which only the total order and negation see.

The text is `INF`, `-INF`, `NaN`, or the shortest positional decimal that reads back.
-/

namespace QuadStore
namespace Xsd

/-- The text of a bit pattern of a format. -/
def floatingText (f : BinaryFormat) (bits : Nat) : String :=
  let sign := if f.isNegative bits then "-" else ""
  if f.isNaN bits then "NaN"
  else if f.magnitude bits = f.infinity then sign ++ "INF"
  else sign ++ String.ofList (Shortest.text f (f.magnitude bits))

/-- The numeric order of two bit patterns; a NaN is not ordered with anything. -/
def floatingOrder? (f : BinaryFormat) (a b : Nat) : Option Ordering :=
  if f.isNaN a || f.isNaN b then none else some (compare (f.numberKey a) (f.numberKey b))

/-- The pattern nearest to a numeral. -/
def floatingBits (f : BinaryFormat) (negative : Bool) : Numeral → Nat
  | .infinity => f.withSign negative f.infinity
  | .nan => f.withSign negative f.quietNaN
  | .finite digits exponent =>
    let (digits, exponent) := Numeral.clamp digits exponent
    f.withSign negative (f.ofDecimal digits exponent)

/-- A number of `xsd:double`. -/
structure Double where
  bits : UInt64
deriving DecidableEq, Repr

/-- A number of `xsd:float`. -/
structure Single where
  bits : UInt32
deriving DecidableEq, Repr

namespace Double

def isNaN (x : Double) : Bool := BinaryFormat.binary64.isNaN x.bits.toNat

/-- The number with a pattern. -/
def ofBits (bits : Nat) : Double := ⟨UInt64.ofNat bits⟩

/-- An operation on patterns. -/
def lift (op : Nat → Nat → Nat) (a b : Double) : Double := ofBits (op a.bits.toNat b.bits.toNat)

def add : Double → Double → Double := lift BinaryFormat.binary64.add
def sub : Double → Double → Double := lift BinaryFormat.binary64.sub
def mul : Double → Double → Double := lift BinaryFormat.binary64.mul
def div : Double → Double → Double := lift BinaryFormat.binary64.div

/-- The sign turned over, of a NaN too. -/
def neg (x : Double) : Double := ⟨x.bits ^^^ 0x8000000000000000⟩

/-- The sign cleared, of a NaN too. -/
def abs (x : Double) : Double := ⟨x.bits &&& 0x7FFFFFFFFFFFFFFF⟩

/-- The nearest number to a whole one. -/
def ofInt (n : Int) : Double := ofBits (BinaryFormat.binary64.ofInt n)

/-- The numerator of a decimal freed of final zeros, over the power of ten left below it, each
rounded and then divided. -/
def ofDecimal (d : Decimal) : Double :=
  let zeros := Decimal.finalZeros Decimal.places d.units
  div (ofInt (d.units.tdiv (Nat.pow 10 zeros))) (ofInt (Nat.pow 10 (Decimal.places - zeros)))

/-- A number of the shorter format, exactly. -/
def ofSingle (x : Single) : Double :=
  let narrow := BinaryFormat.binary32
  let wide := BinaryFormat.binary64
  let bits := x.bits.toNat
  let magnitude :=
    if narrow.isNaN bits then wide.quietNaN
    else if narrow.isInfinite bits then wide.infinity
    else
      let (mantissa, exponent) := narrow.decode (narrow.magnitude bits)
      wide.ofScaled mantissa exponent
  ofBits (wide.withSign (narrow.isNegative bits) magnitude)

/-- The nearest number to a numeral. -/
def parse? (text : String) : Option Double :=
  (Numeral.read? text.toList).map fun (negative, numeral) =>
    ofBits (floatingBits .binary64 negative numeral)

def text (x : Double) : String := floatingText .binary64 x.bits.toNat

/-- The numeric order; a NaN is not ordered with anything. -/
def order? (a b : Double) : Option Ordering :=
  floatingOrder? .binary64 a.bits.toNat b.bits.toNat

/-- Neither zero nor NaN. -/
def isTrue (x : Double) : Bool :=
  !x.isNaN && BinaryFormat.binary64.magnitude x.bits.toNat != 0

end Double

namespace Single

def isNaN (x : Single) : Bool := BinaryFormat.binary32.isNaN x.bits.toNat

/-- The number with a pattern. -/
def ofBits (bits : Nat) : Single := ⟨UInt32.ofNat bits⟩

/-- An operation on patterns. -/
def lift (op : Nat → Nat → Nat) (a b : Single) : Single := ofBits (op a.bits.toNat b.bits.toNat)

def add : Single → Single → Single := lift BinaryFormat.binary32.add
def sub : Single → Single → Single := lift BinaryFormat.binary32.sub
def mul : Single → Single → Single := lift BinaryFormat.binary32.mul
def div : Single → Single → Single := lift BinaryFormat.binary32.div

/-- The sign turned over, of a NaN too. -/
def neg (x : Single) : Single := ⟨x.bits ^^^ 0x80000000⟩

/-- The sign cleared, of a NaN too. -/
def abs (x : Single) : Single := ⟨x.bits &&& 0x7FFFFFFF⟩

/-- The nearest number to a whole one. -/
def ofInt (n : Int) : Single := ofBits (BinaryFormat.binary32.ofInt n)

/-- The numerator of a decimal freed of final zeros, over the power of ten left below it, each
rounded and then divided. -/
def ofDecimal (d : Decimal) : Single :=
  let zeros := Decimal.finalZeros Decimal.places d.units
  div (ofInt (d.units.tdiv (Nat.pow 10 zeros))) (ofInt (Nat.pow 10 (Decimal.places - zeros)))

/-- The nearest number to a numeral. -/
def parse? (text : String) : Option Single :=
  (Numeral.read? text.toList).map fun (negative, numeral) =>
    ofBits (floatingBits .binary32 negative numeral)

def text (x : Single) : String := floatingText .binary32 x.bits.toNat

/-- The numeric order; a NaN is not ordered with anything. -/
def order? (a b : Single) : Option Ordering :=
  floatingOrder? .binary32 a.bits.toNat b.bits.toNat

/-- Neither zero nor NaN. -/
def isTrue (x : Single) : Bool :=
  !x.isNaN && BinaryFormat.binary32.magnitude x.bits.toNat != 0

end Single
end Xsd
end QuadStore
