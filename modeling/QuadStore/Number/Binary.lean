/-!
# Binary interchange formats

The bit patterns of IEEE 754: a sign, an exponent and a fraction. A pattern without its sign is a
magnitude, and magnitudes are in the order of the numbers that they stand for.
-/

namespace QuadStore

/-- The widths of the fields of a format. -/
structure BinaryFormat where
  fractionBits : Nat
  exponentBits : Nat

namespace BinaryFormat

def binary32 : BinaryFormat := ⟨23, 8⟩
def binary64 : BinaryFormat := ⟨52, 11⟩

variable (f : BinaryFormat)

/-- The weight of the sign bit. -/
def signWeight : Nat := Nat.pow 2 (f.fractionBits + f.exponentBits)

/-- The magnitude of infinity. -/
def infinity : Nat := (Nat.pow 2 f.exponentBits - 1) * Nat.pow 2 f.fractionBits

/-- The magnitude of the NaN that has no payload. -/
def quietNaN : Nat := f.infinity + Nat.pow 2 (f.fractionBits - 1)

/-- A pattern without its sign. -/
def magnitude (bits : Nat) : Nat := bits % f.signWeight

/-- Whether the sign is set. -/
def isNegative (bits : Nat) : Bool := f.signWeight ≤ bits

/-- Whether the pattern is a NaN, of either sign. -/
def isNaN (bits : Nat) : Bool := f.infinity < f.magnitude bits

/-- The place of a pattern that is no NaN in the order of numbers, in which both zeros are one. -/
def numberKey (bits : Nat) : Int :=
  if f.isNegative bits then -(f.magnitude bits : Int) else f.magnitude bits

/-- The place of a pattern in the total order: as numbers, with −0 before +0, and with the NaNs
outside of the infinities on the side of their sign. -/
def totalKey (bits : Nat) : Int :=
  if f.isNegative bits then -(f.magnitude bits : Int) - 1 else f.magnitude bits

/-- A finite magnitude as a whole number times a power of two. -/
def decode (magnitude : Nat) : Nat × Int :=
  let fraction := magnitude % Nat.pow 2 f.fractionBits
  let exponent := magnitude / Nat.pow 2 f.fractionBits
  let shift : Int := (Nat.pow 2 (f.exponentBits - 1) : Int) - 1 + f.fractionBits
  if exponent = 0 then (fraction, 1 - shift)
  else (fraction + Nat.pow 2 f.fractionBits, exponent - shift)

end BinaryFormat
end QuadStore
