import QuadStore.Text.Digits

/-!
# Numerals in scientific notation

The texts that a floating point number is read from: digits with an optional point and an optional
exponent, or a name of infinity or of NaN in any case, each after an optional sign.
-/

namespace QuadStore

/-- What a numeral says, its sign apart. -/
inductive Numeral where
  | infinity
  | nan
  | finite (digits : Nat) (exponent : Int)
deriving DecidableEq, Repr

namespace Numeral

/-- The exponent after its letter, which needs at least one digit. -/
def readExponent? : List Char → Option Int
  | [] => some 0
  | c :: rest => if c = 'e' ∨ c = 'E' then Text.readInt? rest else none

/-- Digits with an optional point, at least one digit in all, and an optional exponent. -/
def readFinite? (cs : List Char) : Option Numeral :=
  let (whole, rest) := Text.spanDigits cs
  let (fraction, rest) :=
    match rest with
    | '.' :: rest => Text.spanDigits rest
    | _ => ([], rest)
  if whole.isEmpty && fraction.isEmpty then none
  else (readExponent? rest).map fun e =>
    finite (Text.ofDigits (whole ++ fraction)) (e - fraction.length)

/-- A numeral and whether it has a minus sign. -/
def read? (cs : List Char) : Option (Bool × Numeral) :=
  let (negative, body) := Text.readSign cs
  let name := String.ofList (body.map Char.toLower)
  if name = "inf" ∨ name = "infinity" then some (negative, infinity)
  else if name = "nan" then some (negative, nan)
  else (readFinite? body).map fun n => (negative, n)

/-- The number of digits of a numeral and its exponent bound its size. Past ±400 no format of up
to 64 bits holds more than zero or infinity. -/
def sizeLimit : Int := 400

/-- A finite numeral brought into the range that matters: with an exponent that cannot make a
number of it that is neither zero nor infinite, it is 0 or 10⁴⁰⁰. -/
def clamp (digits : Nat) (exponent : Int) : Nat × Int :=
  let leading := exponent + (Text.digits digits).length
  if digits = 0 ∨ leading < -sizeLimit then (0, 0)
  else if sizeLimit < leading then (1, sizeLimit)
  else (digits, exponent)

end Numeral
end QuadStore
