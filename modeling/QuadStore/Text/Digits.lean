import QuadStore.Rdf.Name

/-!
# Digits

Natural numbers from and to their decimal digits, and the sign in front of a number. Hexadecimal
digits, in either case and with a least width, are those of the character escapes of quoted text
and of the bytes of a journal.
-/

namespace QuadStore
namespace Text

/-! ## Decimal digits -/

/-- The number that some digits stand for. -/
def ofDigits (cs : List Char) : Nat :=
  cs.foldl (fun n c => 10 * n + (c.toNat - '0'.toNat)) 0

/-- The digits of a number, without leading zeros. -/
def digits (n : Nat) : List Char := Nat.toDigits 10 n

/-- The digits of a number, with zeros in front up to a least width. -/
def paddedDigits (width n : Nat) : List Char :=
  List.replicate (width - (digits n).length) '0' ++ digits n

/-- The digits at the front of a text, and the rest of it. -/
def spanDigits (cs : List Char) : List Char × List Char := cs.span Name.isDigit

/-- A text without the zeros at its end. -/
def trimZeros (cs : List Char) : List Char := (cs.reverse.dropWhile (· == '0')).reverse

/-- A sign in front of a number, absent or a plus for a positive one. -/
def readSign : List Char → Bool × List Char
  | '-' :: rest => (true, rest)
  | '+' :: rest => (false, rest)
  | cs => (false, cs)

/-- The opposite of a number if a sign says so. -/
def signed (negative : Bool) (n : Nat) : Int := if negative then -(n : Int) else n

/-- A whole number: an optional sign and at least one digit. -/
def readInt? (cs : List Char) : Option Int :=
  let (negative, body) := readSign cs
  if !body.isEmpty && body.all Name.isDigit then some (signed negative (ofDigits body)) else none

/-! ## Hexadecimal digits -/

/-- The character of a hexadecimal digit, in upper case. -/
def hexDigit (d : Nat) : Char :=
  if d < 10 then Char.ofNat ('0'.toNat + d) else Char.ofNat ('A'.toNat + (d - 10))

/-- The lowest `width` hexadecimal digits of `n`, the highest of them first. -/
def hexDigits : (width : Nat) → (n : Nat) → List Char
  | 0, _ => []
  | width + 1, n => hexDigits width (n / 16) ++ [hexDigit (n % 16)]

/-- The value of a hexadecimal digit in either case. -/
def hexValue? (c : Char) : Option Nat :=
  if '0' ≤ c ∧ c ≤ '9' then some (c.toNat - '0'.toNat)
  else if 'a' ≤ c ∧ c ≤ 'f' then some (c.toNat - 'a'.toNat + 10)
  else if 'A' ≤ c ∧ c ≤ 'F' then some (c.toNat - 'A'.toNat + 10)
  else none

/-- A digit written and read back is itself. -/
theorem hexValue?_hexDigit : ∀ d < 16, hexValue? (hexDigit d) = some d := by decide

end Text
end QuadStore
