import QuadStore.Text.Digits

/-!
# Integers

The values of `xsd:integer` and of the datatypes derived from it: whole numbers of 64 bits. An
operation whose exact result is out of range has none.
-/

namespace QuadStore

/-- A number that can be written in two's complement with some number of bits. -/
def Fits (bits : Nat) (n : Int) : Prop :=
  -(Nat.pow 2 (bits - 1) : Int) ≤ n ∧ n < Nat.pow 2 (bits - 1)

instance (bits : Nat) (n : Int) : Decidable (Fits bits n) :=
  inferInstanceAs (Decidable (_ ∧ _))

namespace Xsd

/-- A whole number of 64 bits. -/
structure Integer where
  value : Int
  fits : Fits 64 value
deriving DecidableEq, Repr

namespace Integer

/-- A whole number, if it is in range. -/
def ofInt? (n : Int) : Option Integer := if h : Fits 64 n then some ⟨n, h⟩ else none

/-- A lexical form: an optional sign and digits. -/
def parse? (text : String) : Option Integer := (Text.readInt? text.toList).bind ofInt?

/-- The canonical lexical form. -/
def text (n : Integer) : String := toString n.value

def add? (a b : Integer) : Option Integer := ofInt? (a.value + b.value)
def sub? (a b : Integer) : Option Integer := ofInt? (a.value - b.value)
def mul? (a b : Integer) : Option Integer := ofInt? (a.value * b.value)
def neg? (a : Integer) : Option Integer := ofInt? (-a.value)
def abs? (a : Integer) : Option Integer := ofInt? (a.value.natAbs : Int)

/-- The order of the values. -/
def order (a b : Integer) : Ordering := compare a.value b.value

/-- A number in range stands for itself. -/
theorem ofInt?_eq_some_iff {n : Int} {a : Integer} : ofInt? n = some a ↔ a.value = n := by
  unfold ofInt?
  constructor
  · intro h
    split at h
    · cases h; rfl
    · cases h
  · rintro rfl
    simp [a.fits]

end Integer
end Xsd
end QuadStore
