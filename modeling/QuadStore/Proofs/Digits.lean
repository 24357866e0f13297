import Mathlib
import QuadStore.Text.Digits

/-!
# Digits that are read back

The digits of a number stand for it, whether or not zeros are put in front of them. A fraction
keeps its value when the zeros at its end are left out, which are then to be counted by its length.
-/

namespace QuadStore
namespace Text

/-! ## Values of digits -/

theorem ofDigits_eq (cs : List Char) : ofDigits cs = Nat.ofDigitChars 10 cs 0 :=
  Nat.ofDigitChars_eq_foldl.symm

/-- More digits at the end move the others up. -/
theorem ofDigits_append (cs ds : List Char) :
    ofDigits (cs ++ ds) = ofDigits cs * 10 ^ ds.length + ofDigits ds := by
  rw [ofDigits_eq, ofDigits_eq, ofDigits_eq, Nat.ofDigitChars_append,
    Nat.ofDigitChars_eq_ofDigitChars_zero, Nat.mul_comm]

theorem ofDigits_replicate_zero (k : Nat) : ofDigits (List.replicate k '0') = 0 := by
  rw [ofDigits_eq, Nat.ofDigitChars_replicate_zero, Nat.mul_zero]

@[simp]
theorem ofDigits_digits (n : Nat) : ofDigits (digits n) = n :=
  (ofDigits_eq _).trans Nat.ofDigitChars_ten_toDigits

@[simp]
theorem ofDigits_paddedDigits (width n : Nat) : ofDigits (paddedDigits width n) = n := by
  rw [paddedDigits, ofDigits_append, ofDigits_replicate_zero, ofDigits_digits, Nat.zero_mul,
    Nat.zero_add]

/-! ## Characters and lengths -/

theorem isDigit_of_mem_digits {n : Nat} {c : Char} (h : c ∈ digits n) : Name.isDigit c = true := by
  have hdigit := Nat.isDigit_of_mem_toDigits (by decide) (by decide) h
  simpa [Char.isDigit, Name.isDigit, Char.le_def] using hdigit

theorem isDigit_of_mem_paddedDigits {width n : Nat} {c : Char} (h : c ∈ paddedDigits width n) :
    Name.isDigit c = true := by
  rcases List.mem_append.1 h with h | h
  · rw [List.eq_of_mem_replicate h]
    decide
  · exact isDigit_of_mem_digits h

/-- There is at least one digit. -/
theorem exists_digits_eq_cons (n : Nat) : ∃ c cs, digits n = c :: cs ∧ Name.isDigit c = true := by
  obtain ⟨c, cs, h⟩ := List.exists_cons_of_ne_nil (Nat.toDigits_ne_nil (n := n) (b := 10))
  refine ⟨c, cs, h, isDigit_of_mem_digits (n := n) ?_⟩
  rw [digits, h]
  exact List.mem_cons_self

theorem length_digits_le_iff {n k : Nat} (hk : 0 < k) : (digits n).length ≤ k ↔ n < 10 ^ k :=
  Nat.length_toDigits_le_iff (by decide) hk

/-- A number has as many digits as the greatest power of ten in it, and one more. -/
theorem pow_length_digits_le {n : Nat} (hn : n ≠ 0) : 10 ^ ((digits n).length - 1) ≤ n := by
  by_cases hone : (digits n).length - 1 = 0
  · rw [hone]
    omega
  · have hlength := (length_digits_le_iff (n := n) (Nat.pos_of_ne_zero hone)).not
    omega

theorem lt_pow_length_digits (n : Nat) : n < 10 ^ (digits n).length :=
  (length_digits_le_iff Nat.length_toDigits_pos).1 (Nat.le_refl _)

theorem length_paddedDigits {width n : Nat} (hn : n < 10 ^ width) (hwidth : 0 < width) :
    (paddedDigits width n).length = width := by
  have hlength := (length_digits_le_iff hwidth).2 hn
  rw [paddedDigits, List.length_append, List.length_replicate]
  omega

/-! ## Zeros at the end -/

/-- Only zeros are trimmed. -/
theorem exists_eq_trimZeros_append (cs : List Char) :
    ∃ k, cs = trimZeros cs ++ List.replicate k '0' := by
  refine ⟨(cs.reverse.takeWhile (· == '0')).length, ?_⟩
  have hzeros : cs.reverse.takeWhile (· == '0') =
      List.replicate (cs.reverse.takeWhile (· == '0')).length '0' := by
    rw [List.eq_replicate_iff]
    refine ⟨rfl, fun c hc => ?_⟩
    have hzero := List.mem_takeWhile_imp (p := (· == '0')) hc
    exact eq_of_beq hzero
  rw [trimZeros, ← List.reverse_replicate, ← hzeros, ← List.reverse_append,
    List.takeWhile_append_dropWhile, List.reverse_reverse]

theorem trimZeros_trimZeros (cs : List Char) : trimZeros (trimZeros cs) = trimZeros cs := by
  rw [trimZeros, trimZeros, List.reverse_reverse, List.dropWhile_idempotent]

theorem mem_of_mem_trimZeros {cs : List Char} {c : Char} (h : c ∈ trimZeros cs) : c ∈ cs := by
  obtain ⟨k, hk⟩ := exists_eq_trimZeros_append cs
  rw [hk]
  exact List.mem_append_left _ h

/-- The digits of a fraction with some places, without the zeros at its end. -/
def fraction (places n : Nat) : List Char := trimZeros (paddedDigits places (n % 10 ^ places))

variable {places n : Nat}

theorem isDigit_of_mem_fraction {c : Char} (h : c ∈ fraction places n) : Name.isDigit c = true :=
  isDigit_of_mem_paddedDigits (mem_of_mem_trimZeros h)

theorem trimZeros_fraction (places n : Nat) :
    trimZeros (fraction places n) = fraction places n :=
  trimZeros_trimZeros _

/-- The places that are left out hold zeros. -/
theorem ofDigits_fraction (hplaces : 0 < places) : (fraction places n).length ≤ places ∧
    ofDigits (fraction places n) * 10 ^ (places - (fraction places n).length) =
      n % 10 ^ places := by
  have hlt : n % 10 ^ places < 10 ^ places := Nat.mod_lt _ (Nat.pow_pos (by decide))
  obtain ⟨k, hk⟩ := exists_eq_trimZeros_append (paddedDigits places (n % 10 ^ places))
  have hlength := length_paddedDigits hlt hplaces
  have hvalue := ofDigits_paddedDigits places (n % 10 ^ places)
  rw [hk, List.length_append, List.length_replicate] at hlength
  rw [hk, ofDigits_append, ofDigits_replicate_zero, List.length_replicate] at hvalue
  have hrest : places - (fraction places n).length = k := by
    unfold fraction
    omega
  rw [hrest]
  refine ⟨?_, hvalue⟩
  unfold fraction
  omega

/-- The whole part and the fraction make up the number. -/
theorem ofDigits_whole_fraction (hplaces : 0 < places) :
    ofDigits (digits (n / 10 ^ places) ++ fraction places n) *
      10 ^ (places - (fraction places n).length) = n := by
  obtain ⟨hlength, hvalue⟩ := ofDigits_fraction (n := n) hplaces
  rw [ofDigits_append, ofDigits_digits, Nat.add_mul, hvalue, Nat.mul_assoc, ← Nat.pow_add,
    Nat.add_sub_cancel' hlength, Nat.div_add_mod']

/-! ## Reading -/

/-- The digits at the front end where something else begins. -/
theorem spanDigits_append {cs rest : List Char} (hdigits : ∀ c ∈ cs, Name.isDigit c = true)
    (hrest : ∀ c ∈ rest.head?, Name.isDigit c = false) : spanDigits (cs ++ rest) = (cs, rest) := by
  have htake : rest.takeWhile Name.isDigit = [] := by
    cases rest with
    | nil => rfl
    | cons c rest => exact List.takeWhile_cons_of_neg (by simp [hrest c rfl])
  have hdrop : rest.dropWhile Name.isDigit = rest := by
    cases rest with
    | nil => rfl
    | cons c rest => exact List.dropWhile_cons_of_neg (by simp [hrest c rfl])
  rw [spanDigits, List.span_eq_takeWhile_dropWhile, List.takeWhile_append_of_pos hdigits,
    List.dropWhile_append_of_pos hdigits, htake, hdrop, List.append_nil]

theorem spanDigits_of_all {cs : List Char} (hdigits : ∀ c ∈ cs, Name.isDigit c = true) :
    spanDigits cs = (cs, []) := by
  have hrest : ∀ c ∈ ([] : List Char).head?, Name.isDigit c = false := by simp
  have h := spanDigits_append hdigits hrest
  rwa [List.append_nil] at h

/-- A digit is no sign. -/
theorem readSign_cons {c : Char} (hc : Name.isDigit c = true) (cs : List Char) :
    readSign (c :: cs) = (false, c :: cs) := by
  have hminus : c ≠ '-' := by
    rintro rfl
    exact absurd hc (by decide)
  have hplus : c ≠ '+' := by
    rintro rfl
    exact absurd hc (by decide)
  simp [readSign, hminus, hplus]

/-- A sign in front of a number is read as such. -/
theorem readSign_signed {cs : List Char} (hcs : ∃ c rest, cs = c :: rest ∧ Name.isDigit c = true)
    (negative : Bool) : readSign ((if negative then ['-'] else []) ++ cs) = (negative, cs) := by
  obtain ⟨c, rest, rfl, hc⟩ := hcs
  cases negative with
  | true => rfl
  | false => exact readSign_cons hc rest

/-- A number with its sign is read back. -/
theorem readInt?_signed (negative : Bool) (n : Nat) :
    readInt? ((if negative then ['-'] else []) ++ digits n) = some (signed negative n) := by
  obtain ⟨c, rest, hcons, hc⟩ := exists_digits_eq_cons n
  have hall : (digits n).all Name.isDigit = true :=
    List.all_eq_true.2 fun c hc => isDigit_of_mem_digits hc
  have hempty : (digits n).isEmpty = false := by
    rw [hcons]
    rfl
  rw [readInt?, readSign_signed ⟨c, rest, hcons, hc⟩]
  simp [hall, hempty]

end Text
end QuadStore
