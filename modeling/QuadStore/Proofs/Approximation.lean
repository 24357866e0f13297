import QuadStore.Eval.SortOrder
import QuadStore.Proofs.Nearness

/-!
# Approximations of exact numbers

The double that stands for a decimal is rounded twice: the numerator is rounded, divided by an exact
power of ten, and the quotient is rounded again. Two decimals that are not too close to each other
for this, in the sense of `Decimal.Resolved`, have approximations in their own order, and so are
sorted by their values: `NumberKey.order_eq_lt`.
-/

namespace QuadStore
namespace Xsd

open BinaryFormat

/-! ## Doubles -/

namespace Double

/-- A whole number of 128 bits is far below the greatest double. -/
theorem nearest_lt_infinity {n : Nat} (hn : n ≤ 2 ^ 127) :
    binary64.nearest n < binary64.infinity := by
  have hgreatest : binary64.ofRatio (2 ^ 127) 1 < binary64.infinity := by decide
  rw [← nearest_natCast] at hgreatest
  refine lt_of_le_of_lt (binary64.nearest_mono (Nat.cast_nonneg n) ?_) hgreatest
  exact_mod_cast hn

theorem bits_ofBits_withSign (negative : Bool) {m : Nat} (hm : m ≤ binary64.infinity) :
    (ofBits (binary64.withSign negative m)).bits.toNat = binary64.withSign negative m := by
  have hinfinity : binary64.infinity < 2 ^ 63 := by decide
  have hweight : binary64.signWeight = 2 ^ 63 := by decide
  have hlt : binary64.withSign negative m < 2 ^ 64 := by
    unfold withSign
    split
    · omega
    · omega
  exact Nat.mod_eq_of_lt hlt

theorem bits_ofInt (n : Int) :
    (ofInt n).bits.toNat = binary64.withSign (n < 0) (binary64.nearest n.natAbs) := by
  unfold ofInt BinaryFormat.ofInt
  rw [← nearest_natCast, bits_ofBits_withSign _ (binary64.nearest_le_infinity _)]

end Double

namespace Decimal

open Double (nearest_lt_infinity bits_ofBits_withSign bits_ofInt)

/-! ## Numerators -/

theorem pow_finalZeros_dvd (limit : Nat) (n : Int) : (10 : Int) ^ finalZeros limit n ∣ n := by
  unfold finalZeros
  induction limit with
  | zero => simp
  | succ limit ih =>
    rw [List.range_succ, List.countP_append, List.countP_singleton]
    cases hlast : n % Nat.pow 10 (limit + 1) == 0 with
    | false => exact ih
    | true =>
      have hdvd : (10 : Int) ^ (limit + 1) ∣ n := by
        have hmod := eq_of_beq hlast
        rw [Nat.pow_eq] at hmod
        push_cast at hmod
        exact Int.dvd_of_emod_eq_zero hmod
      -- what a power divides, all smaller ones divide
      have hall : (List.range limit).countP (fun k => n % Nat.pow 10 (k + 1) == 0) = limit := by
        refine (List.countP_eq_length.2 fun k hk => ?_).trans List.length_range
        have hle : k + 1 ≤ limit + 1 := by have := List.mem_range.1 hk; omega
        rw [beq_iff_eq, Nat.pow_eq]
        push_cast
        exact Int.emod_eq_zero_of_dvd ((pow_dvd_pow 10 hle).trans hdvd)
      rw [hall]
      exact hdvd

theorem finalZeros_le (limit : Nat) (n : Int) : finalZeros limit n ≤ limit := by
  unfold finalZeros
  exact List.countP_le_length.trans_eq List.length_range

/-- The number of places after the point that are used. -/
def scale (d : Decimal) : Nat := places - finalZeros places d.units

/-- The decimal without its point. -/
def numerator (d : Decimal) : Int := d.units.tdiv (Nat.pow 10 (finalZeros places d.units))

theorem numerator_mul (d : Decimal) : d.numerator * 10 ^ finalZeros places d.units = d.units := by
  unfold numerator
  rw [Nat.pow_eq]
  push_cast
  exact Int.tdiv_mul_cancel (pow_finalZeros_dvd places d.units)

/-- The absolute value of a decimal. -/
def size (d : Decimal) : ℚ := (d.numerator.natAbs : ℚ) / 10 ^ d.scale

theorem size_eq (d : Decimal) : d.size = |(d.units : ℚ)| / 10 ^ places := by
  have hsplit : (10 : ℚ) ^ places = 10 ^ d.scale * 10 ^ finalZeros places d.units := by
    rw [← pow_add]
    congr 1
    have := finalZeros_le places d.units
    unfold scale
    omega
  have hunits : (d.units : ℚ) = d.numerator * 10 ^ finalZeros places d.units := by
    exact_mod_cast d.numerator_mul.symm
  have hpos : (0 : ℚ) < 10 ^ finalZeros places d.units := by positivity
  unfold size
  rw [hunits, hsplit, abs_mul, abs_of_pos hpos, mul_div_mul_right _ _ hpos.ne', Nat.cast_natAbs,
    Int.cast_abs]

theorem numerator_neg_iff (d : Decimal) : d.numerator < 0 ↔ d.units < 0 := by
  have hpos : (0 : Int) < 10 ^ finalZeros places d.units := by positivity
  rw [← mul_lt_mul_iff_left₀ hpos, zero_mul, d.numerator_mul]

theorem natAbs_numerator_le (d : Decimal) : d.numerator.natAbs ≤ 2 ^ 127 := by
  have hle : d.numerator.natAbs ≤ d.units.natAbs := by
    rw [← d.numerator_mul, Int.natAbs_mul]
    exact Nat.le_mul_of_pos_right _ (Int.natAbs_pos.2 (by positivity))
  have hfits := d.fits
  simp only [Fits, Nat.pow_eq] at hfits
  omega

/-! ## What is held of a decimal -/

/-- The rounded numerator over the power of ten that it is divided by. -/
def held (d : Decimal) : ℚ :=
  binary64.number (binary64.nearest d.numerator.natAbs) / 10 ^ d.scale

theorem held_nonneg (d : Decimal) : 0 ≤ d.held :=
  div_nonneg (binary64.number_nonneg _) (by positivity)

/-- The powers of ten below a numerator are doubles. -/
theorem number_nearest_pow (d : Decimal) :
    binary64.number (binary64.nearest (10 ^ d.scale)) = 10 ^ d.scale := by
  have hscale : d.scale ≤ 18 := Nat.sub_le _ _
  have hfive : 5 ^ d.scale ≤ 5 ^ 18 := Nat.pow_le_pow_right (by decide) hscale
  have hten : 10 ^ d.scale ≤ 10 ^ 18 := Nat.pow_le_pow_right (by decide) hscale
  have hsplit : (10 : ℚ) ^ d.scale = (5 ^ d.scale : Nat) * 2 ^ d.scale := by
    push_cast
    rw [← mul_pow]
    norm_num
  have hfinite := nearest_lt_infinity (n := 10 ^ d.scale) (by omega)
  push_cast at hfinite
  rw [hsplit] at hfinite ⊢
  exact number_nearest_exact (hfive.trans (by decide)) (by decide) hfinite

/-- The double that stands for a decimal is nearest to what is held of it. -/
theorem bits_ofDecimal (d : Decimal) :
    (Double.ofDecimal d).bits.toNat =
      binary64.withSign (d.units < 0) (binary64.nearest d.held) := by
  have hnum := nearest_lt_infinity d.natAbs_numerator_le
  have hden : 10 ^ d.scale ≤ 2 ^ 127 :=
    (Nat.pow_le_pow_right (by decide) (Nat.sub_le _ _ : d.scale ≤ 18)).trans (by decide)
  -- the divisor is its own number, and so it is not zero
  have hpos : 0 < binary64.nearest ((10 ^ d.scale : Nat) : ℚ) := by
    refine Nat.pos_of_ne_zero fun hzero => ?_
    have hnumber := d.number_nearest_pow
    push_cast at hzero
    rw [hzero, number_zero] at hnumber
    exact absurd hnumber.symm (by positivity)
  have hdiv := div_withSign (s := decide (d.numerator < 0)) (t := false) hnum
    (nearest_lt_infinity hden) hpos
  show (Double.ofBits (binary64.div (Double.ofInt d.numerator).bits.toNat
    (Double.ofInt (Nat.pow 10 d.scale : Nat)).bits.toNat)).bits.toNat = _
  have hsign : decide (((10 ^ d.scale : Nat) : Int) < 0) = false :=
    decide_eq_false (not_lt.2 (Int.natCast_nonneg _))
  rw [bits_ofInt, bits_ofInt, Nat.pow_eq, Int.natAbs_natCast, hsign, hdiv,
    bits_ofBits_withSign _ (binary64.nearest_le_infinity _)]
  push_cast
  rw [d.number_nearest_pow, Bool.bne_false, decide_eq_decide.2 d.numerator_neg_iff]
  rfl

/-- Every integer stands for the same double as the decimal of its value. -/
theorem ofDecimal_ofInteger (n : Integer) :
    Double.ofDecimal (.ofInteger n) = Double.ofInt n.value := by
  have hzeros : finalZeros places (ofInteger n).units = places := by
    refine (List.countP_eq_length.2 fun k hk => ?_).trans List.length_range
    have hle : k + 1 ≤ places := List.mem_range.1 hk
    show (n.value * (Nat.pow 10 places : Nat) % (Nat.pow 10 (k + 1) : Nat) == 0) = true
    rw [beq_iff_eq, Nat.pow_eq, Nat.pow_eq]
    push_cast
    exact Int.emod_eq_zero_of_dvd ((pow_dvd_pow 10 hle).mul_left _)
  have hscale : (ofInteger n).scale = 0 := by
    unfold scale
    rw [hzeros, Nat.sub_self]
  have hnumerator : (ofInteger n).numerator = n.value := by
    unfold numerator
    rw [hzeros]
    exact Int.mul_tdiv_cancel _ (by decide)
  have hsign : (ofInteger n).units < 0 ↔ n.value < 0 := by
    rw [← numerator_neg_iff, hnumerator]
  have hfinite := nearest_lt_infinity (ofInteger n).natAbs_numerator_le
  have hbits := (ofInteger n).bits_ofDecimal
  unfold held at hbits
  rw [hscale, pow_zero, div_one, nearest_number hfinite, hnumerator, decide_eq_decide.2 hsign,
    ← bits_ofInt] at hbits
  exact congrArg Double.mk (UInt64.toNat_inj.1 hbits)

/-! ## Decimals that are far enough apart -/

/-- A decimal whose numerator is a double, or that has no places, is only rounded once. -/
def RoundedOnce (d : Decimal) : Prop := d.scale = 0 ∨ d.numerator.natAbs ≤ 2 ^ 53

/-- Two decimals that rounding twice does not bring out of order: they use the same number of
places, or both are only rounded once, or they differ by one part in 2⁵² of the greater one at
least. -/
inductive Resolved (x y : Decimal) : Prop
  | level (h : x.scale = y.scale)
  | once (hx : x.RoundedOnce) (hy : y.RoundedOnce)
  | apart (h : max |x.units| |y.units| ≤ 2 ^ 52 * |y.units - x.units|)

variable {x y : Decimal}

theorem nearest_held_of_roundedOnce (h : x.RoundedOnce) :
    binary64.nearest x.held = binary64.nearest x.size := by
  have hfinite := nearest_lt_infinity x.natAbs_numerator_le
  unfold held size
  rcases h with hscale | hsmall
  · -- nothing is divided, and what has been rounded stays as it is
    rw [hscale, pow_zero, div_one, div_one, nearest_number hfinite]
  · have hexact := number_nearest_exact (f := binary64) (j := 0) hsmall (by decide)
    rw [pow_zero, mul_one] at hexact
    rw [hexact hfinite]

/-- What is held of a decimal is at most one part in 2⁵³ away from it. -/
theorem held_near (d : Decimal) : |d.held - d.size| * 2 ^ 53 ≤ d.size := by
  have hnear := number_nearest_near (f := binary64) (by decide)
    (nearest_lt_infinity d.natAbs_numerator_le)
  have hscale : (0 : ℚ) < 10 ^ d.scale := by positivity
  unfold held size
  rw [← sub_div, abs_div, abs_of_pos hscale, div_mul_eq_mul_div]
  refine div_le_div_of_nonneg_right ?_ hscale.le
  calc _ = |binary64.number (binary64.nearest d.numerator.natAbs) - d.numerator.natAbs| *
        (2 * 2 ^ binary64.fractionBits) := by
        congr 1
        norm_num [binary64]
    _ ≤ _ := hnear

/-- Of two decimals with one sign that are far enough apart, more is held of the greater one. -/
theorem Resolved.nearest_held_le (h : x.Resolved y) (hle : |x.units| ≤ |y.units|)
    (hsign : |y.units - x.units| = |y.units| - |x.units|) :
    binary64.nearest x.held ≤ binary64.nearest y.held := by
  have hsize : x.size ≤ y.size := by
    rw [size_eq, size_eq]
    refine div_le_div_of_nonneg_right ?_ (by positivity)
    exact_mod_cast hle
  cases h with
  | level h =>
    -- the same is done to both numerators at each step, and each step keeps the order
    refine binary64.nearest_mono x.held_nonneg ?_
    have hnum : (x.numerator.natAbs : ℚ) ≤ y.numerator.natAbs := by
      unfold size at hsize
      rwa [h, div_le_div_iff_of_pos_right (by positivity)] at hsize
    unfold held
    rw [h]
    refine div_le_div_of_nonneg_right ?_ (by positivity)
    exact binary64.number_mono (binary64.nearest_mono (Nat.cast_nonneg _) hnum)
  | once hx hy =>
    rw [nearest_held_of_roundedOnce hx, nearest_held_of_roundedOnce hy]
    refine binary64.nearest_mono ?_ hsize
    unfold size
    positivity
  | apart h =>
    refine binary64.nearest_mono x.held_nonneg ?_
    -- both are moved by less than half of their distance
    have hfar : y.size ≤ 2 ^ 52 * (y.size - x.size) := by
      rw [max_eq_right hle, hsign] at h
      have hunits : |(y.units : ℚ)| ≤ 2 ^ 52 * (|(y.units : ℚ)| - |(x.units : ℚ)|) := by
        exact_mod_cast h
      rw [size_eq, size_eq, ← sub_div, ← mul_div_assoc]
      exact div_le_div_of_nonneg_right hunits (by positivity)
    have hx := le_abs_self (x.held - x.size)
    have hy := neg_abs_le (y.held - y.size)
    have hxnear := x.held_near
    have hynear := y.held_near
    linarith

end Decimal

/-! ## The order of exact numbers -/

theorem totalKey_ofDecimal (d : Decimal) :
    binary64.totalKey (Double.ofDecimal d).bits.toNat =
      if d.units < 0 then -(binary64.nearest d.held : Int) - 1 else binary64.nearest d.held := by
  have hle := binary64.nearest_le_infinity d.held
  unfold totalKey
  rw [Decimal.bits_ofDecimal, isNegative_withSign hle, magnitude_withSign hle]
  simp only [decide_eq_true_eq]

/-- Decimals that are far enough apart have approximations in their order. -/
theorem Decimal.Resolved.totalKey_le {x y : Decimal} (h : x.Resolved y) (hle : x.units ≤ y.units) :
    binary64.totalKey (Double.ofDecimal x).bits.toNat ≤
      binary64.totalKey (Double.ofDecimal y).bits.toNat := by
  have hsymm : y.Resolved x := by
    cases h with
    | level h => exact .level h.symm
    | once hx hy => exact .once hy hx
    | apart h => exact .apart (by rwa [max_comm, abs_sub_comm])
  rw [totalKey_ofDecimal, totalKey_ofDecimal]
  -- of two negative numbers the smaller one has the greater magnitude
  rcases lt_or_ge x.units 0 with hx | hx
  · rw [if_pos hx]
    rcases lt_or_ge y.units 0 with hy | hy
    · have := hsymm.nearest_held_le (by rw [abs_of_neg hx, abs_of_neg hy]; omega)
        (by rw [abs_of_neg hx, abs_of_neg hy, abs_of_nonpos (by omega)]; omega)
      rw [if_pos hy]
      omega
    · rw [if_neg (not_lt.2 hy)]
      omega
  · have hy := hx.trans hle
    have := h.nearest_held_le (by rwa [abs_of_nonneg hx, abs_of_nonneg hy])
      (by rw [abs_of_nonneg hx, abs_of_nonneg hy, abs_of_nonneg (by omega)])
    rw [if_neg (not_lt.2 hx), if_neg (not_lt.2 hy)]
    omega

/-- The sort key of a decimal. -/
def NumberKey.ofDecimal (d : Decimal) : NumberKey := ⟨Double.ofDecimal d, some d⟩

/-- The smaller one of two decimals that are far enough apart is sorted before the greater one. -/
theorem NumberKey.order_eq_lt {x y : Decimal} (h : x.Resolved y) (hlt : x.units < y.units) :
    (NumberKey.ofDecimal x).order (.ofDecimal y) = .lt := by
  have hexact : Decimal.order x y = .lt := compare_lt_iff_lt.2 hlt
  show (compare (binary64.totalKey (Double.ofDecimal x).bits.toNat)
    (binary64.totalKey (Double.ofDecimal y).bits.toNat)).then (Decimal.order x y) = .lt
  -- where the approximations are the same, the exact values decide
  rcases (h.totalKey_le hlt.le).lt_or_eq with hkey | hkey
  · rw [compare_lt_iff_lt.2 hkey]
    rfl
  · rw [hkey, compare_eq_iff_eq.2 rfl]
    exact hexact

end Xsd
end QuadStore
