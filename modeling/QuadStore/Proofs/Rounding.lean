import Mathlib
import QuadStore.Number.Rounding
import QuadStore.Number.Shortest

/-!
# Rounding to the nearest

A finite magnitude stands for its mantissa times a power of two, and the numbers that are nearer to
it than to its neighbours make up an interval around it. `BinaryFormat.ofRatio_eq` says that
rounding gives the magnitude back for every number of the interval, and so that reading undoes
writing as soon as what is written lies in the interval.
-/

namespace QuadStore

/-! ## Quotients -/

/-- A quotient that is at most one half from a whole number is rounded to it, if the number is even
or the quotient is nearer. -/
theorem roundedQuotient_eq {num den n : Nat} (hden : 0 < den) (hlow : 2 * n * den ≤ 2 * num + den)
    (hhigh : 2 * num ≤ 2 * n * den + den)
    (hties : n % 2 = 0 ∨ 2 * n * den < 2 * num + den ∧ 2 * num < 2 * n * den + den) :
    roundedQuotient num den = n := by
  have hdiv := Nat.div_add_mod num den
  have hmod := Nat.mod_lt num hden
  unfold roundedQuotient
  dsimp only
  generalize num / den = q at *
  generalize num % den = r at *
  have hle : q ≤ n := by
    by_contra hlt
    have hmul := Nat.mul_le_mul_right den (show n + 1 ≤ q by omega)
    nlinarith
  have hge : n ≤ q + 1 := by
    by_contra hlt
    have hmul := Nat.mul_le_mul_right den (show q + 2 ≤ n by omega)
    nlinarith
  -- the remainder is at most one half in the one case and at least one half in the other
  obtain rfl | rfl : n = q ∨ n = q + 1 := by omega
  · have heven : 2 * r ≤ den ∧ (n % 2 = 0 ∨ 2 * r < den) := by
      refine ⟨by nlinarith, hties.imp_right fun h => by nlinarith [h.2]⟩
    split
    · rfl
    · rw [if_neg (by omega)]
      omega
  · have hodd : den ≤ 2 * r ∧ ((q + 1) % 2 = 0 ∨ den < 2 * r) := by
      refine ⟨by nlinarith, hties.imp_right fun h => by nlinarith [h.1]⟩
    rw [if_neg (by omega)]
    split
    · rfl
    · omega

/-! ## Powers with an exponent of either sign -/

/-- A power of a base whose exponent may be negative, from its positive and its negative part. -/
theorem zpow_eq_div (b : ℚ) (hb : b ≠ 0) (e : Int) :
    b ^ e = b ^ e.toNat / b ^ (-e).toNat := by
  rw [← zpow_natCast, ← zpow_natCast, ← zpow_sub₀ hb]
  congr 1
  omega

/-- A fraction is scaled by scaling its numerator or its denominator. -/
theorem div_zpow_eq (num den : Nat) (e : Int) :
    (num : ℚ) / den / 2 ^ e =
      ((num * 2 ^ (-e).toNat : ℕ) : ℚ) / ((den * 2 ^ e.toNat : ℕ) : ℚ) := by
  rw [zpow_eq_div 2 (by norm_num)]
  push_cast
  field_simp

/-! ## Leading exponents -/

theorem two_pow_log2_bounds {n : Nat} (hn : 0 < n) :
    (2 : ℚ) ^ (n.log2 : Int) ≤ n ∧ (n : ℚ) < 2 ^ ((n.log2 : Int) + 1) := by
  have hlow := Nat.log2_self_le hn.ne'
  have hhigh := Nat.lt_log2_self (n := n)
  constructor
  · exact_mod_cast hlow
  · exact_mod_cast hhigh

/-- The leading exponent is the logarithm of a fraction, rounded down. -/
theorem leadingExponent_eq {num den : Nat} (hnum : 0 < num) (hden : 0 < den) :
    leadingExponent num den = Int.log 2 ((num : ℚ) / den) := by
  have hdenq : (0 : ℚ) < den := by exact_mod_cast hden
  have hratio : (0 : ℚ) < (num : ℚ) / den := div_pos (by exact_mod_cast hnum) hdenq
  obtain ⟨hnumlow, hnumhigh⟩ := two_pow_log2_bounds hnum
  obtain ⟨hdenlow, hdenhigh⟩ := two_pow_log2_bounds hden
  unfold leadingExponent
  dsimp only
  -- the difference of the two logarithms is right or one too large
  generalize hguess : (num.log2 : Int) - den.log2 = guess
  have hlow : (2 : ℚ) ^ (guess - 1) ≤ (num : ℚ) / den := by
    rw [le_div_iff₀ hdenq]
    calc (2 : ℚ) ^ (guess - 1) * den ≤ 2 ^ (guess - 1) * 2 ^ ((den.log2 : Int) + 1) := by gcongr
      _ = 2 ^ (num.log2 : Int) := by
        rw [← zpow_add₀ (by norm_num)]
        congr 1
        omega
      _ ≤ num := hnumlow
  have hhigh : (num : ℚ) / den < 2 ^ (guess + 1) := by
    rw [div_lt_iff₀ hdenq]
    calc (num : ℚ) < 2 ^ ((num.log2 : Int) + 1) := hnumhigh
      _ = 2 ^ (guess + 1) * 2 ^ (den.log2 : Int) := by
        rw [← zpow_add₀ (by norm_num)]
        congr 1
        omega
      _ ≤ 2 ^ (guess + 1) * den := by gcongr
  have htest : den * Nat.pow 2 guess.toNat ≤ num * Nat.pow 2 (-guess).toNat ↔
      (2 : ℚ) ^ guess ≤ (num : ℚ) / den := by
    rw [zpow_eq_div 2 (by norm_num), div_le_div_iff₀ (by positivity) hdenq, Nat.pow_eq, Nat.pow_eq,
      mul_comm den]
    exact_mod_cast Iff.rfl
  have hlog := (Int.zpow_le_iff_le_log (b := 2) (by decide) hratio (x := guess - 1)).1 hlow
  have hlog' := (Int.lt_zpow_iff_log_lt (b := 2) (by decide) hratio (x := guess + 1)).1 hhigh
  have hlog'' := Int.zpow_le_iff_le_log (b := 2) (by decide) hratio (x := guess)
  split
  · rename_i h
    have := hlog''.1 (htest.1 h)
    omega
  · rename_i h
    have := mt hlog''.2 (mt htest.2 h)
    omega

/-! ## Magnitudes -/

namespace BinaryFormat

variable {f : BinaryFormat}

/-- A magnitude counts its mantissa from the mantissas with the exponents below. -/
theorem exists_decode_eq (f : BinaryFormat) (m : Nat) : ∃ k mantissa : Nat,
    f.decode m = (mantissa, f.leastExponent + k) ∧ m = k * 2 ^ f.fractionBits + mantissa ∧
      mantissa < 2 * 2 ^ f.fractionBits ∧ (k = 0 ∨ 2 ^ f.fractionBits ≤ mantissa) := by
  have hpos : 0 < 2 ^ f.fractionBits := Nat.two_pow_pos _
  have hdiv := Nat.div_add_mod m (2 ^ f.fractionBits)
  have hmod := Nat.mod_lt m hpos
  unfold decode leastExponent
  simp only [Nat.pow_eq]
  generalize 2 ^ f.fractionBits = weight at *
  by_cases hzero : m / weight = 0
  · rw [hzero] at hdiv ⊢
    exact ⟨0, m % weight, by simp; omega, by omega, by omega, .inl rfl⟩
  · obtain ⟨k, hk⟩ := Nat.exists_eq_succ_of_ne_zero hzero
    rw [hk, Nat.mul_succ, Nat.mul_comm] at hdiv
    refine ⟨k, m % weight + weight, ?_, by omega, by omega, .inr (by omega)⟩
    rw [if_neg hzero, hk]
    push_cast
    congr 1
    omega

end BinaryFormat

/-! ## Intervals -/

namespace Shortest.Interval

/-- Whether a number lies in an interval, at one of its ends only if they belong to it. -/
structure Contains (i : Interval) (x : ℚ) : Prop where
  low : (i.low : ℚ) ≤ x * i.unit
  high : x * i.unit ≤ i.high
  inside : i.closed = false → (i.low : ℚ) < x * i.unit ∧ x * i.unit < i.high

variable {f : BinaryFormat} {m mantissa : Nat} {exponent : Int} {x : ℚ}

/-- A fraction of the unit in units of the last place. -/
theorem mul_unit_eq (hdecode : f.decode m = (mantissa, exponent)) (x : ℚ) :
    x * (Interval.of f m).unit = 4 * (x / 2 ^ exponent) * 2 ^ exponent.toNat := by
  have hunit : (Interval.of f m).unit = 4 * 2 ^ (-exponent).toNat := by
    simp only [Interval.of, hdecode, Nat.pow_eq]
  rw [hunit, zpow_eq_div 2 (by norm_num)]
  push_cast
  field_simp

/-- In units of its last place, the numbers that are rounded to a magnitude are at most one half
away from the mantissa; a power of two is only half as far from its lower neighbour. -/
theorem Contains.scaled (h : (Interval.of f m).Contains x)
    (hdecode : f.decode m = (mantissa, exponent)) :
    (mantissa : ℚ) - 1 / 2 ≤ x / 2 ^ exponent ∧ x / 2 ^ exponent ≤ mantissa + 1 / 2 ∧
      (mantissa % 2 = 0 ∨
        (mantissa : ℚ) - 1 / 2 < x / 2 ^ exponent ∧ x / 2 ^ exponent < mantissa + 1 / 2) ∧
      (mantissa = 2 ^ f.fractionBits ∧ 2 * 2 ^ f.fractionBits ≤ m →
        (mantissa : ℚ) - 1 / 4 ≤ x / 2 ^ exponent) := by
  obtain ⟨hlow, hhigh, hinside⟩ := h
  rw [mul_unit_eq hdecode] at hlow hhigh hinside
  simp only [Interval.of, hdecode, Nat.pow_eq] at hlow hhigh hinside
  push_cast at hlow hhigh hinside
  have hscale : (0 : ℚ) < 2 ^ exponent.toNat := by positivity
  rw [mul_le_mul_iff_left₀ hscale] at hlow hhigh
  rw [mul_lt_mul_iff_left₀ hscale, mul_lt_mul_iff_left₀ hscale] at hinside
  generalize x / 2 ^ exponent = y at *
  -- where the subtraction of the lower end is cut off at zero, the end is only higher
  have hsub : ∀ c : Nat, (4 * mantissa : ℚ) - c ≤ ((4 * mantissa - c : Nat) : ℚ) := by
    intro c
    rw [sub_le_iff_le_add]
    exact_mod_cast (le_tsub_add : 4 * mantissa ≤ 4 * mantissa - c + c)
  have hwide := hsub 2
  have hnarrow := hsub 1
  push_cast at hwide hnarrow
  refine ⟨?_, by linarith, ?_, fun h => ?_⟩
  · split at hlow <;> linarith
  · rcases Nat.mod_two_eq_zero_or_one mantissa with heven | hodd
    · exact .inl heven
    · have hopen := hinside (by rw [hodd]; rfl)
      refine .inr ⟨?_, by linarith⟩
      have := hopen.1
      split at this <;> linarith
  · rw [if_pos h] at hlow
    linarith

end Shortest.Interval

/-! ## Rounding to a magnitude -/

namespace BinaryFormat

open Shortest

variable {f : BinaryFormat} {num den : Nat}

/-- A fraction is rounded to the whole number of units of the last place that is nearest. -/
theorem roundedQuotient_scaled {n : Nat} (hden : 0 < den) (exponent : Int)
    (hlow : (n : ℚ) - 1 / 2 ≤ (num : ℚ) / den / 2 ^ exponent)
    (hhigh : (num : ℚ) / den / 2 ^ exponent ≤ n + 1 / 2)
    (hties : n % 2 = 0 ∨ (n : ℚ) - 1 / 2 < (num : ℚ) / den / 2 ^ exponent ∧
      (num : ℚ) / den / 2 ^ exponent < n + 1 / 2) :
    roundedQuotient (num * Nat.pow 2 (-exponent).toNat) (den * Nat.pow 2 exponent.toNat) = n := by
  rw [div_zpow_eq] at hlow hhigh hties
  simp only [Nat.pow_eq]
  have hpos : 0 < den * 2 ^ exponent.toNat := by positivity
  generalize num * 2 ^ (-exponent).toNat = a at *
  generalize den * 2 ^ exponent.toNat = b at *
  have hb : (0 : ℚ) < b := by exact_mod_cast hpos
  rw [le_div_iff₀ hb] at hlow
  rw [div_le_iff₀ hb] at hhigh
  rw [lt_div_iff₀ hb, div_lt_iff₀ hb] at hties
  refine roundedQuotient_eq hpos ?_ ?_ (hties.imp_right fun h => ⟨?_, ?_⟩)
  · have : (2 * n * b : ℚ) ≤ 2 * a + b := by linarith
    exact_mod_cast this
  · have : (2 * a : ℚ) ≤ 2 * n * b + b := by linarith
    exact_mod_cast this
  · have : (2 * n * b : ℚ) < 2 * a + b := by linarith [h.1]
    exact_mod_cast this
  · have : (2 * a : ℚ) < 2 * n * b + b := by linarith [h.2]
    exact_mod_cast this

/-- The leading exponent of a fraction from its size in some unit of the last place. -/
theorem le_leadingExponent_iff (hnum : 0 < num) (hden : 0 < den) (exponent bits : Int) :
    exponent + bits ≤ leadingExponent num den ↔
      (2 : ℚ) ^ bits ≤ (num : ℚ) / den / 2 ^ exponent := by
  have hratio : (0 : ℚ) < (num : ℚ) / den :=
    div_pos (by exact_mod_cast hnum) (by exact_mod_cast hden)
  have hscale : (0 : ℚ) < 2 ^ exponent := by positivity
  rw [leadingExponent_eq hnum hden, ← Int.zpow_le_iff_le_log (b := 2) (by decide) hratio,
    le_div_iff₀ hscale, ← zpow_add₀ (by norm_num), add_comm bits]
  exact Iff.rfl

/-- What a fraction is rounded to, from its exponent and the nearest number of units. -/
theorem ofRatio_of_exponent {k n : Nat} (hnum : 0 < num) (hden : 0 < den)
    (hexponent : max (leadingExponent num den - f.fractionBits) f.leastExponent =
      f.leastExponent + k)
    (hlow : (n : ℚ) - 1 / 2 ≤ (num : ℚ) / den / 2 ^ (f.leastExponent + k))
    (hhigh : (num : ℚ) / den / 2 ^ (f.leastExponent + k) ≤ n + 1 / 2)
    (hties : n % 2 = 0 ∨ (n : ℚ) - 1 / 2 < (num : ℚ) / den / 2 ^ (f.leastExponent + k) ∧
      (num : ℚ) / den / 2 ^ (f.leastExponent + k) < n + 1 / 2) :
    f.ofRatio num den = min f.infinity (k * 2 ^ f.fractionBits + n) := by
  unfold ofRatio
  rw [if_neg hnum.ne']
  dsimp only
  rw [hexponent, roundedQuotient_scaled hden _ hlow hhigh hties, add_sub_cancel_left,
    Int.toNat_natCast, Nat.pow_eq]

/-- A fraction in the interval of a magnitude is rounded to it. -/
theorem ofRatio_eq {m : Nat} (hm : 0 < m) (hfinite : m < f.infinity) (hden : 0 < den)
    (h : (Interval.of f m).Contains ((num : ℚ) / den)) : f.ofRatio num den = m := by
  obtain ⟨k, mantissa, hdecode, hcount, hmantissa, hnormal⟩ := f.exists_decode_eq m
  obtain ⟨hlow, hhigh, hties, hnarrow⟩ := h.scaled hdecode
  have hweight : 0 < 2 ^ f.fractionBits := Nat.two_pow_pos _
  have hone : 1 ≤ mantissa := by
    rcases hnormal with rfl | hnormal <;> omega
  have hnum : 0 < num := by
    rcases Nat.eq_zero_or_pos num with rfl | hnum
    · have : (1 : ℚ) ≤ mantissa := by exact_mod_cast hone
      rw [Nat.cast_zero, zero_div, zero_div] at hlow
      linarith
    · exact hnum
  have hleading := fun bits => le_leadingExponent_iff hnum hden (f.leastExponent + k) bits
  have hmantissaq : (mantissa : ℚ) + 1 ≤ 2 * 2 ^ f.fractionBits := by exact_mod_cast hmantissa
  have hweightq : (1 : ℚ) ≤ 2 ^ f.fractionBits := by exact_mod_cast hweight
  have hbits := hleading f.fractionBits
  have hbits' := hleading (f.fractionBits + 1)
  rw [zpow_natCast] at hbits
  rw [zpow_add_one₀ (by norm_num), zpow_natCast] at hbits'
  -- the exponent is that of the magnitude, unless the fraction is just below a power of two
  by_cases hown : k = 0 ∨ (2 : ℚ) ^ f.fractionBits ≤ (num : ℚ) / den / 2 ^ (f.leastExponent + k)
  · have hupper := mt hbits'.1 (by linarith)
    rw [ofRatio_of_exponent hnum hden _ hlow hhigh hties, ← hcount, min_eq_right hfinite.le]
    rcases hown with rfl | hown
    · omega
    · have := hbits.2 hown
      omega
  · obtain ⟨hk, hbelow⟩ := not_or.1 hown
    obtain ⟨k, rfl⟩ := Nat.exists_eq_add_one_of_ne_zero hk
    push Not at hbelow
    have hsucc := Nat.add_one_mul k (2 ^ f.fractionBits)
    have hpower : mantissa = 2 ^ f.fractionBits := by
      have hlt : (mantissa : ℚ) < 2 ^ f.fractionBits + 1 := by linarith
      have hlt : mantissa < 2 ^ f.fractionBits + 1 := by exact_mod_cast hlt
      omega
    -- the last place below the power of two is half as large, so that twice as many units count
    have hquarter := hnarrow ⟨hpower, by omega⟩
    have hpowerq : (mantissa : ℚ) = 2 ^ f.fractionBits := by exact_mod_cast hpower
    have htwice : (num : ℚ) / den / 2 ^ (f.leastExponent + k) =
        2 * ((num : ℚ) / den / 2 ^ (f.leastExponent + (k + 1 : Nat))) := by
      rw [Nat.cast_add_one, ← add_assoc, zpow_add_one₀ (by norm_num)]
      field_simp
    have hbits'' := hleading (f.fractionBits - 1)
    rw [zpow_sub_one₀ (by norm_num), zpow_natCast] at hbits''
    have hlower := hbits''.2 (by linarith)
    have hupper := mt hbits.1 (by linarith)
    rw [ofRatio_of_exponent (k := k) (n := 2 * mantissa) hnum hden (by omega) ?_ ?_
      (.inl (Nat.mul_mod_right _ _)), min_eq_right]
    · omega
    · omega
    · rw [htwice, Nat.cast_mul, Nat.cast_two]
      linarith
    · rw [htwice, Nat.cast_mul, Nat.cast_two]
      linarith

end BinaryFormat
end QuadStore
