import QuadStore.Number.Arithmetic
import QuadStore.Proofs.Shortest

/-!
# Rounding keeps the order

The magnitude that a fraction is rounded to depends on the fraction alone and grows with it:
`BinaryFormat.nearest_mono`. The number that a magnitude stands for is rounded to that magnitude,
and a whole number is moved by half a unit of its last place at most:
`BinaryFormat.number_nearest_near`. A quotient of patterns is the rounded quotient of their numbers:
`BinaryFormat.div_withSign`.
-/

namespace QuadStore

/-! ## Quotients -/

/-- A rounded quotient is one half away at most, and even if it is just as far away. -/
theorem two_mul_roundedQuotient {num den : Nat} (hden : 0 < den) :
    2 * (roundedQuotient num den * den) ≤ 2 * num + den ∧
      2 * num ≤ 2 * (roundedQuotient num den * den) + den ∧
      (roundedQuotient num den % 2 = 0 ∨
        2 * (roundedQuotient num den * den) < 2 * num + den ∧
          2 * num < 2 * (roundedQuotient num den * den) + den) := by
  have hdiv := Nat.div_add_mod num den
  have hmod := Nat.mod_lt num hden
  unfold roundedQuotient
  dsimp only
  rw [Nat.mul_comm] at hdiv
  generalize num / den = q at *
  generalize num % den = r at *
  have hsucc := Nat.add_one_mul q den
  split
  · omega
  · split
    · omega
    · -- a tie goes to the even neighbour
      rcases Nat.mod_two_eq_zero_or_one q with heven | hodd
      · rw [heven, Nat.add_zero]
        omega
      · rw [hodd]
        omega

theorem roundedQuotient_near {num den : Nat} (hden : 0 < den) :
    (roundedQuotient num den : ℚ) - 1 / 2 ≤ (num : ℚ) / den ∧
      (num : ℚ) / den ≤ roundedQuotient num den + 1 / 2 ∧
      (roundedQuotient num den % 2 = 0 ∨
        (roundedQuotient num den : ℚ) - 1 / 2 < (num : ℚ) / den ∧
          (num : ℚ) / den < roundedQuotient num den + 1 / 2) := by
  have hpos : (0 : ℚ) < den := by exact_mod_cast hden
  obtain ⟨hlow, hhigh, hties⟩ := @two_mul_roundedQuotient num den hden
  generalize roundedQuotient num den = n at *
  have hlow : (2 * (n * den) : ℚ) ≤ 2 * num + den := by exact_mod_cast hlow
  have hhigh : (2 * num : ℚ) ≤ 2 * (n * den) + den := by exact_mod_cast hhigh
  rw [le_div_iff₀ hpos, div_le_iff₀ hpos, lt_div_iff₀ hpos, div_lt_iff₀ hpos]
  refine ⟨by linarith, by linarith, hties.imp_right fun h => ?_⟩
  have hleft : (2 * (n * den) : ℚ) < 2 * num + den := by exact_mod_cast h.1
  have hright : (2 * num : ℚ) < 2 * (n * den) + den := by exact_mod_cast h.2
  constructor
  · linarith
  · linarith

namespace BinaryFormat

variable {f : BinaryFormat} {x y : ℚ} {k n k' n' : Nat}

/-! ## The order of magnitudes -/

/-- A number has some exponent and is nearest to a number of units of its last place. -/
structure Rounds (f : BinaryFormat) (x : ℚ) (k n : Nat) : Prop where
  low : (n : ℚ) - 1 / 2 ≤ x / 2 ^ (f.leastExponent + k)
  high : x / 2 ^ (f.leastExponent + k) ≤ n + 1 / 2
  ties : n % 2 = 0 ∨ (n : ℚ) - 1 / 2 < x / 2 ^ (f.leastExponent + k) ∧
    x / 2 ^ (f.leastExponent + k) < n + 1 / 2
  below : x / 2 ^ (f.leastExponent + k) < 2 * 2 ^ f.fractionBits
  normal : k = 0 ∨ 2 ^ f.fractionBits ≤ x / 2 ^ (f.leastExponent + k)

namespace Rounds

/-- The units are no more than those of the next exponent. -/
theorem le_units (h : f.Rounds x k n) : n ≤ 2 * 2 ^ f.fractionBits := by
  have hlt : (n : ℚ) < 2 * 2 ^ f.fractionBits + 1 := by linarith [h.low, h.below]
  have hlt : n < 2 * 2 ^ f.fractionBits + 1 := by exact_mod_cast hlt
  omega

/-- There are no fewer units than a number with this exponent has. -/
theorem units_le (h : f.Rounds x k n) : k = 0 ∨ 2 ^ f.fractionBits ≤ n := by
  refine h.normal.imp_right fun hnormal => ?_
  have hlt : (2 ^ f.fractionBits : ℚ) < n + 1 := by linarith [h.high]
  have hlt : 2 ^ f.fractionBits < n + 1 := by exact_mod_cast hlt
  omega

/-- The greater of two numbers has the greater exponent, or as great a one and as many units. -/
theorem mono (h : f.Rounds x k n) (h' : f.Rounds y k' n') (hxy : x ≤ y) :
    k * 2 ^ f.fractionBits + n ≤ k' * 2 ^ f.fractionBits + n' := by
  have hscale : ∀ j : Nat, (0 : ℚ) < 2 ^ (f.leastExponent + j) := fun j => by positivity
  have hle : ∀ j : Nat, x / 2 ^ (f.leastExponent + j) ≤ y / 2 ^ (f.leastExponent + j) :=
    fun j => div_le_div_of_nonneg_right hxy (hscale j).le
  rcases lt_trichotomy k k' with hlt | rfl | hgt
  · have hunits := h.le_units
    have hunits' := h'.units_le.resolve_left (by omega)
    have hmul := Nat.mul_le_mul_right (2 ^ f.fractionBits) (show k + 1 ≤ k' by omega)
    have hsucc := Nat.add_one_mul k (2 ^ f.fractionBits)
    omega
  · refine Nat.add_le_add_left ?_ _
    by_contra hlt
    have hsucc : (n' : ℚ) + 1 ≤ n := by
      have : n' + 1 ≤ n := by omega
      exact_mod_cast this
    -- both are just in the middle between two units, of which one is odd
    have hlow := h.low
    have hhigh := h'.high
    have hmid := hle k
    have heven := h.ties.resolve_right fun hstrict => by linarith [hstrict.1]
    have heven' := h'.ties.resolve_right fun hstrict => by linarith [hstrict.2]
    have hnext : (n : ℚ) ≤ n' + 1 := by linarith
    have hnext : n ≤ n' + 1 := by exact_mod_cast hnext
    omega
  · -- the smaller number cannot have the greater exponent
    exfalso
    have hnormal := h.normal.resolve_left (by omega)
    have hbelow := h'.below
    have hpow : (2 : ℚ) * 2 ^ (f.leastExponent + k') ≤ 2 ^ (f.leastExponent + k) := by
      rw [← zpow_one_add₀ (by norm_num)]
      exact zpow_le_zpow_right₀ (by norm_num) (by omega)
    rw [div_lt_iff₀ (hscale k')] at hbelow
    rw [le_div_iff₀ (hscale k)] at hnormal
    have hweight : (0 : ℚ) < 2 ^ f.fractionBits := by positivity
    nlinarith

/-- A whole count of units is what it is rounded to. -/
theorem eq_of_eq (h : f.Rounds x k n) {i : Nat} (hi : x = i * 2 ^ (f.leastExponent + k)) :
    n = i := by
  have hlow := h.low
  have hhigh := h.high
  rw [hi, mul_div_cancel_right₀ _ (by positivity)] at hlow hhigh
  have hle : (n : ℚ) < i + 1 := by linarith
  have hge : (i : ℚ) < n + 1 := by linarith
  have hle : n < i + 1 := by exact_mod_cast hle
  have hge : i < n + 1 := by exact_mod_cast hge
  omega

end Rounds

variable {num den num' den' : Nat}

/-- What a positive fraction is rounded to. -/
theorem exists_rounds (f : BinaryFormat) (hnum : 0 < num) (hden : 0 < den) : ∃ k n : Nat,
    f.Rounds ((num : ℚ) / den) k n ∧
      f.ofRatio num den = min f.infinity (k * 2 ^ f.fractionBits + n) := by
  obtain ⟨k, hk⟩ : ∃ k : Nat,
      max (leadingExponent num den - f.fractionBits) f.leastExponent = f.leastExponent + k :=
    ⟨(max (leadingExponent num den - f.fractionBits) f.leastExponent - f.leastExponent).toNat,
      by omega⟩
  have hscaled : 0 < den * 2 ^ (f.leastExponent + k).toNat := by positivity
  obtain ⟨hlow, hhigh, hties⟩ :=
    @roundedQuotient_near (num * 2 ^ (-(f.leastExponent + k)).toNat) _ hscaled
  rw [← div_zpow_eq] at hlow hhigh hties
  -- the exponent is the one of the leading bit, unless this one is too small
  have hleading := fun bits => le_leadingExponent_iff hnum hden (f.leastExponent + k) bits
  have hbelow := mt (hleading (f.fractionBits + 1)).2
  have hnormal := (hleading f.fractionBits).1
  rw [zpow_add_one₀ (by norm_num), zpow_natCast, not_le, not_le] at hbelow
  rw [zpow_natCast] at hnormal
  refine ⟨k, _, ⟨hlow, hhigh, hties, ?_, ?_⟩, ?_⟩
  · rw [mul_comm]
    exact hbelow (by omega)
  · rcases Nat.eq_zero_or_pos k with hzero | hpos
    · exact .inl hzero
    · exact .inr (hnormal (by omega))
  · unfold ofRatio
    rw [if_neg hnum.ne']
    dsimp only
    rw [hk, add_sub_cancel_left, Int.toNat_natCast]
    simp only [Nat.pow_eq]

/-- A greater fraction is rounded to a greater magnitude, or to the same one. -/
theorem ofRatio_mono (f : BinaryFormat) (hden : 0 < den) (hden' : 0 < den')
    (h : (num : ℚ) / den ≤ (num' : ℚ) / den') : f.ofRatio num den ≤ f.ofRatio num' den' := by
  rcases Nat.eq_zero_or_pos num with rfl | hnum
  · exact Nat.zero_le _
  have hnum' : 0 < num' := by
    have hpos : (0 : ℚ) < (num : ℚ) / den := by positivity
    have hpos' := lt_of_lt_of_le hpos h
    rcases Nat.eq_zero_or_pos num' with rfl | hnum'
    · simp at hpos'
    · exact hnum'
  obtain ⟨k, n, hrounds, hratio⟩ := f.exists_rounds hnum hden
  obtain ⟨k', n', hrounds', hratio'⟩ := f.exists_rounds hnum' hden'
  rw [hratio, hratio']
  exact min_le_min_left _ (hrounds.mono hrounds' h)

/-- The magnitude nearest to a number that is not negative. -/
def nearest (f : BinaryFormat) (x : ℚ) : Nat := f.ofRatio x.num.natAbs x.den

theorem natAbs_num_div_den (hx : 0 ≤ x) : (x.num.natAbs : ℚ) / x.den = x := by
  rw [Nat.cast_natAbs, abs_of_nonneg (Rat.num_nonneg.2 hx), Rat.num_div_den]

theorem nearest_mono (f : BinaryFormat) (hx : 0 ≤ x) (h : x ≤ y) : f.nearest x ≤ f.nearest y := by
  apply f.ofRatio_mono x.den_pos y.den_pos
  rwa [natAbs_num_div_den hx, natAbs_num_div_den (hx.trans h)]

/-- What a fraction is rounded to depends on the fraction alone. -/
theorem ofRatio_eq_nearest (f : BinaryFormat) (num : Nat) (hden : 0 < den) :
    f.ofRatio num den = f.nearest (num / den) := by
  have heq := natAbs_num_div_den (x := (num : ℚ) / den) (by positivity)
  exact le_antisymm (f.ofRatio_mono hden (Rat.den_pos _) heq.ge)
    (f.ofRatio_mono (Rat.den_pos _) hden heq.le)

/-- What a positive number is rounded to. -/
theorem exists_rounds_nearest (f : BinaryFormat) (hx : 0 < x) : ∃ k n : Nat,
    f.Rounds x k n ∧ f.nearest x = min f.infinity (k * 2 ^ f.fractionBits + n) := by
  have hnum : 0 < x.num.natAbs := Int.natAbs_pos.2 (Rat.num_pos.2 hx).ne'
  have hrounds := f.exists_rounds hnum x.den_pos
  rwa [natAbs_num_div_den hx.le] at hrounds

theorem nearest_natCast (f : BinaryFormat) (n : Nat) : f.nearest n = f.ofRatio n 1 := by
  rw [f.ofRatio_eq_nearest n one_pos, Nat.cast_one, div_one]

theorem nearest_le_infinity (f : BinaryFormat) (x : ℚ) : f.nearest x ≤ f.infinity := by
  unfold nearest ofRatio
  split
  · exact Nat.zero_le _
  · exact min_le_left _ _

theorem nearest_zero (f : BinaryFormat) : f.nearest 0 = 0 := f.nearest_natCast 0

/-! ## The numbers of magnitudes -/

/-- The number that a finite magnitude stands for. -/
def number (f : BinaryFormat) (m : Nat) : ℚ := (f.decode m).1 * 2 ^ (f.decode m).2

theorem number_nonneg (f : BinaryFormat) (m : Nat) : 0 ≤ f.number m := by
  unfold number
  positivity

theorem number_zero (f : BinaryFormat) : f.number 0 = 0 := by
  obtain ⟨k, mantissa, hdecode, hcount, -⟩ := f.exists_decode_eq 0
  obtain rfl : mantissa = 0 := by omega
  unfold number
  rw [hdecode, Nat.cast_zero, zero_mul]

/-- Units of an exponent, as many as it can have or one more, make up their number. -/
theorem number_eq (hle : n ≤ 2 * 2 ^ f.fractionBits) (hnormal : k = 0 ∨ 2 ^ f.fractionBits ≤ n) :
    f.number (k * 2 ^ f.fractionBits + n) = n * 2 ^ (f.leastExponent + k) := by
  obtain ⟨j, mantissa, hdecode, hcount, hmantissa, hown⟩ :=
    f.exists_decode_eq (k * 2 ^ f.fractionBits + n)
  have hpos : 0 < 2 ^ f.fractionBits := Nat.two_pow_pos _
  unfold number
  rw [hdecode]
  dsimp only
  generalize hweight : 2 ^ f.fractionBits = weight at *
  by_cases hnext : n = 2 * weight
  · -- the power of two belongs to the next exponent
    have hj : j = k + 1 := by
      rcases Nat.lt_trichotomy j (k + 1) with hlt | heq | hgt
      · have := Nat.mul_le_mul_right weight (show j ≤ k by omega)
        omega
      · exact heq
      · have := Nat.mul_le_mul_right weight (show k + 2 ≤ j by omega)
        have hsplit := Nat.add_mul k 2 weight
        omega
    have hmantissa : mantissa = weight := by
      have hsucc := Nat.add_one_mul k weight
      rw [hj] at hcount
      omega
    rw [hj, hmantissa, hnext, Nat.cast_add_one, ← add_assoc, zpow_add_one₀ (by norm_num)]
    push_cast
    ring
  · have hj : j = k := by
      rcases Nat.lt_trichotomy j k with hlt | heq | hgt
      · have := Nat.mul_le_mul_right weight (show j + 1 ≤ k by omega)
        have hsucc := Nat.add_one_mul j weight
        omega
      · exact heq
      · have := Nat.mul_le_mul_right weight (show k + 1 ≤ j by omega)
        have hsucc := Nat.add_one_mul k weight
        omega
    have hmantissa : mantissa = n := by
      rw [hj] at hcount
      omega
    rw [hj, hmantissa]

/-- A finite magnitude is what its own number is nearest to. -/
theorem exists_rounds_number (f : BinaryFormat) (m : Nat) :
    ∃ k n, f.Rounds (f.number m) k n ∧ m = k * 2 ^ f.fractionBits + n := by
  obtain ⟨k, n, hdecode, hcount, hbelow, hnormal⟩ := f.exists_decode_eq m
  have hunits : f.number m / 2 ^ (f.leastExponent + k) = n := by
    unfold number
    rw [hdecode]
    exact mul_div_cancel_right₀ _ (by positivity)
  refine ⟨k, n, ?_, hcount⟩
  constructor
  case below =>
    rw [hunits]
    exact_mod_cast hbelow
  case normal =>
    rw [hunits]
    exact hnormal.imp_right fun h => by exact_mod_cast h
  case ties =>
    rw [hunits]
    exact .inr ⟨by linarith, by linarith⟩
  all_goals
    rw [hunits]
    linarith

theorem number_mono (f : BinaryFormat) {m m' : Nat} (h : m ≤ m') : f.number m ≤ f.number m' := by
  obtain ⟨k, n, hrounds, hcount⟩ := f.exists_rounds_number m
  obtain ⟨k', n', hrounds', hcount'⟩ := f.exists_rounds_number m'
  -- a smaller number would be rounded to a smaller magnitude
  by_contra hlt
  have hle := hrounds'.mono hrounds (not_le.1 hlt).le
  obtain rfl : m = m' := by omega
  exact hlt le_rfl

/-- The number of a finite magnitude is rounded to the magnitude. -/
theorem nearest_number {m : Nat} (hfinite : m < f.infinity) : f.nearest (f.number m) = m := by
  obtain ⟨k, n, hrounds, hcount⟩ := f.exists_rounds_number m
  rcases (f.number_nonneg m).eq_or_lt with hzero | hpos
  · -- nothing but zero has the number zero
    rw [← hzero] at hrounds ⊢
    have hn : n = 0 := hrounds.eq_of_eq (by rw [Nat.cast_zero, zero_mul])
    have hk := hrounds.units_le
    have hweight := Nat.two_pow_pos f.fractionBits
    obtain rfl : k = 0 := by omega
    rw [nearest_zero]
    omega
  · obtain ⟨k', n', hrounds', hnearest⟩ := f.exists_rounds_nearest hpos
    have hle := hrounds.mono hrounds' le_rfl
    have hge := hrounds'.mono hrounds le_rfl
    omega

/-! ## How far rounding goes -/

/-- What is not too large is rounded to units of its last place. -/
theorem exists_number_nearest (hx : 0 < x) (hfinite : f.nearest x < f.infinity) : ∃ k n : Nat,
    f.Rounds x k n ∧ f.number (f.nearest x) = n * 2 ^ (f.leastExponent + k) := by
  obtain ⟨k, n, hrounds, hnearest⟩ := f.exists_rounds_nearest hx
  have hcount : f.nearest x = k * 2 ^ f.fractionBits + n := by omega
  refine ⟨k, n, hrounds, ?_⟩
  rw [hcount]
  exact number_eq hrounds.le_units hrounds.units_le

/-- A whole number that is not too large is moved by at most one part in as many as a mantissa
counts, both ways. -/
theorem number_nearest_near (hleast : f.leastExponent + f.fractionBits ≤ 0)
    (hfinite : f.nearest num < f.infinity) :
    |f.number (f.nearest num) - num| * (2 * 2 ^ f.fractionBits) ≤ num := by
  rcases Nat.eq_zero_or_pos num with rfl | hnum
  · rw [Nat.cast_zero, nearest_zero, number_zero, sub_zero, abs_zero, zero_mul]
  obtain ⟨k, n, hrounds, hnumber⟩ := exists_number_nearest (by exact_mod_cast hnum) hfinite
  have hscale : (0 : ℚ) < 2 ^ (f.leastExponent + k) := by positivity
  -- a whole number other than zero has a whole mantissa
  have hnormal : (2 : ℚ) ^ f.fractionBits ≤ num / 2 ^ (f.leastExponent + k) := by
    rcases hrounds.normal with rfl | hnormal
    · rw [le_div_iff₀ hscale, ← zpow_natCast, ← zpow_add₀ (by norm_num)]
      calc (2 : ℚ) ^ (f.fractionBits + (f.leastExponent + (0 : Nat)) : Int) ≤ 2 ^ (0 : Int) :=
            zpow_le_zpow_right₀ (by norm_num) (by omega)
        _ ≤ num := by
          rw [zpow_zero]
          exact_mod_cast hnum
    · exact hnormal
  have hhalf : |n * 2 ^ (f.leastExponent + k) - (num : ℚ)| ≤ 2 ^ (f.leastExponent + k) / 2 := by
    have hlow := hrounds.low
    have hhigh := hrounds.high
    rw [le_div_iff₀ hscale] at hlow
    rw [div_le_iff₀ hscale] at hhigh
    rw [abs_le]
    constructor <;> linarith
  rw [hnumber]
  calc |n * 2 ^ (f.leastExponent + k) - (num : ℚ)| * (2 * 2 ^ f.fractionBits)
      ≤ 2 ^ (f.leastExponent + k) / 2 * (2 * 2 ^ f.fractionBits) := by gcongr
    _ = 2 ^ f.fractionBits * 2 ^ (f.leastExponent + k) := by ring
    _ ≤ num := (le_div_iff₀ hscale).1 hnormal

/-- A whole number that fits in a mantissa is itself, and so is its product with a power of two. -/
theorem number_nearest_exact {a j : Nat} (ha : a ≤ 2 * 2 ^ f.fractionBits)
    (hleast : f.leastExponent ≤ 0) (hfinite : f.nearest (a * 2 ^ j) < f.infinity) :
    f.number (f.nearest (a * 2 ^ j)) = a * 2 ^ j := by
  rcases Nat.eq_zero_or_pos a with rfl | hpos
  · rw [Nat.cast_zero, zero_mul, nearest_zero, number_zero]
  obtain ⟨k, n, hrounds, hnumber⟩ := exists_number_nearest (by positivity) hfinite
  have hscale : (0 : ℚ) < 2 ^ (f.leastExponent + k) := by positivity
  obtain ⟨i, hi⟩ : ∃ i : Nat, (a * 2 ^ j : ℚ) = i * 2 ^ (f.leastExponent + k) := by
    rcases le_or_gt (f.leastExponent + k) j with hle | hgt
    · obtain ⟨d, hd⟩ : ∃ d : Nat, (j : Int) = d + (f.leastExponent + k) :=
        ⟨(j - (f.leastExponent + k)).toNat, by omega⟩
      refine ⟨a * 2 ^ d, ?_⟩
      push_cast
      rw [mul_assoc, ← zpow_natCast, ← zpow_natCast, ← zpow_add₀ (by norm_num), hd]
    · -- only the power of two past all mantissas has a greater exponent than its own
      refine ⟨2 ^ f.fractionBits, le_antisymm ?_ ?_⟩
      · push_cast
        calc (a : ℚ) * 2 ^ j ≤ (2 * 2 ^ f.fractionBits) * 2 ^ j := by
              gcongr
              exact_mod_cast ha
          _ = 2 ^ f.fractionBits * 2 ^ ((j : Int) + 1) := by
            rw [zpow_add_one₀ (by norm_num), zpow_natCast]
            ring
          _ ≤ 2 ^ f.fractionBits * 2 ^ (f.leastExponent + k) := by
            refine mul_le_mul_of_nonneg_left ?_ (by positivity)
            exact zpow_le_zpow_right₀ (by norm_num) (by omega)
      · have hnormal := hrounds.normal.resolve_left (by omega)
        rw [le_div_iff₀ hscale] at hnormal
        exact_mod_cast hnormal
  rw [hnumber, hrounds.eq_of_eq hi, ← hi]

/-! ## Quotients of patterns -/

theorem infinity_lt_signWeight (f : BinaryFormat) : f.infinity < f.signWeight := by
  have hpos := Nat.two_pow_pos f.exponentBits
  unfold infinity signWeight
  rw [Nat.pow_eq, Nat.pow_eq, Nat.pow_eq, Nat.pow_add, Nat.mul_comm (2 ^ f.fractionBits)]
  exact Nat.mul_lt_mul_of_pos_right (by omega) (Nat.two_pow_pos _)

theorem magnitude_withSign {negative : Bool} {m : Nat} (hm : m ≤ f.infinity) :
    f.magnitude (f.withSign negative m) = m := by
  have hlt := f.infinity_lt_signWeight
  unfold magnitude withSign
  cases negative with
  | false => exact Nat.mod_eq_of_lt (show m < f.signWeight by omega)
  | true =>
    rw [if_pos rfl, Nat.add_mod_left]
    exact Nat.mod_eq_of_lt (by omega)

theorem isNegative_withSign {negative : Bool} {m : Nat} (hm : m ≤ f.infinity) :
    f.isNegative (f.withSign negative m) = negative := by
  have hlt := f.infinity_lt_signWeight
  unfold isNegative withSign
  cases negative with
  | false => exact decide_eq_false (show ¬f.signWeight ≤ m by omega)
  | true => exact decide_eq_true (by simp)

/-- The quotient of two finite patterns is the rounded quotient of their numbers. -/
theorem div_withSign {s t : Bool} {m l : Nat} (hm : m < f.infinity) (hl : l < f.infinity)
    (hpos : 0 < l) : f.div (f.withSign s m) (f.withSign t l) =
      f.withSign (s != t) (f.nearest (f.number m / f.number l)) := by
  obtain ⟨k, a, hdecode, -⟩ := f.exists_decode_eq m
  obtain ⟨k', a', hdecode', hcount', -, hnormal'⟩ := f.exists_decode_eq l
  have ha' : 0 < a' := by
    have := Nat.two_pow_pos f.fractionBits
    rcases hnormal' with rfl | hnormal'
    · omega
    · omega
  have hnan : f.isNaN (f.withSign s m) = false := by
    unfold isNaN
    rw [magnitude_withSign hm.le]
    exact decide_eq_false (by omega)
  have hnan' : f.isNaN (f.withSign t l) = false := by
    unfold isNaN
    rw [magnitude_withSign hl.le]
    exact decide_eq_false (by omega)
  -- none of the special cases applies, and the quotient of the decoded numbers is rounded
  unfold div unlessNaN isInfinite isZero
  rw [hnan, hnan', magnitude_withSign hm.le, magnitude_withSign hl.le, isNegative_withSign hm.le,
    isNegative_withSign hl.le, hdecode, hdecode']
  simp only [Bool.false_eq_true, beq_iff_eq, if_false, if_neg hm.ne, if_neg hl.ne, if_neg hpos.ne']
  rw [f.ofRatio_eq_nearest _ (by rw [Nat.pow_eq]; positivity)]
  congr 2
  unfold number
  rw [hdecode, hdecode', mul_div_mul_comm, ← zpow_sub₀ (by norm_num), zpow_eq_div 2 (by norm_num),
    neg_sub]
  push_cast [Nat.pow_eq]
  rw [div_mul_div_comm]

end BinaryFormat
end QuadStore
