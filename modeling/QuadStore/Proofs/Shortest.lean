import QuadStore.Proofs.Digits
import QuadStore.Proofs.Rounding
import QuadStore.Xsd.Floating

/-!
# Shortest texts are read back

The shortest digits of a magnitude are looked for on one decimal grid after the other. What is found
lies in the interval of the magnitude; and since a grid with no multiple in the interval is at least
as wide as the interval, seventeen digits are enough. Together with `BinaryFormat.ofRatio_eq`, the
text of a number that is no NaN is read back as the same number.
-/

namespace QuadStore

/-! ## Intervals of magnitudes -/

namespace Shortest.Interval

/-- The number lies strictly between the ends. -/
structure Proper (i : Interval) : Prop where
  low : i.low < i.value
  high : i.value < i.high
  unit : 0 < i.unit

theorem proper_of {f : BinaryFormat} {m : Nat} (hm : 0 < m) : (Interval.of f m).Proper := by
  obtain ⟨k, mantissa, hdecode, hcount, -, hnormal⟩ := f.exists_decode_eq m
  have hone : 1 ≤ mantissa := by
    have := Nat.two_pow_pos f.fractionBits
    rcases hnormal with rfl | hnormal <;> omega
  have hscale := Nat.two_pow_pos (f.leastExponent + k).toNat
  simp only [Interval.of, hdecode, Nat.pow_eq]
  exact ⟨Nat.mul_lt_mul_of_pos_right (by split <;> omega) hscale,
    Nat.mul_lt_mul_of_pos_right (by omega) hscale, by positivity⟩

variable {i : Interval}

/-! ## Grids -/

/-- A multiple of a power of ten over the denominator of the interval. -/
theorem contains_iff (d up down : Nat) :
    i.Contains (d * 10 ^ up / 10 ^ down) ↔
      i.low * 10 ^ down ≤ d * (10 ^ up * i.unit) ∧ d * (10 ^ up * i.unit) ≤ i.high * 10 ^ down ∧
        (i.closed = false → i.low * 10 ^ down < d * (10 ^ up * i.unit) ∧
          d * (10 ^ up * i.unit) < i.high * 10 ^ down) := by
  have hpow : (0 : ℚ) < 10 ^ down := by positivity
  have hmul : (d * 10 ^ up / 10 ^ down : ℚ) * i.unit = d * (10 ^ up * i.unit) / 10 ^ down := by
    ring
  constructor
  · rintro ⟨hlow, hhigh, hinside⟩
    rw [hmul, le_div_iff₀ hpow] at hlow
    rw [hmul, div_le_iff₀ hpow] at hhigh
    rw [hmul, lt_div_iff₀ hpow, div_lt_iff₀ hpow] at hinside
    refine ⟨by exact_mod_cast hlow, by exact_mod_cast hhigh, by exact_mod_cast hinside⟩
  · rintro ⟨hlow, hhigh, hinside⟩
    constructor
    · rw [hmul, le_div_iff₀ hpow]
      exact_mod_cast hlow
    · rw [hmul, div_le_iff₀ hpow]
      exact_mod_cast hhigh
    · rw [hmul, lt_div_iff₀ hpow, div_lt_iff₀ hpow]
      exact_mod_cast hinside

/-- The two multiples next to the number are tried; if neither lies in the interval, then no step
of the grid is shorter than the interval. -/
theorem digitsOn?_spec (hi : i.Proper) (up down : Nat) :
    (∀ d, i.digitsOn? up down = some d → i.Contains (d * 10 ^ up / 10 ^ down)) ∧
      (i.digitsOn? up down = none → (i.high - i.low) * 10 ^ down ≤ 10 ^ up * i.unit) := by
  simp only [contains_iff]
  obtain ⟨hlow, hhigh, hunit⟩ := hi
  have hpow : 0 < 10 ^ down := by positivity
  have hstep : 0 < 10 ^ up * i.unit := by positivity
  have hlow := Nat.mul_lt_mul_of_pos_right hlow hpow
  have hhigh := Nat.mul_lt_mul_of_pos_right hhigh hpow
  -- the number lies between two neighbours on the grid
  have hbelow := Nat.div_mul_le_self (i.value * 10 ^ down) (10 ^ up * i.unit)
  have habove := Nat.lt_mul_div_succ (i.value * 10 ^ down) hstep
  rw [Nat.mul_comm (10 ^ up * i.unit)] at habove
  unfold digitsOn?
  simp only [Nat.pow_eq, Nat.sub_mul]
  generalize i.value * 10 ^ down / (10 ^ up * i.unit) = q at *
  generalize i.value * 10 ^ down = value at *
  generalize i.low * 10 ^ down = low at *
  generalize i.high * 10 ^ down = high at *
  generalize 10 ^ up * i.unit = step at *
  have hsucc := Nat.add_one_mul q step
  have hhas : (if i.closed then low ≤ q * step else low < q * step) ↔
      low ≤ q * step ∧ q * step ≤ high ∧
        (i.closed = false → low < q * step ∧ q * step < high) := by
    cases i.closed <;> simp <;> omega
  have hhas' : (if i.closed then (q + 1) * step ≤ high else (q + 1) * step < high) ↔
      low ≤ (q + 1) * step ∧ (q + 1) * step ≤ high ∧
        (i.closed = false → low < (q + 1) * step ∧ (q + 1) * step < high) := by
    cases i.closed <;> simp <;> omega
  simp only [hhas, hhas']
  constructor
  · intro d h
    split_ifs at h with hboth hnear hbelow' habove' <;> obtain rfl := Option.some.inj h
    · exact hboth.1
    · exact hboth.2
    · exact hbelow'
    · exact habove'
  · intro h
    split_ifs at h with hboth hbelow' habove'
    have hlow' := mt hhas.1 hbelow'
    have hhigh' := mt hhas'.1 habove'
    cases hclosed : i.closed <;> simp [hclosed] at hlow' hhigh' <;> omega

/-! ## Places -/

/-- What holds of numbers from zero up to some place only fails at their count, which is the first
number that it fails at. -/
theorem not_countP_range {p : Nat → Bool} (hp : ∀ a b, a ≤ b → p b = true → p a = true) {n : Nat}
    (hn : p n = false) : p ((List.range n).countP p) = false := by
  induction n with
  | zero => exact hn
  | succ n ih =>
    rw [List.range_succ, List.countP_append, List.countP_singleton]
    cases hlast : p n with
    | false => exact ih hlast
    | true =>
      have hall : (List.range n).countP p = n := by
        refine (List.countP_eq_length.2 fun k hk => ?_).trans List.length_range
        exact hp k n (List.mem_range.1 hk).le hlast
      rw [hall]
      exact hn

/-- A place after the zeros that stand behind the point is reached. -/
theorem unit_le_mul_pow_zeros {n : Nat} (hreach : i.unit ≤ i.value * 10 ^ (n + 1)) :
    i.unit ≤ i.value *
      10 ^ ((List.range n).countP (fun k => i.value * Nat.pow 10 (k + 1) < i.unit) + 1) := by
  have hcount := not_countP_range (p := fun k => i.value * Nat.pow 10 (k + 1) < i.unit)
    (n := n) ?_ (decide_eq_false (Nat.not_lt.2 hreach))
  · exact Nat.not_lt.1 (of_decide_eq_false hcount)
  · intro a b hab hb
    refine decide_eq_true (lt_of_le_of_lt (Nat.mul_le_mul_left _ ?_) (of_decide_eq_true hb))
    exact Nat.pow_le_pow_right (by decide) (by omega)

/-- The first digit other than zero stands just after the point position. -/
theorem pow_pointPosition_le (hi : i.Proper) (hreach : i.unit ≤ i.value * 10 ^ (400 + 1)) :
    (10 : ℚ) ^ (i.pointPosition - 1) * i.unit ≤ i.value := by
  unfold pointPosition
  split
  · rename_i hle
    have hpos : 0 < i.value / i.unit := Nat.div_pos hle hi.unit
    obtain ⟨c, cs, hcons, -⟩ := Text.exists_digits_eq_cons (i.value / i.unit)
    have hpow := Text.pow_length_digits_le hpos.ne'
    rw [hcons, List.length_cons] at hpow ⊢
    rw [Nat.cast_add_one, add_sub_cancel_right, zpow_natCast]
    exact_mod_cast (Nat.mul_le_mul_right _ hpow).trans (Nat.div_mul_le_self _ _)
  · have hle := unit_le_mul_pow_zeros hreach
    generalize (List.range 400).countP _ = zeros at *
    rw [Int.negOfNat_eq, Int.ofNat_eq_natCast, ← neg_add', ← Nat.cast_add_one, zpow_neg,
      zpow_natCast, inv_mul_le_iff₀ (by positivity), mul_comm]
    exact_mod_cast hle

/-- Seventeen digits are enough for an interval that is not too narrow. -/
theorem contains_digits (hi : i.Proper) (hreach : i.unit ≤ i.value * 10 ^ (400 + 1))
    (hwide : i.value < (i.high - i.low) * 10 ^ 16) :
    i.Contains (i.digits.1 * 10 ^ i.digits.2) := by
  have hpow := pow_pointPosition_le hi hreach
  clear hreach
  unfold digits
  cases hfound : (List.range 17).findSome? fun k =>
    let exponent := i.pointPosition - (k + 1 : Nat)
    (i.digitsOn? exponent.toNat (-exponent).toNat).map fun d => (d, exponent) with
  | some found =>
    obtain ⟨k, -, hk⟩ := List.exists_of_findSome?_eq_some hfound
    obtain ⟨d, hd, rfl⟩ := Option.map_eq_some_iff.1 hk
    have hcontains := (digitsOn?_spec hi _ _).1 d hd
    rw [mul_div_assoc, ← zpow_eq_div 10 (by norm_num)] at hcontains
    exact hcontains
  | none =>
    -- then not even the finest grid has a multiple in the interval, which is too wide for that
    have hnone := List.findSome?_eq_none_iff.1 hfound 16 (by decide)
    have hnarrow := (digitsOn?_spec hi _ _).2 (Option.map_eq_none_iff.1 hnone)
    have hnarrow : ((i.high - i.low : Nat) : ℚ) ≤ 10 ^ (i.pointPosition - 17) * i.unit := by
      rw [zpow_eq_div 10 (by norm_num), div_mul_eq_mul_div, le_div_iff₀ (by positivity)]
      exact_mod_cast hnarrow
    have hwide : (i.value : ℚ) < ((i.high - i.low : Nat) : ℚ) * 10 ^ 16 := by exact_mod_cast hwide
    have hsplit : (10 : ℚ) ^ (i.pointPosition - 1) = 10 ^ (i.pointPosition - 17) * 10 ^ 16 := by
      rw [← zpow_natCast, ← zpow_add₀ (by norm_num)]
      congr 1
      push_cast
      ring
    have hscaled := mul_le_mul_of_nonneg_right hnarrow (by norm_num : (0 : ℚ) ≤ 10 ^ 16)
    rw [hsplit] at hpow
    linarith only [hpow, hwide, hscaled]

end Shortest.Interval

/-! ## Sizes of formats -/

/-- A format of up to 64 bits. -/
structure BinaryFormat.Small (f : BinaryFormat) : Prop where
  fraction : f.fractionBits ≤ 52
  exponent : f.exponentBits ≤ 11

theorem BinaryFormat.small_binary32 : binary32.Small := ⟨by decide, by decide⟩

theorem BinaryFormat.small_binary64 : binary64.Small := ⟨by decide, by decide⟩

/-- Three binary places are less than a decimal one. -/
theorem two_pow_three_mul_le (n : Nat) : 2 ^ (3 * n) ≤ 10 ^ n := by
  rw [Nat.pow_mul]
  exact Nat.pow_le_pow_left (by decide) n

theorem two_zpow_three_mul_le (n : Nat) : (2 : ℚ) ^ (3 * n : Int) ≤ 10 ^ (n : Int) := by
  exact_mod_cast two_pow_three_mul_le n

namespace BinaryFormat.Small

open Shortest

variable {f : BinaryFormat} {m : Nat}

/-- The exponents of a small format. -/
theorem exponent_bounds (hf : f.Small) (hfinite : m < f.infinity) {k mantissa : Nat}
    (hcount : m = k * 2 ^ f.fractionBits + mantissa) :
    -1074 ≤ f.leastExponent + k ∧ f.leastExponent + k + f.fractionBits ≤ 1024 := by
  have hhalf : 2 ^ (f.exponentBits - 1) ≤ 2 ^ 10 :=
    Nat.pow_le_pow_right (by decide) (by have := hf.exponent; omega)
  have htwice : 2 ^ f.exponentBits ≤ 2 * 2 ^ (f.exponentBits - 1) := by
    rw [← pow_succ']
    exact Nat.pow_le_pow_right (by decide) (by omega)
  have hk : k < 2 ^ f.exponentBits - 1 := by
    unfold infinity at hfinite
    rw [Nat.pow_eq, Nat.pow_eq] at hfinite
    refine Nat.lt_of_mul_lt_mul_right (a := 2 ^ f.fractionBits) ?_
    omega
  have hfraction := hf.fraction
  unfold leastExponent
  rw [Nat.pow_eq]
  omega

/-- Seventeen digits are enough for the intervals of a small format, and a few hundred places. -/
theorem interval (hf : f.Small) (hm : 0 < m) (hfinite : m < f.infinity) :
    (Interval.of f m).value < ((Interval.of f m).high - (Interval.of f m).low) * 10 ^ 16 ∧
      (Interval.of f m).unit ≤ (Interval.of f m).value * 10 ^ (400 + 1) := by
  have hproper := Interval.proper_of (f := f) hm
  obtain ⟨k, mantissa, hdecode, hcount, hmantissa, -⟩ := f.exists_decode_eq m
  obtain ⟨hleast, -⟩ := hf.exponent_bounds hfinite hcount
  have hfraction : 2 ^ f.fractionBits ≤ 2 ^ 52 := Nat.pow_le_pow_right (by decide) hf.fraction
  constructor
  · simp only [Interval.of, hdecode, Nat.pow_eq, ← Nat.sub_mul]
    rw [Nat.mul_right_comm _ _ (10 ^ 16)]
    refine Nat.mul_lt_mul_of_pos_right ?_ (Nat.two_pow_pos _)
    split <;> omega
  · have hvalue : 4 ≤ (Interval.of f m).value := by
      have hlow := Nat.lt_of_le_of_lt (Nat.zero_le _) hproper.low
      simp only [Interval.of, hdecode, Nat.pow_eq] at hlow ⊢
      rw [Nat.mul_assoc] at hlow ⊢
      omega
    have hunit : (Interval.of f m).unit = 4 * 2 ^ (-(f.leastExponent + k)).toNat := by
      simp only [Interval.of, hdecode, Nat.pow_eq]
    rw [hunit]
    refine Nat.mul_le_mul hvalue ?_
    calc 2 ^ (-(f.leastExponent + k)).toNat ≤ 2 ^ (3 * (400 + 1)) :=
          Nat.pow_le_pow_right (by decide) (by omega)
      _ ≤ 10 ^ (400 + 1) := two_pow_three_mul_le _

/-- The numbers of an interval of a small format have a few hundred places. -/
theorem contains_bounds (hf : f.Small) (hm : 0 < m) (hfinite : m < f.infinity) {x : ℚ}
    (h : (Interval.of f m).Contains x) :
    (10 : ℚ) ^ (-(400 : Nat) : Int) ≤ x ∧ x < 10 ^ ((399 : Nat) : Int) := by
  obtain ⟨k, mantissa, hdecode, hcount, hmantissa, hnormal⟩ := f.exists_decode_eq m
  obtain ⟨hleast, hgreatest⟩ := hf.exponent_bounds hfinite hcount
  obtain ⟨hlow, hhigh, -, -⟩ := h.scaled hdecode
  have hscale : (0 : ℚ) < 2 ^ (f.leastExponent + k) := by positivity
  have hone : (1 : ℚ) ≤ mantissa := by
    have := Nat.two_pow_pos f.fractionBits
    have : 1 ≤ mantissa := by
      rcases hnormal with rfl | hnormal <;> omega
    exact_mod_cast this
  have hmantissa : (mantissa : ℚ) + 1 ≤ 2 * 2 ^ f.fractionBits := by exact_mod_cast hmantissa
  rw [le_div_iff₀ hscale] at hlow
  rw [div_le_iff₀ hscale] at hhigh
  constructor
  · calc (10 : ℚ) ^ (-(400 : Nat) : Int) ≤ 2 ^ (-(3 * (400 : Nat)) : Int) := by
          rw [zpow_neg, zpow_neg]
          exact inv_anti₀ (by positivity) (two_zpow_three_mul_le _)
      _ ≤ 2 ^ (f.leastExponent + k - 1) :=
          zpow_le_zpow_right₀ (by norm_num) (by omega)
      _ = 1 / 2 * 2 ^ (f.leastExponent + k) := by
          rw [zpow_sub_one₀ (by norm_num)]
          ring
      _ ≤ (mantissa - 1 / 2) * 2 ^ (f.leastExponent + k) := by
          gcongr
          linarith
      _ ≤ x := hlow
  · calc x ≤ (mantissa + 1 / 2) * 2 ^ (f.leastExponent + k) := hhigh
      _ < 2 * 2 ^ f.fractionBits * 2 ^ (f.leastExponent + k) := by
          gcongr
          linarith
      _ = 2 ^ (f.leastExponent + k + f.fractionBits + 1) := by
          rw [zpow_add_one₀ (by norm_num), zpow_add₀ (by norm_num) _ (f.fractionBits : Int),
            zpow_natCast 2 f.fractionBits]
          ring
      _ ≤ 2 ^ (3 * (399 : Nat) : Int) := zpow_le_zpow_right₀ (by norm_num) (by omega)
      _ ≤ 10 ^ ((399 : Nat) : Int) := two_zpow_three_mul_le _

end BinaryFormat.Small

/-! ## Numerals -/

namespace Numeral

variable {digits : Nat} {exponent : Int}

/-- A numeral of a moderate size is taken as it is. -/
theorem clamp_eq (hlow : (10 : ℚ) ^ (-(400 : Nat) : Int) ≤ digits * 10 ^ exponent)
    (hhigh : digits * 10 ^ exponent < (10 : ℚ) ^ ((399 : Nat) : Int)) :
    clamp digits exponent = (digits, exponent) := by
  have hscale : (0 : ℚ) < 10 ^ exponent := by positivity
  have hne : digits ≠ 0 := by
    rintro rfl
    have : (0 : ℚ) < 10 ^ (-(400 : Nat) : Int) := by positivity
    rw [Nat.cast_zero, zero_mul] at hlow
    exact absurd hlow (not_le.2 this)
  obtain ⟨c, cs, hcons, -⟩ := Text.exists_digits_eq_cons digits
  have hleast := Text.pow_length_digits_le hne
  have hgreatest := Text.lt_pow_length_digits digits
  unfold clamp sizeLimit
  rw [hcons, List.length_cons] at hleast hgreatest ⊢
  have hleast : (10 : ℚ) ^ (cs.length : Int) ≤ digits := by
    rw [zpow_natCast]
    exact_mod_cast hleast
  have hgreatest : (digits : ℚ) < 10 ^ ((cs.length : Int) + 1) := by exact_mod_cast hgreatest
  have hle : (10 : ℚ) ^ (cs.length + exponent : Int) ≤ digits * 10 ^ exponent := by
    rw [zpow_add₀ (by norm_num)]
    gcongr
  have hlt : (digits * 10 ^ exponent : ℚ) < 10 ^ (cs.length + 1 + exponent : Int) := by
    rw [zpow_add₀ (by norm_num)]
    gcongr
  have hsmall := (zpow_lt_zpow_iff_right₀ (by norm_num)).1 (hle.trans_lt hhigh)
  have hlarge := (zpow_lt_zpow_iff_right₀ (by norm_num)).1 (hlow.trans_lt hlt)
  rw [if_neg (by omega), if_neg (by omega)]

/-- A whole number and the places of a fraction are read as one number. -/
theorem readFinite?_whole_fraction (whole : Nat) {fraction : List Char}
    (hfraction : ∀ c ∈ fraction, Name.isDigit c = true) :
    readFinite? (Text.digits whole ++ if fraction.isEmpty then [] else '.' :: fraction) =
      some (finite (Text.ofDigits (Text.digits whole ++ fraction)) (-fraction.length)) := by
  obtain ⟨c, cs, hcons, -⟩ := Text.exists_digits_eq_cons whole
  have hwhole : ∀ c ∈ Text.digits whole, Name.isDigit c = true :=
    fun c hc => Text.isDigit_of_mem_digits hc
  unfold readFinite?
  cases fraction with
  | nil =>
    have hspan := Text.spanDigits_of_all hwhole
    rw [hcons] at hspan
    simp [hcons, hspan, readExponent?]
  | cons d fraction =>
    have hpoint : ∀ c ∈ ('.' :: d :: fraction).head?, Name.isDigit c = false := by simp; decide
    have hspan := Text.spanDigits_append hwhole hpoint
    rw [List.isEmpty_cons, if_neg Bool.false_ne_true, hspan]
    simp [Text.spanDigits_of_all hfraction, readExponent?]

/-- What is written positionally is a whole number and a fraction that make up the number. -/
theorem exists_positional_eq (digits : Nat) (exponent : Int) :
    ∃ (whole : Nat) (fraction : List Char), (∀ c ∈ fraction, Name.isDigit c = true) ∧
      Shortest.positional digits exponent =
        Text.digits whole ++ (if fraction.isEmpty then [] else '.' :: fraction) ∧
      (Text.ofDigits (Text.digits whole ++ fraction) : ℚ) * 10 ^ (-fraction.length : Int) =
        digits * 10 ^ exponent := by
  unfold Shortest.positional
  split
  · rename_i hexponent
    obtain ⟨places, rfl⟩ := Int.eq_ofNat_of_zero_le hexponent
    refine ⟨digits * 10 ^ places, [], by simp, by simp, by simp⟩
  · rename_i hexponent
    obtain ⟨places, hplaces, rfl⟩ : ∃ places : Nat, 0 < places ∧ exponent = -places :=
      ⟨(-exponent).toNat, by omega, by omega⟩
    refine ⟨digits / 10 ^ places, Text.fraction places digits,
      fun c hc => Text.isDigit_of_mem_fraction hc, ?_, ?_⟩
    · simp only [neg_neg, Int.toNat_natCast, Nat.pow_eq]
      rfl
    · obtain ⟨hlength, -⟩ := Text.ofDigits_fraction (n := digits) hplaces
      have hvalue := Text.ofDigits_whole_fraction (n := digits) hplaces
      generalize Text.ofDigits _ = read at *
      generalize (Text.fraction places digits).length = written at *
      rw [← hvalue, Nat.cast_mul, Nat.cast_pow, mul_assoc, ← zpow_natCast,
        Nat.cast_ofNat, ← zpow_add₀ (by norm_num), Nat.cast_sub hlength]
      congr 2
      ring

theorem toLower_of_isDigit {c : Char} (hc : Name.isDigit c = true) : c.toLower = c := by
  have hle : c.val ≤ '9'.val := of_decide_eq_true (Bool.and_eq_true_iff.1 hc).2
  unfold Char.toLower
  rw [dif_neg]
  exact fun h => absurd (UInt32.le_trans h.1 hle) (by decide)

/-- A text that begins with a digit is no name, and its sign is read off. -/
theorem read?_signed {cs : List Char} (hcs : ∃ c rest, cs = c :: rest ∧ Name.isDigit c = true)
    (negative : Bool) : read? ((if negative then ['-'] else []) ++ cs) =
      (readFinite? cs).map fun n => (negative, n) := by
  have hname : ∀ name : String, name.toList.head?.any Name.isDigit = false →
      String.ofList (cs.map Char.toLower) ≠ name := by
    rintro _ hhead rfl
    obtain ⟨c, rest, rfl, hc⟩ := hcs
    rw [String.toList_ofList, List.map_cons, toLower_of_isDigit hc] at hhead
    exact absurd hc (by simpa using hhead)
  unfold read?
  rw [Text.readSign_signed hcs]
  dsimp only
  rw [if_neg (by simp [hname "inf" (by decide), hname "infinity" (by decide)]),
    if_neg (hname "nan" (by decide))]

end Numeral

/-! ## Texts of patterns -/

namespace BinaryFormat

variable {f : BinaryFormat} {bits : Nat}

/-- A pattern is made up of its sign and its magnitude. -/
theorem withSign_magnitude (hbits : bits < 2 * f.signWeight) :
    f.withSign (f.isNegative bits) (f.magnitude bits) = bits := by
  unfold withSign isNegative magnitude
  by_cases hnegative : f.signWeight ≤ bits
  · rw [if_pos (decide_eq_true hnegative), Nat.mod_eq_sub_mod hnegative,
      Nat.mod_eq_of_lt (by omega)]
    omega
  · rw [if_neg (by simpa using hnegative), Nat.mod_eq_of_lt (by omega)]

/-- A numeral in the interval of a magnitude stands for it. -/
theorem ofDecimal_clamp (hf : f.Small) {m : Nat} (hm : 0 < m) (hfinite : m < f.infinity)
    {digits : Nat} {exponent : Int}
    (h : (Shortest.Interval.of f m).Contains (digits * 10 ^ exponent)) :
    f.ofDecimal (Numeral.clamp digits exponent).1 (Numeral.clamp digits exponent).2 = m := by
  obtain ⟨hlow, hhigh⟩ := hf.contains_bounds hm hfinite h
  rw [Numeral.clamp_eq hlow hhigh]
  unfold ofDecimal
  refine ofRatio_eq hm hfinite (by rw [Nat.pow_eq]; positivity) ?_
  rw [Nat.pow_eq, Nat.pow_eq, Nat.cast_mul, Nat.cast_pow, Nat.cast_pow, mul_div_assoc,
    Nat.cast_ofNat, ← zpow_eq_div 10 (by norm_num)]
  exact h

/-- The text of a magnitude begins with a digit. -/
theorem exists_text_eq_cons (f : BinaryFormat) (m : Nat) :
    ∃ c rest, Shortest.text f m = c :: rest ∧ Name.isDigit c = true := by
  unfold Shortest.text
  split
  · exact ⟨'0', [], rfl, by decide⟩
  · dsimp only
    obtain ⟨whole, fraction, -, htext, -⟩ := Numeral.exists_positional_eq
      (Shortest.Interval.of f m).digits.1 (Shortest.Interval.of f m).digits.2
    obtain ⟨c, cs, hcons, hc⟩ := Text.exists_digits_eq_cons whole
    rw [htext, hcons]
    exact ⟨c, _, rfl, hc⟩

/-- The text of a finite magnitude stands for it. -/
theorem readFinite?_text (hf : f.Small) {m : Nat} (hfinite : m < f.infinity) :
    ∃ digits exponent,
      Numeral.readFinite? (Shortest.text f m) = some (.finite digits exponent) ∧
        f.ofDecimal (Numeral.clamp digits exponent).1 (Numeral.clamp digits exponent).2 = m := by
  unfold Shortest.text
  split
  · rename_i hzero
    subst hzero
    exact ⟨0, 0, by decide, by rfl⟩
  · rename_i hne
    have hm := Nat.pos_of_ne_zero hne
    obtain ⟨hwide, hreach⟩ := hf.interval hm hfinite
    have hcontains :=
      Shortest.Interval.contains_digits (Shortest.Interval.proper_of hm) hreach hwide
    dsimp only
    obtain ⟨whole, fraction, hdigits, htext, hvalue⟩ := Numeral.exists_positional_eq
      (Shortest.Interval.of f m).digits.1 (Shortest.Interval.of f m).digits.2
    rw [← hvalue] at hcontains
    rw [htext, Numeral.readFinite?_whole_fraction whole hdigits]
    exact ⟨_, _, rfl, ofDecimal_clamp hf hm hfinite hcontains⟩

end BinaryFormat

namespace Xsd

variable {f : BinaryFormat} {bits : Nat}

/-- A pattern that is no NaN is read back from its text. -/
theorem read?_floatingText (hf : f.Small) (hbits : bits < 2 * f.signWeight)
    (hnan : f.isNaN bits = false) :
    (Numeral.read? (floatingText f bits).toList).map (fun n => floatingBits f n.1 n.2) =
      some bits := by
  have hle : f.magnitude bits ≤ f.infinity := by simpa [BinaryFormat.isNaN] using hnan
  have hsigned : ∀ magnitude : Nat, magnitude = f.magnitude bits →
      f.withSign (f.isNegative bits) magnitude = bits := by
    rintro _ rfl
    exact BinaryFormat.withSign_magnitude hbits
  unfold floatingText
  rw [hnan, if_neg Bool.false_ne_true]
  split
  · rename_i hinfinite
    have hread : Numeral.read? ((if f.isNegative bits then "-" else "") ++ "INF").toList =
        some (f.isNegative bits, .infinity) := by
      cases f.isNegative bits <;> decide
    rw [hread]
    exact congrArg some (hsigned _ hinfinite.symm)
  · rename_i hfinite
    obtain ⟨digits, exponent, hread, hvalue⟩ :=
      BinaryFormat.readFinite?_text hf (lt_of_le_of_ne hle hfinite)
    have htext : ((if f.isNegative bits then "-" else "") ++
        String.ofList (Shortest.text f (f.magnitude bits))).toList =
        (if f.isNegative bits then ['-'] else []) ++ Shortest.text f (f.magnitude bits) := by
      rw [String.toList_append, String.toList_ofList]
      cases f.isNegative bits <;> rfl
    rw [htext, Numeral.read?_signed (BinaryFormat.exists_text_eq_cons f _), hread]
    exact congrArg some (hsigned _ hvalue)

/-- All NaNs have one text, which is read as a NaN. -/
theorem read?_floatingText_of_isNaN (hnan : f.isNaN bits = true) :
    Numeral.read? (floatingText f bits).toList = some (false, .nan) := by
  unfold floatingText
  simp [hnan]
  decide

end Xsd

end QuadStore
