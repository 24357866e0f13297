import QuadStore.Proofs.SortAgreement

/-!
# Computed terms and the terms they print as

No operator, function or condition tells a computed term from the same term read off its text. The
order of sort keys does so in one case only, that of a NaN among numbers: a computed NaN may have a
sign, which its text does not show, and which puts it before all numbers instead of after them.
`Expression.reparses` says both.
-/

namespace QuadStore

/-! ## NaNs -/

namespace Xsd

def Value.isNaN : Value → Bool
  | float x => x.isNaN
  | double x => x.isNaN
  | _ => false

variable {v w : Value}

theorem Value.Alike.eq_of_isNaN (h : v.Alike w) (hv : v.isNaN = false) : v = w := by
  cases h with
  | refl => rfl
  | float hx _ => exact absurd (hx.symm.trans hv) (by decide)
  | double hx _ => exact absurd (hx.symm.trans hv) (by decide)

theorem NumberKey.exists_ofValue? (hv : v.isNumeric = true) : ∃ k, ofValue? v = some k := by
  cases v with
  | integer n => exact ⟨_, rfl⟩
  | decimal d => exact ⟨_, rfl⟩
  | float x => exact ⟨_, rfl⟩
  | double x => exact ⟨_, rfl⟩
  | _ => cases hv

theorem NumberKey.ofValue?_eq_none (hv : v.isNumeric = false) : ofValue? v = none := by
  cases v with
  | integer n => cases hv
  | decimal d => cases hv
  | float x => cases hv
  | double x => cases hv
  | _ => rfl

theorem Value.isNumeric_of_isNaN (h : v.isNaN = true) : v.isNumeric = true := by
  cases v with
  | float x => rfl
  | double x => rfl
  | _ => cases h

end Xsd

namespace Datum

variable {a b c d : Datum}

/-- A datum whose value is a NaN. -/
def isNaN (d : Datum) : Bool := d.value?.any Xsd.Value.isNaN

/-- A datum whose value is a number. -/
def isNumber (d : Datum) : Bool := d.value?.any Xsd.Value.isNumeric

/-- Alike data are the same, unless they are NaNs. -/
theorem Alike.eq_of_isNaN (h : a.Alike b) (ha : a.isNaN = false) : a = b := by
  obtain ⟨s, v?⟩ := a
  obtain ⟨t, w?⟩ := b
  obtain rfl : s = t := h.term
  have hvalue := h.value
  dsimp only at hvalue
  cases hvalue with
  | none => rfl
  | some hv => rw [hv.eq_of_isNaN ha]

/-! ## Numbers among other data -/

section Numbers

variable {l m : Literal} {v v' : Xsd.Value} {w? : Option Xsd.Value}

theorem bind_ofValue?_eq_none (hw : w?.any Xsd.Value.isNumeric = false) :
    w?.bind Xsd.NumberKey.ofValue? = none := by
  cases w? with
  | none => rfl
  | some w => exact Xsd.NumberKey.ofValue?_eq_none hw

/-- All numbers come before the malformed ones of their family, and are on the same side of the
other families. -/
theorem literalOrder_number_left (hl : Xsd.numericTypes.contains l.datatype = true)
    (hv : v.isNumeric = true) (hv' : v'.isNumeric = true)
    (hw : w?.any Xsd.Value.isNumeric = false) :
    literalOrder l m (some v) w? = literalOrder l m (some v') w? := by
  obtain ⟨k, hk⟩ := Xsd.NumberKey.exists_ofValue? hv
  obtain ⟨k', hk'⟩ := Xsd.NumberKey.exists_ofValue? hv'
  unfold literalOrder
  rw [LiteralFamily.ofDatatype_eq_numeric_iff.2 hl]
  simp only [familyOrder, Option.bind_some, hk, hk', bind_ofValue?_eq_none hw]
  rfl

theorem literalOrder_number_right (hl : Xsd.numericTypes.contains l.datatype = true)
    (hv : v.isNumeric = true) (hv' : v'.isNumeric = true)
    (hw : w?.any Xsd.Value.isNumeric = false) :
    literalOrder m l w? (some v) = literalOrder m l w? (some v') := by
  obtain ⟨k, hk⟩ := Xsd.NumberKey.exists_ofValue? hv
  obtain ⟨k', hk'⟩ := Xsd.NumberKey.exists_ofValue? hv'
  unfold literalOrder
  rw [LiteralFamily.ofDatatype_eq_numeric_iff.2 hl]
  generalize LiteralFamily.ofDatatype m.datatype = family
  cases family with
  | numeric =>
    simp only [familyOrder, Option.bind_some, hk, hk', bind_ofValue?_eq_none hw]
    rfl
  | _ => rfl

end Numbers

/-- Alike data are sorted alike, unless they are NaNs among numbers. -/
theorem Alike.sortOrder_eq (h : a.Alike b) (ha : a.Fits)
    (hc : a.isNaN = false ∨ c.isNumber = false) :
    a.sortOrder c = b.sortOrder c ∧ c.sortOrder a = c.sortOrder b := by
  by_cases hnan : a.isNaN = false
  · rw [h.eq_of_isNaN hnan]
    exact ⟨rfl, rfl⟩
  replace hc : c.isNumber = false := hc.resolve_left hnan
  obtain ⟨s, v?⟩ := a
  obtain ⟨t, w?⟩ := b
  obtain ⟨u, x?⟩ := c
  obtain rfl : s = t := h.term
  have hvalue := h.value
  dsimp only at hvalue
  cases hvalue with
  | none => exact ⟨rfl, rfl⟩
  | @some v w hv =>
    have hnumeric : v.isNumeric = true :=
      Xsd.Value.isNumeric_of_isNaN (Bool.not_eq_false _ ▸ hnan)
    have hnumeric' : w.isNumeric = true := hv.isNumeric_eq ▸ hnumeric
    cases s with
    | iri i => cases u <;> exact ⟨rfl, rfl⟩
    | blank b => cases u <;> exact ⟨rfl, rfl⟩
    | literal l =>
      cases u with
      | iri i => exact ⟨rfl, rfl⟩
      | blank b => exact ⟨rfl, rfl⟩
      | literal m =>
        have hl : Xsd.numericTypes.contains l.datatype = true := by
          rw [← (ha l v rfl rfl).isNumeric_eq, hnumeric]
        exact ⟨literalOrder_number_left hl hnumeric hnumeric' hc,
          literalOrder_number_right hl hnumeric hnumeric' hc⟩

end Datum

/-! ## The order of a NaN among numbers -/

namespace Xsd

open BinaryFormat (binary32 binary64)

/-- A floating point number whose sign is set. -/
def Value.isSigned : Value → Bool
  | float x => binary32.isNegative x.bits.toNat
  | double x => binary64.isNegative x.bits.toNat
  | _ => false

theorem isNaN_withSign {f : BinaryFormat} {negative : Bool} {m : Nat} (hm : m ≤ f.infinity) :
    f.isNaN (f.withSign negative m) = false := by
  unfold BinaryFormat.isNaN
  rw [BinaryFormat.magnitude_withSign hm]
  exact decide_eq_false (not_lt.2 hm)

theorem ofRatio_le_infinity (f : BinaryFormat) (num den : Nat) :
    f.ofRatio num den ≤ f.infinity := by
  unfold BinaryFormat.ofRatio
  split
  · exact Nat.zero_le _
  · exact min_le_left _ _

theorem Double.isNaN_ofBits_withSign (negative : Bool) {m : Nat} (hm : m ≤ binary64.infinity) :
    (ofBits (binary64.withSign negative m)).isNaN = false := by
  unfold isNaN
  rw [bits_ofBits_withSign negative hm]
  exact isNaN_withSign hm

theorem Double.isNaN_ofSingle (x : Single) : (ofSingle x).isNaN = x.isNaN := by
  cases hx : x.isNaN with
  | true =>
    rw [ofSingle_of_isNaN hx]
    cases binary32.isNegative x.bits.toNat <;> decide
  | false =>
    unfold ofSingle
    dsimp only
    rw [if_neg (show ¬binary32.isNaN x.bits.toNat = true from ne_true_of_eq_false hx)]
    split
    · exact isNaN_ofBits_withSign _ le_rfl
    · exact isNaN_ofBits_withSign _ (ofRatio_le_infinity _ _ _)

/-- The double that a number is sorted by is a NaN just if the number is. -/
theorem NumberKey.isNaN_approximation {v : Value} {k : NumberKey} (h : ofValue? v = some k) :
    k.approximation.isNaN = v.isNaN := by
  cases v with
  | integer n =>
    obtain rfl := Option.some.inj h
    exact Double.isNaN_ofBits_withSign _ (ofRatio_le_infinity _ _ _)
  | decimal d =>
    obtain rfl := Option.some.inj h
    show binary64.isNaN (Double.ofDecimal d).bits.toNat = false
    rw [Decimal.bits_ofDecimal]
    exact isNaN_withSign (binary64.nearest_le_infinity _)
  | float x =>
    obtain rfl := Option.some.inj h
    exact Double.isNaN_ofSingle x
  | double x =>
    obtain rfl := Option.some.inj h
    rfl
  | _ => cases h

/-- It has the sign of a NaN. -/
theorem NumberKey.isNegative_approximation {v : Value} {k : NumberKey} (h : ofValue? v = some k)
    (hv : v.isNaN = true) : binary64.isNegative k.approximation.bits.toNat = v.isSigned := by
  cases v with
  | float x =>
    obtain rfl := Option.some.inj h
    show binary64.isNegative (Double.ofSingle x).bits.toNat = binary32.isNegative x.bits.toNat
    rw [Double.ofSingle_of_isNaN hv]
    cases binary32.isNegative x.bits.toNat <;> decide
  | double x =>
    obtain rfl := Option.some.inj h
    rfl
  | _ => cases hv

/-- The NaNs are outside of all other numbers, on the side of their sign. -/
theorem NumberKey.order_of_isNaN {a b : NumberKey} (ha : a.approximation.isNaN = true)
    (hb : b.approximation.isNaN = false) :
    a.order b = if binary64.isNegative a.approximation.bits.toNat then .lt else .gt := by
  have houtside : binary64.infinity < binary64.magnitude a.approximation.bits.toNat :=
    of_decide_eq_true ha
  have hinside : binary64.magnitude b.approximation.bits.toNat ≤ binary64.infinity :=
    not_lt.1 (of_decide_eq_false hb)
  have hlow : -(binary64.infinity : Int) - 1 ≤ binary64.totalKey b.approximation.bits.toNat := by
    unfold BinaryFormat.totalKey
    split <;> omega
  have hhigh : binary64.totalKey b.approximation.bits.toNat ≤ binary64.infinity := by
    unfold BinaryFormat.totalKey
    split <;> omega
  unfold order
  by_cases hsign : binary64.isNegative a.approximation.bits.toNat = true
  · have hkey : binary64.totalKey a.approximation.bits.toNat =
        -(binary64.magnitude a.approximation.bits.toNat : Int) - 1 := if_pos hsign
    rw [if_pos hsign, compare_lt_iff_lt.2 (by omega)]
    rfl
  · have hkey : binary64.totalKey a.approximation.bits.toNat =
        binary64.magnitude a.approximation.bits.toNat := if_neg hsign
    rw [if_neg hsign, compare_gt_iff_gt.2 (by omega)]
    rfl

end Xsd

namespace Datum

variable {a b : Datum}

/-- A datum whose value has its sign set. -/
def isSigned (d : Datum) : Bool := d.value?.any Xsd.Value.isSigned

theorem isNumber_of_isNaN (h : a.isNaN = true) : a.isNumber = true := by
  unfold isNaN at h
  unfold isNumber
  cases hv : a.value? with
  | none =>
    rw [hv] at h
    cases h
  | some v =>
    rw [hv] at h
    exact Xsd.Value.isNumeric_of_isNaN h

/-- A genuine number is a literal of a numeric type. -/
theorem Genuine.exists_literal (ha : a.Genuine) (hnumber : a.isNumber = true) :
    ∃ l v k, a.term = .literal l ∧ a.value? = some v ∧ Xsd.NumberKey.ofValue? v = some k ∧
      LiteralFamily.ofDatatype l.datatype = .numeric := by
  cases hv : a.value? with
  | none =>
    unfold isNumber at hnumber
    rw [hv] at hnumber
    cases hnumber
  | some v =>
    have hnumeric : v.isNumeric = true := by
      unfold isNumber at hnumber
      rwa [hv] at hnumber
    obtain ⟨k, hk⟩ := Xsd.NumberKey.exists_ofValue? hnumeric
    have hvalue := ha.value
    rw [hv] at hvalue
    cases hterm : a.term with
    | literal l =>
      refine ⟨l, v, k, rfl, rfl, hk, LiteralFamily.ofDatatype_eq_numeric_iff.2 ?_⟩
      rw [← (ha.fits l v hterm hv).isNumeric_eq, hnumeric]
    | iri i =>
      rw [hterm] at hvalue
      cases hvalue
    | blank n =>
      rw [hterm] at hvalue
      cases hvalue

/-- A NaN with its sign set is sorted before all other numbers, and one without it after them. -/
def SortsBySign (a : Datum) : Prop :=
  a.isNaN = true → ∀ b : Datum, b.Genuine → b.isNumber = true → b.isNaN = false →
    a.sortOrder b = if a.isSigned then .lt else .gt

/-- The sign decides whatever the text of the NaN is read as. -/
theorem Genuine.sortsBySign (ha : a.Genuine) : a.SortsBySign := by
  intro hnan b hb hnumber hb'
  obtain ⟨l, v, k, hl, hv, hk, hfamily⟩ := ha.exists_literal (isNumber_of_isNaN hnan)
  obtain ⟨m, w, k', hm, hw, hk', hfamily'⟩ := hb.exists_literal hnumber
  have hvnan : v.isNaN = true := by
    unfold isNaN at hnan
    rwa [hv] at hnan
  have hwnan : w.isNaN = false := by
    unfold isNaN at hb'
    rwa [hw] at hb'
  have hsign : BinaryFormat.binary64.isNegative k.approximation.bits.toNat = a.isSigned := by
    unfold isSigned
    rw [hv]
    exact Xsd.NumberKey.isNegative_approximation hk hvnan
  -- both are in the family of the numbers, so that their keys decide
  have hkeys : a.sortOrder b = (k.order k').then
      ((compare l.datatype m.datatype).then (compare l.value m.value)) := by
    unfold sortOrder
    rw [hl, hm]
    show literalOrder l m a.value? b.value? = _
    unfold literalOrder
    rw [hv, hw, hfamily, hfamily']
    simp only [familyOrder, Option.bind_some, hk, hk']
    rfl
  rw [hkeys, Xsd.NumberKey.order_of_isNaN ((Xsd.NumberKey.isNaN_approximation hk).trans hvnan)
    ((Xsd.NumberKey.isNaN_approximation hk').trans hwnan), hsign]
  cases a.isSigned <;> rfl

/-! ## Data that are used alike -/

/-- Two data of which one can take the place of the other: operators, functions and conditions make
the same of them, and so does the order of sort keys, but for a NaN among numbers. -/
structure Indistinct (a b : Datum) : Prop where
  left : ∀ (op : BinaryOp) c?, Option.Rel Alike (op.combine? (some a) c?) (op.combine? (some b) c?)
  right : ∀ (op : BinaryOp) c?, Option.Rel Alike (op.combine? c? (some a)) (op.combine? c? (some b))
  unary : ∀ op : UnaryOp, Option.Rel Alike (op.of? a) (op.of? b)
  truth : a.truth? = b.truth?
  among : ∀ cs, a.among? cs = b.among? cs
  candidate : ∀ (c : Datum) cs ds, c.among? (cs ++ some a :: ds) = c.among? (cs ++ some b :: ds)
  argument : ∀ (f : Function) cs ds,
    Option.Rel Alike (f.evaluate? (cs ++ a :: ds)) (f.evaluate? (cs ++ b :: ds))
  sort : ∀ c : Datum, a.isNaN = false ∨ c.isNumber = false →
    a.sortOrder c = b.sortOrder c ∧ c.sortOrder a = c.sortOrder b

theorem Alike.indistinct (h : a.Alike b) (ha : a.Fits) : Indistinct a b where
  left op c? := op.alike_combine? (.some h) (.of_eq .refl rfl)
  right op c? := op.alike_combine? (.of_eq .refl rfl) (.some h)
  unary op := op.alike_of? h
  truth := h.truth?_eq
  among cs := h.among?_eq (List.forall₂_same.2 fun _ _ => .of_eq .refl rfl)
  candidate c cs ds := by
    refine (Alike.refl c).among?_eq (List.rel_append ?_ (.cons (.some h) ?_))
    · exact List.forall₂_same.2 fun _ _ => .of_eq .refl rfl
    · exact List.forall₂_same.2 fun _ _ => .of_eq .refl rfl
  argument f cs ds := by
    refine f.alike_evaluate? (List.rel_append ?_ (.cons h ?_))
    · exact List.forall₂_same.2 fun d _ => .refl d
    · exact List.forall₂_same.2 fun d _ => .refl d
  sort c := h.sortOrder_eq ha

end Datum

/-- What an expression gives in a row cannot be told from the term that it prints as, except by
sorting it among numbers if it is a NaN: there each of the two has the place that its own sign gives
it. -/
theorem Expression.reparses (dataset : Dataset) {row : Row} (hrow : row.Genuine) (e : Expression)
    {d : Datum} (hd : e.eval dataset row = some d) :
    d.Indistinct (.ofTerm d.term) ∧ d.SortsBySign ∧ (Datum.ofTerm d.term).SortsBySign := by
  have hgenuine : d.Genuine := e.genuine_eval dataset hrow d hd
  exact ⟨Datum.Alike.indistinct hgenuine hgenuine.fits, hgenuine.sortsBySign,
    (Datum.genuine_ofTerm d.term).sortsBySign⟩

/-- The opposite of the NaN that a literal stands for. -/
def Expression.oppositeNaN : Expression :=
  .unary .minus (.literal (.ofTyped "NaN" ⟨Xsd.double⟩))

/-- The opposite of a NaN can take the place of the literal that it prints as. -/
theorem Expression.reparses_oppositeNaN : Row.empty.Genuine ∧
    ∃ d, oppositeNaN.eval (.ofQuads []) .empty = some d ∧
      d.term = .literal (.ofTyped "NaN" ⟨Xsd.double⟩) ∧ d.Indistinct (.ofTerm d.term) ∧
        d.SortsBySign ∧ (Datum.ofTerm d.term).SortsBySign := by
  obtain ⟨d, hd⟩ := Option.isSome_iff_exists.1
    (show (oppositeNaN.eval (.ofQuads []) .empty).isSome by decide +kernel)
  have hterm : (oppositeNaN.eval (.ofQuads []) .empty).map (·.term) =
      some (.literal (.ofTyped "NaN" ⟨Xsd.double⟩)) := by decide +kernel
  rw [hd] at hterm
  exact ⟨Row.genuine_empty, d, hd, Option.some.inj hterm,
    reparses (.ofQuads []) Row.genuine_empty oppositeNaN hd⟩

/-- As a sort key it is before all numbers, while the literal is after them. -/
theorem Expression.sortOrder_oppositeNaN :
    (oppositeNaN.eval (.ofQuads []) .empty).map (fun d =>
      (d.sortOrder (.ofTerm (.literal (.ofTyped "-INF" ⟨Xsd.double⟩))),
        (Datum.ofTerm d.term).sortOrder (.ofTerm (.literal (.ofTyped "-INF" ⟨Xsd.double⟩))))) =
      some (.lt, .gt) := by
  decide +kernel

end QuadStore
