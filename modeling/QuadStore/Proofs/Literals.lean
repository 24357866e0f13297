import QuadStore.Proofs.Shortest
import QuadStore.Xsd.Value

/-!
# Canonical literals are read back

The canonical literal of a truth value or of a number has this value again, except that the NaNs of
a format share one text: their sign and payload are lost. `Value.Alike` says that two values differ
in no more than this.
-/

namespace QuadStore
namespace Xsd

/-! ## Numbers of each kind -/

theorem toList_toString (n : Int) :
    (toString n).toList = (if n < 0 then ['-'] else []) ++ Text.digits n.natAbs := by
  show n.repr.toList = _
  rw [Int.repr_eq_if]
  split
  · rename_i hn
    rw [if_neg (by omega), show n.toNat = n.natAbs by omega]
    exact String.toList_ofList
  · rename_i hn
    rw [if_pos (by omega), show (-n).toNat = n.natAbs by omega, String.toList_append]
    exact congrArg _ String.toList_ofList

/-- A sign and an absolute value make up a number. -/
theorem signed_natAbs (n : Int) : Text.signed (n < 0) n.natAbs = n := by
  unfold Text.signed
  by_cases hn : n < 0
  · rw [if_pos (decide_eq_true hn)]
    omega
  · rw [if_neg (by simpa using hn)]
    omega

theorem signed_mul (negative : Bool) (m n : Nat) :
    Text.signed negative m * n = Text.signed negative (m * n) := by
  unfold Text.signed
  cases negative with
  | false => exact (Nat.cast_mul m n).symm
  | true => simp

/-- The canonical text of an integer is read back. -/
theorem Integer.parse?_text (n : Integer) : Integer.parse? n.text = some n := by
  have hread := Text.readInt?_signed (n.value < 0) n.value.natAbs
  unfold parse? text
  rw [toList_toString]
  simp only [decide_eq_true_eq] at hread
  rw [hread, Option.bind_some, signed_natAbs]
  exact ofInt?_eq_some_iff.2 rfl

theorem Decimal.ofUnits?_units (d : Decimal) : ofUnits? d.units = some d := dif_pos d.fits

/-- The canonical text of a decimal has the digits of its units, up to the last one that counts. -/
theorem Decimal.toList_text (d : Decimal) : d.text.toList =
    (if decide (d.units < 0) then ['-'] else []) ++
      (Text.digits (d.units.natAbs / 10 ^ places) ++
        if (Text.fraction places d.units.natAbs).isEmpty then []
        else '.' :: Text.fraction places d.units.natAbs) := by
  unfold text
  rw [String.toList_ofList, List.append_assoc]
  simp only [decide_eq_true_eq, Nat.pow_eq]
  rfl

/-- The canonical text of a decimal is read back. -/
theorem Decimal.parse?_text (d : Decimal) : Decimal.parse? d.text = some d := by
  have hplaces : 0 < places := by decide
  obtain ⟨hlength, -⟩ := Text.ofDigits_fraction (n := d.units.natAbs) hplaces
  have hvalue := Text.ofDigits_whole_fraction (n := d.units.natAbs) hplaces
  have htrim := Text.trimZeros_fraction places d.units.natAbs
  have hdigits : ∀ c ∈ Text.fraction places d.units.natAbs, Name.isDigit c = true :=
    fun c hc => Text.isDigit_of_mem_fraction hc
  have hwhole : ∀ c ∈ Text.digits (d.units.natAbs / 10 ^ places), Name.isDigit c = true :=
    fun c hc => Text.isDigit_of_mem_digits hc
  obtain ⟨c, cs, hcons, hc⟩ := Text.exists_digits_eq_cons (d.units.natAbs / 10 ^ places)
  have htext := toList_text d
  -- the digits that are read make up the units
  generalize hread : Text.digits (d.units.natAbs / 10 ^ places) = whole at *
  generalize Text.fraction places d.units.natAbs = fraction at *
  have hunits : ofUnits? (Text.signed (d.units < 0) (Text.ofDigits (whole ++ fraction)) *
      Nat.pow 10 (places - fraction.length)) = some d := by
    rw [signed_mul, Nat.pow_eq, hvalue, signed_natAbs, ofUnits?_units]
  have hempty : whole.isEmpty = false := by
    rw [hcons]
    rfl
  have hchecked : (fraction.all Name.isDigit && decide (fraction.length ≤ places)) = true :=
    Bool.and_eq_true_iff.2 ⟨List.all_eq_true.2 hdigits, decide_eq_true hlength⟩
  unfold parse?
  rw [htext, Text.readSign_signed ⟨c, _, by rw [hcons]; rfl, hc⟩]
  dsimp only
  cases fraction with
  | nil =>
    rw [List.isEmpty_nil, if_pos rfl, List.append_nil, Text.spanDigits_of_all hwhole]
    simp only [hempty, Bool.false_eq_true, if_false, Option.bind_some, htrim]
    rw [if_pos hchecked]
    exact hunits
  | cons e fraction =>
    rw [List.isEmpty_cons, if_neg Bool.false_ne_true,
      Text.spanDigits_append hwhole (by simp; decide)]
    simp only [hempty, Bool.false_and, Bool.false_eq_true, if_false, Option.bind_some, htrim]
    rw [if_pos hchecked]
    exact hunits

/-- The text of a number that is no NaN is read back. -/
theorem Double.parse?_text {x : Double} (hx : x.isNaN = false) : Double.parse? x.text = some x := by
  have hbits : x.bits.toNat < 2 * BinaryFormat.binary64.signWeight := x.bits.toNat_lt
  have hread := read?_floatingText BinaryFormat.small_binary64 hbits hx
  obtain ⟨n, hn, hvalue⟩ := Option.map_eq_some_iff.1 hread
  unfold parse? text
  rw [hn, Option.map_some]
  dsimp only
  rw [hvalue, ofBits, UInt64.ofNat_toNat]

/-- The text of a NaN is read as a NaN. -/
theorem Double.parse?_text_of_isNaN {x : Double} (hx : x.isNaN = true) :
    ∃ y, Double.parse? x.text = some y ∧ y.isNaN = true := by
  unfold parse? text
  rw [read?_floatingText_of_isNaN hx]
  exact ⟨_, rfl, by decide⟩

theorem Single.parse?_text {x : Single} (hx : x.isNaN = false) : Single.parse? x.text = some x := by
  have hbits : x.bits.toNat < 2 * BinaryFormat.binary32.signWeight := x.bits.toNat_lt
  have hread := read?_floatingText BinaryFormat.small_binary32 hbits hx
  obtain ⟨n, hn, hvalue⟩ := Option.map_eq_some_iff.1 hread
  unfold parse? text
  rw [hn, Option.map_some]
  dsimp only
  rw [hvalue, ofBits, UInt32.ofNat_toNat]

theorem Single.parse?_text_of_isNaN {x : Single} (hx : x.isNaN = true) :
    ∃ y, Single.parse? x.text = some y ∧ y.isNaN = true := by
  unfold parse? text
  rw [read?_floatingText_of_isNaN hx]
  exact ⟨_, rfl, by decide⟩

/-! ## Values -/

namespace Value

/-- Two values that are the same, or are NaNs of one format. -/
inductive Alike : Value → Value → Prop
  | refl (v : Value) : Alike v v
  | float {x y : Single} : x.isNaN = true → y.isNaN = true → Alike (.float x) (.float y)
  | double {x y : Double} : x.isNaN = true → y.isNaN = true → Alike (.double x) (.double y)

/-- The kinds of values that expressions compute. -/
def isComputed : Value → Bool
  | dateTime _ | date _ | time _ => false
  | _ => true

/-- The canonical literal of a computed value has a value like it. -/
theorem exists_ofLiteral? {v : Value} (hv : v.isComputed = true) :
    ∃ w, ofLiteral? v.toLiteral = some w ∧ v.Alike w := by
  have hliteral : ofLiteral? v.toLiteral = parse? v.text v.datatype := by
    unfold ofLiteral? toLiteral Literal.ofTyped
    split
    · rfl
    · rename_i hstring
      rw [show v.datatype = Xsd.string from not_not.1 hstring]
      rfl
  rw [hliteral]
  cases v with
  | boolean b => exact ⟨.boolean b, by cases b <;> decide, .refl _⟩
  | integer n =>
    refine ⟨.integer n, ?_, .refl _⟩
    show (Integer.parse? n.text).map integer = _
    rw [n.parse?_text, Option.map_some]
  | decimal d =>
    refine ⟨.decimal d, ?_, .refl _⟩
    show (Decimal.parse? d.text).map decimal = _
    rw [d.parse?_text, Option.map_some]
  | float x =>
    show ∃ w, (Single.parse? x.text).map float = some w ∧ _
    cases hx : x.isNaN with
    | false => exact ⟨.float x, by rw [Single.parse?_text hx, Option.map_some], .refl _⟩
    | true =>
      obtain ⟨y, hparse, hy⟩ := Single.parse?_text_of_isNaN hx
      exact ⟨.float y, by rw [hparse, Option.map_some], .float hx hy⟩
  | double x =>
    show ∃ w, (Double.parse? x.text).map double = some w ∧ _
    cases hx : x.isNaN with
    | false => exact ⟨.double x, by rw [Double.parse?_text hx, Option.map_some], .refl _⟩
    | true =>
      obtain ⟨y, hparse, hy⟩ := Double.parse?_text_of_isNaN hx
      exact ⟨.double y, by rw [hparse, Option.map_some], .double hx hy⟩
  | dateTime t => simp [isComputed] at hv
  | date t => simp [isComputed] at hv
  | time t => simp [isComputed] at hv

end Value
end Xsd
end QuadStore
