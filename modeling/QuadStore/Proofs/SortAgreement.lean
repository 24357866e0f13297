import QuadStore.Proofs.Approximation
import QuadStore.Proofs.Genuine
import QuadStore.Proofs.SortRank

/-!
# Sorting and comparing

The rows of an ordered pattern come in the order of the ranks of their keys, while the operator `<`
looks at the values of literals. The two agree on exact numbers that are far enough apart for their
approximations (`Literal.sorted_of_less`), and on points of the calendar, except that the datatype
`xsd:dateTime` comes before `xsd:dateTimeStamp` (`Literal.keyOrder_of_less`).
-/

namespace QuadStore

/-! ## Sorted rows -/

/-- Values that are alike are values of the same datatypes. -/
theorem Xsd.Value.Of.alike {datatype : String} {v w : Value} (h : Of datatype w)
    (hvw : v.Alike w) : Of datatype v := by
  cases hvw with
  | refl => exact h
  -- two NaNs are of one format
  | @float x y hx hy =>
    cases h
    exact .float x
  | @double x y hx hy =>
    cases h
    exact .double x

theorem Datum.Genuine.fits {d : Datum} (h : d.Genuine) : d.Fits := by
  intro l v hl hv
  have hvalue := h.value
  rw [hv] at hvalue
  cases hw : (Datum.ofTerm d.term).value? with
  | none =>
    rw [hw] at hvalue
    cases hvalue
  | some w =>
    rw [hw] at hvalue
    cases hvalue with
    | some halike => exact (Datum.fits_ofTerm d.term l w hl hw).alike halike

/-- Rows that are sorted by one key come in the order of their keys. -/
theorem Row.pairwise_sort {key : Row → Option Datum} {rows : List Row}
    (hfits : ∀ row ∈ rows, ∀ d, key row = some d → d.Fits) :
    (sort [.ascending] (fun row => [key row]) rows).Pairwise fun r s =>
      lowRank Datum.rank (key r) ≤ lowRank Datum.rank (key s) := by
  let rank (row : Row) := lowRank Datum.rank (key row)
  -- the rows are put into the order of their ranks
  have hsort : sort [.ascending] (fun row => [key row]) rows =
      rows.mergeSort fun r s => rank r ≤ rank s := by
    have hmap : ((rows.map fun row => ([key row], row)).mergeSort fun a b =>
        keysOrder [.ascending] a.1 b.1 != .gt) =
        (rows.mergeSort fun r s => rank r ≤ rank s).map fun row => ([key row], row) := by
      refine (List.map_mergeSort fun r hr s hs => ?_).symm
      have hcompares := Datum.keyOrder_compares (hfits r hr) (hfits s hs)
      show decide (rank r ≤ rank s) = ((Datum.keyOrder (key r) (key s)).then .eq != .gt)
      rw [Ordering.then_eq, Bool.eq_iff_iff, decide_eq_true_iff, bne_iff_ne, hcompares.ne_gt]
    unfold sort
    rw [hmap, List.map_map]
    exact List.map_id _
  rw [hsort]
  refine (List.pairwise_mergeSort ?_ ?_ rows).imp of_decide_eq_true
  · intro r s t hrs hst
    exact decide_eq_true ((of_decide_eq_true hrs).trans (of_decide_eq_true hst))
  · intro r s
    rcases le_total (rank r) (rank s) with hle | hle
    · rw [decide_eq_true hle, Bool.true_or]
    · rw [decide_eq_true hle, Bool.or_true]

/-- The rows of a pattern that is ordered by one expression come in the order of its values. -/
theorem GraphPattern.pairwise_orderBy (dataset : Dataset) (inner : GraphPattern) (e : Expression)
    {row : Row} (hrow : row.Genuine) :
    ((orderBy inner [(.ascending, e)]).rows dataset row).Pairwise fun r s =>
      lowRank Datum.rank (e.eval dataset r) ≤ lowRank Datum.rank (e.eval dataset s) := by
  have hfits : ∀ r ∈ inner.rows dataset row, ∀ d, e.eval dataset r = some d → d.Fits := by
    intro r hr d hd
    exact (e.genuine_eval dataset (inner.genuine_rows dataset hrow r hr) d hd).fits
  have hsorted := Row.pairwise_sort hfits
  simp only [rows, List.map_cons, List.map_nil, Expression.evalKeys]
  exact hsorted

/-- The operator `<` is true of two data just if they are in this order. -/
theorem BinaryOp.relate?_less_iff {a b : Datum} :
    BinaryOp.less.relate? a b = some (.ofBool true) ↔ a.order? b = some .lt := by
  show (a.order? b).map (fun o => Datum.ofBool (o == .lt)) = some (.ofBool true) ↔ _
  rw [Option.map_eq_some_iff]
  constructor
  · rintro ⟨o, ho, h⟩
    have htrue : (o == .lt) = true :=
      Xsd.Value.boolean.inj (Option.some.inj (congrArg Datum.value? h))
    rw [ho, eq_of_beq htrue]
  · intro h
    exact ⟨.lt, h, rfl⟩

/-! ## Exact numbers -/

namespace Xsd

/-- The exact value of an integer or a decimal. -/
def Value.decimal? : Value → Option Decimal
  | integer n => some (.ofInteger n)
  | decimal d => some d
  | _ => none

variable {v w : Value} {x y : Decimal}

theorem Value.eq_of_decimal? (h : v.decimal? = some x) :
    (∃ n, v = integer n ∧ x = .ofInteger n) ∨ v = decimal x := by
  cases v with
  | integer n => exact .inl ⟨n, rfl, (Option.some.inj h).symm⟩
  | decimal d => exact .inr (congrArg decimal (Option.some.inj h))
  | _ => cases h

/-- The sort key of an exact number is the one of its exact value. -/
theorem NumberKey.ofValue?_of_decimal? (h : v.decimal? = some x) :
    ofValue? v = some (.ofDecimal x) := by
  rcases Value.eq_of_decimal? h with ⟨n, rfl, rfl⟩ | rfl
  · unfold NumberKey.ofDecimal
    rw [Decimal.ofDecimal_ofInteger]
    rfl
  · rfl

theorem Decimal.order_ofInteger (a b : Integer) :
    (ofInteger a).order (.ofInteger b) = a.order b := by
  have hmono : StrictMono fun n : Int => n * (Nat.pow 10 places : Nat) := by
    intro m n hmn
    exact Int.mul_lt_mul_of_pos_right hmn (by decide)
  exact (hmono.compares.1 (Ordering.compares_compare _ _)).inj (Ordering.compares_compare _ _)

/-- Exact numbers are compared by their exact values. -/
theorem Value.order?_of_decimal? (hv : v.decimal? = some x) (hw : w.decimal? = some y) :
    v.order? w = some (x.order y) := by
  rcases eq_of_decimal? hv with ⟨m, rfl, rfl⟩ | rfl
  · rcases eq_of_decimal? hw with ⟨n, rfl, rfl⟩ | rfl
    · exact congrArg some (Decimal.order_ofInteger m n).symm
    · rfl
  · rcases eq_of_decimal? hw with ⟨n, rfl, rfl⟩ | rfl
    · rfl
    · rfl

end Xsd

namespace Literal

variable {a b : Literal} {v w : Xsd.Value} {x y : Xsd.Decimal}

/-- A well-formed literal of `xsd:decimal` or of an integer type. -/
def IsExact (l : Literal) : Prop :=
  (l.datatype = Xsd.decimal ∨ Xsd.integerTypes.contains l.datatype) ∧
    (Xsd.Value.ofLiteral? l).isSome

instance (l : Literal) : Decidable l.IsExact := inferInstanceAs (Decidable (_ ∧ _))

/-- The exact value of a literal. -/
def decimal? (l : Literal) : Option Xsd.Decimal :=
  (Xsd.Value.ofLiteral? l).bind Xsd.Value.decimal?

theorem IsExact.exists_decimal? (h : a.IsExact) : ∃ x, a.decimal? = some x := by
  obtain ⟨hdatatype, hsome⟩ := h
  obtain ⟨v, hv⟩ := Option.isSome_iff_exists.1 hsome
  have hof := Xsd.Value.of_parse? hv
  unfold decimal?
  rw [hv, Option.bind_some]
  generalize a.datatype = datatype at *
  cases hof with
  | integer h n => exact ⟨_, rfl⟩
  | decimal d => exact ⟨_, rfl⟩
  -- no other datatype is one of these
  | _ => exact absurd hdatatype (by decide)

/-- Literals with values are compared by them. -/
theorem order?_of_values (hv : Xsd.Value.ofLiteral? a = some v)
    (hw : Xsd.Value.ofLiteral? b = some w) :
    (Datum.ofTerm (.literal a)).order? (.ofTerm (.literal b)) = v.order? w := by
  have ha : (Datum.ofTerm (.literal a)).value? = some v := hv
  have hb : (Datum.ofTerm (.literal b)).value? = some w := hw
  unfold Datum.order?
  rw [ha, hb]

/-- Exact numbers that are far enough apart are sorted by their values. -/
theorem keyOrder_of_resolved (ha : a.decimal? = some x) (hb : b.decimal? = some y)
    (hresolved : x.Resolved y) (hlt : x.units < y.units) :
    Term.keyOrder (some (.literal a)) (some (.literal b)) = .lt := by
  have hfamily : ∀ {l : Literal} {d : Xsd.Decimal}, l.decimal? = some d →
      LiteralFamily.ofDatatype l.datatype = .numeric := by
    intro l d hl
    obtain ⟨v, hv, hdecimal⟩ := Option.bind_eq_some_iff.1 hl
    rw [LiteralFamily.ofDatatype_eq_numeric_iff, ← (Xsd.Value.of_parse? hv).isNumeric_eq]
    cases v <;> first | rfl | cases hdecimal
  obtain ⟨v, hv, hx⟩ := Option.bind_eq_some_iff.1 ha
  obtain ⟨w, hw, hy⟩ := Option.bind_eq_some_iff.1 hb
  show Datum.literalOrder a b (Xsd.Value.ofLiteral? a) (Xsd.Value.ofLiteral? b) = .lt
  unfold Datum.literalOrder
  rw [hv, hw, hfamily ha, hfamily hb]
  simp only [Datum.familyOrder, Option.bind_some, Xsd.NumberKey.ofValue?_of_decimal? hx,
    Xsd.NumberKey.ofValue?_of_decimal? hy, missingLast, Xsd.NumberKey.order_eq_lt hresolved hlt]
  rfl

/-- An exact number that is less than another one, and far enough from it, is sorted before it, and
no pattern that is ordered by an expression has a row with the greater one before. -/
theorem sorted_of_less (ha : a.IsExact) (hb : b.IsExact)
    (hresolved : ∀ x y, a.decimal? = some x → b.decimal? = some y → x.Resolved y)
    (hless : BinaryOp.less.relate? (.ofTerm (.literal a)) (.ofTerm (.literal b)) =
      some (.ofBool true)) :
    Term.keyOrder (some (.literal a)) (some (.literal b)) = .lt ∧
      ∀ (dataset : Dataset) (inner : GraphPattern) (e : Expression) (row : Row), row.Genuine →
        ((GraphPattern.orderBy inner [(.ascending, e)]).rows dataset row).Pairwise fun r s =>
          ¬(e.eval dataset r = some (.ofTerm (.literal b)) ∧
            e.eval dataset s = some (.ofTerm (.literal a))) := by
  obtain ⟨x, hx⟩ := ha.exists_decimal?
  obtain ⟨y, hy⟩ := hb.exists_decimal?
  obtain ⟨v, hv, hvx⟩ := Option.bind_eq_some_iff.1 hx
  obtain ⟨w, hw, hwy⟩ := Option.bind_eq_some_iff.1 hy
  rw [BinaryOp.relate?_less_iff, order?_of_values hv hw,
    Xsd.Value.order?_of_decimal? hvx hwy] at hless
  have hlt : x.units < y.units := compare_lt_iff_lt.1 (Option.some.inj hless)
  have hbefore := keyOrder_of_resolved hx hy (hresolved x y hx hy) hlt
  refine ⟨hbefore, ?_⟩
  intro dataset inner e row hrow
  refine (inner.pairwise_orderBy dataset e hrow).imp ?_
  -- a row with the greater number does not have the lower rank
  rintro r s hle ⟨hr, hs⟩
  rw [hr, hs] at hle
  have hrank := Term.keyOrder_compares (some (.literal a)) (some (.literal b))
  rw [hbefore] at hrank
  exact absurd hle (not_le.2 hrank)

/-- Two integers that have one approximation are told apart by their exact values. -/
theorem sorted_of_one_approximation :
    BinaryOp.less.relate? (.ofTerm (.literal (ofInt 9007199254740992)))
        (.ofTerm (.literal (ofInt 9007199254740993))) = some (.ofBool true) ∧
      Term.keyOrder (some (.literal (ofInt 9007199254740992)))
        (some (.literal (ofInt 9007199254740993))) = .lt := by
  refine ⟨rfl, (sorted_of_less (by decide +kernel) (by decide +kernel) ?_ rfl).1⟩
  intro x y hx hy
  have hx' : (ofInt 9007199254740992).decimal? =
      some (.ofInteger ⟨9007199254740992, by decide⟩) := rfl
  have hy' : (ofInt 9007199254740993).decimal? =
      some (.ofInteger ⟨9007199254740993, by decide⟩) := rfl
  obtain rfl := Option.some.inj (hx'.symm.trans hx)
  obtain rfl := Option.some.inj (hy'.symm.trans hy)
  exact .level (by decide +kernel)

/-- The numerator of the smaller number is rounded up before it is divided, so that its
approximation is above the one of the greater number, which is rounded down. -/
theorem keyOrder_rounded_twice :
    (ofTyped "9007199254740992.9" ⟨Xsd.decimal⟩).IsExact ∧
      (ofTyped "9007199254740993" ⟨Xsd.integer⟩).IsExact ∧
      BinaryOp.less.relate? (.ofTerm (.literal (ofTyped "9007199254740992.9" ⟨Xsd.decimal⟩)))
        (.ofTerm (.literal (ofTyped "9007199254740993" ⟨Xsd.integer⟩))) = some (.ofBool true) ∧
      Term.keyOrder (some (.literal (ofTyped "9007199254740992.9" ⟨Xsd.decimal⟩)))
        (some (.literal (ofTyped "9007199254740993" ⟨Xsd.integer⟩))) = .gt :=
  ⟨by decide +kernel, by decide +kernel, rfl, by decide +kernel⟩

end Literal

/-! ## Points of the calendar -/

/-- The place on the line of a point of the calendar. -/
def Xsd.Value.instant? : Value → Option Instant
  | dateTime t | date t | time t => some t
  | _ => none

/-- The datatypes of points of the calendar form a family, and only those of `xsd:dateTime` have two
datatypes. -/
theorem Xsd.Value.Of.calendar {datatype : String} {v : Value} {t : Instant} (h : Of datatype v)
    (ht : v.instant? = some t) : LiteralFamily.ofDatatype datatype = .calendar ∧
      (datatype = v.datatype ∨ datatype = Xsd.dateTimeStamp ∧ v.datatype = Xsd.dateTime) := by
  cases h with
  | dateTime t => exact ⟨by decide, .inl rfl⟩
  | dateTimeStamp t => exact ⟨by decide, .inr ⟨rfl, rfl⟩⟩
  | date t => exact ⟨by decide, .inl rfl⟩
  | time t => exact ⟨by decide, .inl rfl⟩
  | _ => cases ht

namespace Literal

variable {a b : Literal} {v w : Xsd.Value} {t u : Xsd.Instant}

/-- Points of the calendar of one kind that both have a time zone, or both lack one, are compared by
their places. -/
theorem order?_of_instants (hkind : v.datatype = w.datatype) (ht : v.instant? = some t)
    (hu : w.instant? = some u) (hzone : t.offset?.isSome = u.offset?.isSome) :
    v.order? w = some (compare t.seconds.units u.seconds.units) ∧
      v.sortOrder w = compare t.seconds.units u.seconds.units := by
  have horder := Xsd.Instant.order?_of_isSome_eq hzone
  have hsort : t.sortOrder u = compare t.seconds.units u.seconds.units := by
    unfold Xsd.Instant.sortOrder
    rw [horder, hzone, compare_eq_iff_eq.2 rfl]
    rfl
  cases v <;> cases w
  case dateTime.dateTime t' u' | date.date t' u' | time.time t' u' =>
    obtain rfl := Option.some.inj ht
    obtain rfl := Option.some.inj hu
    exact ⟨horder, hsort⟩
  -- no other two kinds have points of the calendar and one datatype
  all_goals first | exact absurd hkind (by simp only [Xsd.Value.datatype]; decide) | cases ht

/-- Of two points of the calendar of one kind, of which both have a time zone or both lack one, the
one that is less than the other is sorted before it, unless it is an `xsd:dateTimeStamp` and the
other an `xsd:dateTime`, which comes first whatever the values are. -/
theorem keyOrder_of_less (ha : Xsd.Value.ofLiteral? a = some v)
    (hb : Xsd.Value.ofLiteral? b = some w) (hkind : v.datatype = w.datatype)
    (ht : v.instant? = some t) (hu : w.instant? = some u)
    (hzone : t.offset?.isSome = u.offset?.isSome)
    (hless : BinaryOp.less.relate? (.ofTerm (.literal a)) (.ofTerm (.literal b)) =
      some (.ofBool true)) :
    Term.keyOrder (some (.literal a)) (some (.literal b)) =
      if a.datatype = Xsd.dateTimeStamp ∧ b.datatype = Xsd.dateTime then .gt else .lt := by
  obtain ⟨horder, hsort⟩ := order?_of_instants hkind ht hu hzone
  rw [BinaryOp.relate?_less_iff, order?_of_values ha hb, horder] at hless
  have hlt := Option.some.inj hless
  rw [hlt] at hsort
  obtain ⟨hfamily, hdatatype⟩ := (Xsd.Value.of_parse? ha).calendar ht
  obtain ⟨hfamily', hdatatype'⟩ := (Xsd.Value.of_parse? hb).calendar hu
  show Datum.literalOrder a b (Xsd.Value.ofLiteral? a) (Xsd.Value.ofLiteral? b) = _
  unfold Datum.literalOrder
  rw [ha, hb, hfamily, hfamily']
  simp only [Datum.familyOrder, missingLast, hsort]
  have hplainFirst : compare Xsd.dateTime Xsd.dateTimeStamp = .lt := by decide
  have hstampLast : compare Xsd.dateTimeStamp Xsd.dateTime = .gt := by decide
  rcases hdatatype with heq | ⟨hstamp, hplain⟩
  · rcases hdatatype' with heq' | ⟨hstamp', hplain'⟩
    · -- the same datatype, which is only one of the two
      have hneg : ¬(w.datatype = Xsd.dateTimeStamp ∧ w.datatype = Xsd.dateTime) := by
        intro h
        exact absurd (h.1.symm.trans h.2) (by decide)
      rw [heq, heq', hkind, compare_eq_iff_eq.2 rfl, if_neg hneg]
      rfl
    · rw [heq, hkind, hplain', hstamp', hplainFirst, if_neg (by decide)]
      rfl
  · rcases hdatatype' with heq' | ⟨hstamp', hplain'⟩
    · rw [hstamp, heq', ← hkind, hplain, hstampLast, if_pos ⟨rfl, rfl⟩]
      rfl
    · rw [hstamp, hstamp', compare_eq_iff_eq.2 rfl, if_neg (by decide)]
      rfl

/-- Noon in a time zone far to the east is before midnight in universal time. -/
theorem keyOrder_of_earlier_zone :
    BinaryOp.less.relate?
        (.ofTerm (.literal (ofTyped "2020-01-01T12:00:00+14:00" ⟨Xsd.dateTimeStamp⟩)))
        (.ofTerm (.literal (ofTyped "2020-01-01T00:00:00Z" ⟨Xsd.dateTimeStamp⟩))) =
      some (.ofBool true) ∧
      Term.keyOrder (some (.literal (ofTyped "2020-01-01T12:00:00+14:00" ⟨Xsd.dateTimeStamp⟩)))
        (some (.literal (ofTyped "2020-01-01T00:00:00Z" ⟨Xsd.dateTimeStamp⟩))) = .lt :=
  ⟨rfl, (keyOrder_of_less
    (v := .dateTime ⟨⟨63713426400 * 10 ^ 18, by decide⟩, some ⟨840, by decide⟩⟩)
    (w := .dateTime ⟨⟨63713433600 * 10 ^ 18, by decide⟩, some ⟨0, by decide⟩⟩)
    rfl rfl rfl rfl rfl rfl rfl).trans (if_neg (by decide))⟩

/-- A time comes before a time stamp of twenty years earlier. -/
theorem keyOrder_earlier_stamp :
    BinaryOp.less.relate?
        (.ofTerm (.literal (ofTyped "2000-01-01T00:00:00Z" ⟨Xsd.dateTimeStamp⟩)))
        (.ofTerm (.literal (ofTyped "2020-01-01T00:00:00Z" ⟨Xsd.dateTime⟩))) =
      some (.ofBool true) ∧
      Term.keyOrder (some (.literal (ofTyped "2000-01-01T00:00:00Z" ⟨Xsd.dateTimeStamp⟩)))
        (some (.literal (ofTyped "2020-01-01T00:00:00Z" ⟨Xsd.dateTime⟩))) = .gt :=
  ⟨rfl, by decide +kernel⟩

end Literal
end QuadStore
