import QuadStore.Proofs.Genuine
import QuadStore.Proofs.SortRank

/-!
# Exactness of integer expressions

Sums, differences, products, opposites and absolute values of integers are those of exact
arithmetic, and fail just if some part of the expression leaves the range of 64 bits:
`Expression.exact_or_out_of_range`. The range is looked at where an operation takes its operands and
gives its result, so that a literal beyond it only fails as an operand
(`Expression.eval_eq_none_iff`).
-/

namespace QuadStore

/-! ## Integer literals -/

/-- The number that a literal of an integer type is read as, however large it is. -/
def Literal.integer? (l : Literal) : Option ℤ :=
  if Xsd.integerTypes.contains l.datatype then Text.readInt? l.value.toList else none

/-- The number that the literal of a datum is read as. -/
def Datum.integer? (d : Datum) : Option ℤ := d.literal?.bind Literal.integer?

theorem Xsd.Value.parse?_of_integer {text datatype : String}
    (h : integerTypes.contains datatype = true) :
    parse? text datatype = (Integer.parse? text).map integer := by
  have hboolean : datatype ≠ Xsd.boolean := by
    intro hboolean
    rw [hboolean] at h
    exact absurd h (by decide)
  unfold parse?
  rw [if_neg hboolean, if_pos h]

/-- The integers are values of the integer types. -/
theorem Xsd.Value.Of.contains_integerTypes {datatype : String} {k : Integer}
    (h : Of datatype (.integer k)) : integerTypes.contains datatype = true := by
  cases h with
  | integer htype _ => exact htype

/-- A literal of an integer type has the value that it is read as, if that is in range. -/
theorem Literal.ofLiteral?_of_integer? {l : Literal} {n : ℤ} (h : l.integer? = some n) :
    Xsd.Value.ofLiteral? l = (Xsd.Integer.ofInt? n).map .integer := by
  unfold integer? at h
  split at h
  · rename_i htype
    unfold Xsd.Value.ofLiteral?
    rw [Xsd.Value.parse?_of_integer htype, Xsd.Integer.parse?, h, Option.bind_some]
  · cases h

theorem Literal.integer?_of_ofLiteral? {l : Literal} {k : Xsd.Integer}
    (h : Xsd.Value.ofLiteral? l = some (.integer k)) : l.integer? = some k.value := by
  have htype : Xsd.integerTypes.contains l.datatype = true :=
    (Xsd.Value.of_parse? h).contains_integerTypes
  unfold Xsd.Value.ofLiteral? at h
  rw [Xsd.Value.parse?_of_integer htype] at h
  obtain ⟨k', hparse, hk⟩ := Option.map_eq_some_iff.1 h
  obtain rfl := Xsd.Value.integer.inj hk
  obtain ⟨n, hread, hn⟩ := Option.bind_eq_some_iff.1 hparse
  unfold integer?
  rw [if_pos htype, hread, Xsd.Integer.ofInt?_eq_some_iff.1 hn]

namespace Datum

variable {d : Datum} {n : ℤ}

/-- The value of a genuine datum with an integer value, or with none, is the one of its literal. -/
theorem Genuine.value?_of_integer? (hd : d.Genuine) (h : d.integer? = some n) :
    d.value? = (Xsd.Integer.ofInt? n).map .integer := by
  obtain ⟨l, hl, hn⟩ := Option.bind_eq_some_iff.1 h
  have hvalue := hd.value
  have hread : (ofTerm d.term).value? = (Xsd.Integer.ofInt? n).map .integer := by
    show d.literal?.bind Xsd.Value.ofLiteral? = _
    rw [hl, Option.bind_some, Literal.ofLiteral?_of_integer? hn]
  rw [hread] at hvalue
  generalize d.value? = v? at hvalue
  cases hk : Xsd.Integer.ofInt? n with
  | none =>
    rw [hk] at hvalue
    cases hvalue
    rfl
  | some k =>
    rw [hk] at hvalue
    cases hvalue with
    | some halike =>
      cases halike
      rfl

theorem Genuine.integer?_of_value? {k : Xsd.Integer} (hd : d.Genuine)
    (h : d.value? = some (.integer k)) : d.integer? = some k.value := by
  have hvalue := hd.value
  rw [h] at hvalue
  cases hread : (ofTerm d.term).value? with
  | none =>
    rw [hread] at hvalue
    cases hvalue
  | some w =>
    rw [hread] at hvalue
    cases hvalue with
    | some halike =>
      cases halike
      obtain ⟨l, hl, hw⟩ := Option.bind_eq_some_iff.1 hread
      exact Option.bind_eq_some_iff.2 ⟨l, hl, Literal.integer?_of_ofLiteral? hw⟩

end Datum

namespace Expression

variable {dataset : Dataset} {row : Row} {e s a b : Expression} {m n : ℤ}

/-! ## What exact arithmetic makes of an expression -/

/-- The integer expressions, and the numbers that they stand for in a row. -/
inductive Denotes (row : Row) : Expression → ℤ → Prop
  | literal {l : Literal} {n : ℤ} : l.integer? = some n → Denotes row (.literal l) n
  | var {v : Variable} {d : Datum} {n : ℤ} : row.get? v = some d → d.integer? = some n →
      Denotes row (.var v) n
  | add {a b : Expression} {m n : ℤ} : Denotes row a m → Denotes row b n →
      Denotes row (.binary .add a b) (m + n)
  | subtract {a b : Expression} {m n : ℤ} : Denotes row a m → Denotes row b n →
      Denotes row (.binary .subtract a b) (m - n)
  | multiply {a b : Expression} {m n : ℤ} : Denotes row a m → Denotes row b n →
      Denotes row (.binary .multiply a b) (m * n)
  | plus {a : Expression} {n : ℤ} : Denotes row a n → Denotes row (.unary .plus a) n
  | minus {a : Expression} {n : ℤ} : Denotes row a n → Denotes row (.unary .minus a) (-n)
  | abs {a : Expression} {n : ℤ} : Denotes row a n → Denotes row (.call .abs [a]) |n|

/-- An expression stands for one number. -/
theorem Denotes.unique (h : Denotes row e m) (h' : Denotes row e n) : m = n := by
  induction h generalizing n with
  | literal hl =>
    cases h' with
    | literal hl' => exact Option.some.inj (hl.symm.trans hl')
  | var hv hd =>
    cases h' with
    | var hv' hd' =>
      obtain rfl := Option.some.inj (hv.symm.trans hv')
      exact Option.some.inj (hd.symm.trans hd')
  | add _ _ iha ihb =>
    cases h' with
    | add ha hb => rw [iha ha, ihb hb]
  | subtract _ _ iha ihb =>
    cases h' with
    | subtract ha hb => rw [iha ha, ihb hb]
  | multiply _ _ iha ihb =>
    cases h' with
    | multiply ha hb => rw [iha ha, ihb hb]
  | plus _ ih =>
    cases h' with
    | plus ha => exact ih ha
  | minus _ ih =>
    cases h' with
    | minus ha => rw [ih ha]
  | abs _ ih =>
    cases h' with
    | abs ha => rw [ih ha]

/-- The operands of an operator, or the arguments of a function. -/
def operands : Expression → List Expression
  | binary _ a b => [a, b]
  | unary _ a => [a]
  | call _ es => es
  | _ => []

/-- The parts of an expression: itself, and the parts of its operands. -/
inductive IsPart (s : Expression) : Expression → Prop
  | self : IsPart s s
  | operand {a e : Expression} : a ∈ e.operands → IsPart s a → IsPart s e

/-- Whether all parts of an expression stand for numbers in range. -/
def InRange (row : Row) (e : Expression) : Prop :=
  ∀ s n, IsPart s e → Denotes row s n → Fits 64 n

theorem not_inRange_iff : ¬ InRange row e ↔ ∃ s n, IsPart s e ∧ Denotes row s n ∧ ¬ Fits 64 n := by
  simp [InRange]

/-- An expression is in range if its operands are, and its own number is. -/
theorem inRange_iff (h : Denotes row e n) :
    InRange row e ↔ (∀ a ∈ e.operands, InRange row a) ∧ Fits 64 n := by
  constructor
  · intro hrange
    exact ⟨fun a ha s m hs => hrange s m (.operand ha hs), hrange e n .self h⟩
  · rintro ⟨hoperands, hn⟩ s m hs hm
    cases hs with
    | self => rwa [hm.unique h]
    | operand ha hs => exact hoperands _ ha s m hs hm

end Expression

/-! ## Results that are checked -/

namespace Xsd

/-- A result that is a number, as long as this is in range and a condition holds; else there is
none. -/
def Checked (x? : Option Value) (p : Prop) (n : ℤ) : Prop :=
  ∀ v, x? = some v ↔ p ∧ ∃ k : Integer, k.value = n ∧ v = .integer k

namespace Checked

variable {x? y? : Option Value} {p q : Prop} {m n : ℤ}

theorem of_ofInt? (n : ℤ) : Checked ((Integer.ofInt? n).map .integer) True n := by
  intro v
  rw [Option.map_eq_some_iff, true_and]
  constructor
  · rintro ⟨k, hk, rfl⟩
    exact ⟨k, Integer.ofInt?_eq_some_iff.1 hk, rfl⟩
  · rintro ⟨k, hk, rfl⟩
    exact ⟨k, Integer.ofInt?_eq_some_iff.2 hk, rfl⟩

/-- The condition only matters for numbers in range. -/
theorem congr (h : Checked x? p n) (hpq : Fits 64 n → (p ↔ q)) : Checked x? q n := by
  intro v
  rw [h v]
  constructor
  · rintro ⟨hp, k, rfl, hv⟩
    exact ⟨(hpq k.fits).1 hp, k, rfl, hv⟩
  · rintro ⟨hq, k, rfl, hv⟩
    exact ⟨(hpq k.fits).2 hq, k, rfl, hv⟩

/-- An operation on one number. -/
theorem bind {f : Value → Option Value} {g : ℤ → ℤ}
    (hf : ∀ i : Integer, f (.integer i) = (Integer.ofInt? (g i.value)).map .integer)
    (hp : p → Fits 64 n) (h : Checked x? p n) : Checked (x?.bind f) p (g n) := by
  intro v
  rw [Option.bind_eq_some_iff]
  constructor
  · rintro ⟨w, hw, hv⟩
    obtain ⟨hholds, i, rfl, rfl⟩ := (h w).1 hw
    rw [hf] at hv
    exact ⟨hholds, ((of_ofInt? _ v).1 hv).2⟩
  · rintro ⟨hholds, hv⟩
    let i : Integer := ⟨n, hp hholds⟩
    refine ⟨.integer i, (h _).2 ⟨hholds, i, rfl, rfl⟩, ?_⟩
    rw [hf]
    exact (of_ofInt? _ v).2 ⟨trivial, hv⟩

/-- An operation on two numbers. -/
theorem bind₂ {f : NumberPair → Option Value} {g : ℤ → ℤ → ℤ}
    (hf : ∀ i j : Integer, f (.integer i j) = (Integer.ofInt? (g i.value j.value)).map .integer)
    (hp : p → Fits 64 m) (hq : q → Fits 64 n) (hx : Checked x? p m) (hy : Checked y? q n) :
    Checked (x?.bind fun v => y?.bind fun w => (NumberPair.ofValues? v w).bind f) (p ∧ q)
      (g m n) := by
  intro v
  rw [Option.bind_eq_some_iff]
  constructor
  · rintro ⟨w, hw, hv⟩
    obtain ⟨hholds, i, rfl, rfl⟩ := (hx w).1 hw
    obtain ⟨hholds', hv⟩ := (hy.bind (fun j => hf i j) hq v).1 hv
    exact ⟨⟨hholds, hholds'⟩, hv⟩
  · rintro ⟨⟨hholds, hholds'⟩, hv⟩
    let i : Integer := ⟨m, hp hholds⟩
    refine ⟨.integer i, (hx _).2 ⟨hholds, i, rfl, rfl⟩, ?_⟩
    exact (hy.bind (fun j => hf i j) hq v).2 ⟨hholds', hv⟩

end Checked
end Xsd

/-! ## Values of integer expressions -/

/-- The value of a datum, if there is one. -/
def Datum.valueOf? (d? : Option Datum) : Option Xsd.Value := d?.bind Datum.value?

namespace Datum

theorem valueOf?_map_ofValue (v? : Option Xsd.Value) : valueOf? (v?.map ofValue) = v? := by
  cases v? <;> rfl

/-- An operation on two data is one on their values. -/
theorem bind_arithmetic? (f : Xsd.NumberPair → Option Xsd.Value) (a? b? : Option Datum) :
    (a?.bind fun a => b?.bind fun b => arithmetic? f a b) =
      ((valueOf? a?).bind fun v => (valueOf? b?).bind fun w =>
        (Xsd.NumberPair.ofValues? v w).bind f).map ofValue := by
  cases a? with
  | none => rfl
  | some a =>
    cases b? with
    | none =>
      show none = (a.value?.bind fun _ => none).map ofValue
      cases a.value? <;> rfl
    | some b =>
      show ((numbers? a b).bind f).map ofValue = _
      unfold numbers?
      rw [Option.bind_assoc]
      congr 1
      refine congrArg (Option.bind a.value?) (funext fun v => ?_)
      exact Option.bind_assoc _ _ _

theorem bind_map_ofValue (f : Xsd.Value → Option Xsd.Value) (a? : Option Datum) :
    (a?.bind fun a => (a.value?.bind f).map ofValue) = ((valueOf? a?).bind f).map ofValue := by
  cases a? <;> rfl

end Datum

namespace Expression

variable {dataset : Dataset} {row : Row} {e : Expression} {n : ℤ}

theorem eval_arithmetic {op : BinaryOp} {f : Xsd.NumberPair → Option Xsd.Value}
    (hop : ∀ a? b?, op.combine? a? b? =
      a?.bind fun a => b?.bind fun b => Datum.arithmetic? f a b)
    (dataset : Dataset) (row : Row) (a b : Expression) :
    (binary op a b).eval dataset row =
      ((Datum.valueOf? (a.eval dataset row)).bind fun v =>
        (Datum.valueOf? (b.eval dataset row)).bind fun w =>
          (Xsd.NumberPair.ofValues? v w).bind f).map .ofValue := by
  simp only [eval]
  rw [hop]
  exact Datum.bind_arithmetic? f _ _

theorem eval_abs (dataset : Dataset) (row : Row) (a : Expression) :
    (call .abs [a]).eval dataset row =
      ((Datum.valueOf? (a.eval dataset row)).bind Xsd.Value.abs?).map .ofValue := by
  simp only [eval, evalEach]
  cases a.eval dataset row <;> rfl

theorem eval_minus (dataset : Dataset) (row : Row) (a : Expression) :
    (unary .minus a).eval dataset row =
      ((Datum.valueOf? (a.eval dataset row)).bind Xsd.Value.neg?).map .ofValue := by
  simp only [eval]
  exact Datum.bind_map_ofValue Xsd.Value.neg? _

/-- A unary plus keeps the value of a number, and lets no other value pass. -/
theorem valueOf?_eval_plus (dataset : Dataset) (row : Row) (a : Expression) :
    Datum.valueOf? ((unary .plus a).eval dataset row) =
      (Datum.valueOf? (a.eval dataset row)).bind fun v => if v.isNumeric then some v else none := by
  simp only [eval]
  cases a.eval dataset row with
  | none => rfl
  | some d =>
    show Datum.valueOf? (if d.value?.any Xsd.Value.isNumeric then some d else none) =
      d.value?.bind _
    cases hv : d.value? with
    | none => rfl
    | some v =>
      show Datum.valueOf? (if v.isNumeric then some d else none) = if v.isNumeric then _ else _
      cases v.isNumeric with
      | false => rfl
      | true => exact hv

/-! ## Expressions over their operands -/

variable {a b : Expression} {m : ℤ}

theorem Denotes.fits (h : Denotes row e n) (hrange : InRange row e) : Fits 64 n :=
  ((inRange_iff h).1 hrange).2

theorem checked_leaf (h : Denotes row e n) (hleaf : e.operands = [])
    (hvalue : Datum.valueOf? (e.eval dataset row) = (Xsd.Integer.ofInt? n).map .integer) :
    Xsd.Checked (Datum.valueOf? (e.eval dataset row)) (InRange row e) n := by
  rw [hvalue]
  refine (Xsd.Checked.of_ofInt? n).congr fun hn => iff_of_true trivial ?_
  rw [inRange_iff h, hleaf]
  exact ⟨fun a ha => absurd ha List.not_mem_nil, hn⟩

theorem checked_one {f : Xsd.Value → Option Xsd.Value} {g : ℤ → ℤ}
    (hf : ∀ i : Xsd.Integer, f (.integer i) = (Xsd.Integer.ofInt? (g i.value)).map .integer)
    (h : Denotes row e (g n)) (hoperands : e.operands = [a]) (ha : Denotes row a n)
    (hvalue : Datum.valueOf? (e.eval dataset row) = (Datum.valueOf? (a.eval dataset row)).bind f)
    (hchecked : Xsd.Checked (Datum.valueOf? (a.eval dataset row)) (InRange row a) n) :
    Xsd.Checked (Datum.valueOf? (e.eval dataset row)) (InRange row e) (g n) := by
  rw [hvalue]
  refine (hchecked.bind hf ha.fits).congr fun hn => ?_
  rw [inRange_iff h, hoperands, List.forall_mem_singleton]
  exact (and_iff_left hn).symm

theorem checked_two {op : BinaryOp} {f : Xsd.NumberPair → Option Xsd.Value} {g : ℤ → ℤ → ℤ}
    (hop : ∀ a? b?, op.combine? a? b? =
      a?.bind fun a => b?.bind fun b => Datum.arithmetic? f a b)
    (hf : ∀ i j : Xsd.Integer,
      f (.integer i j) = (Xsd.Integer.ofInt? (g i.value j.value)).map .integer)
    (h : Denotes row (binary op a b) (g m n)) (ha : Denotes row a m) (hb : Denotes row b n)
    (hchecked : Xsd.Checked (Datum.valueOf? (a.eval dataset row)) (InRange row a) m)
    (hchecked' : Xsd.Checked (Datum.valueOf? (b.eval dataset row)) (InRange row b) n) :
    Xsd.Checked (Datum.valueOf? ((binary op a b).eval dataset row)) (InRange row (binary op a b))
      (g m n) := by
  rw [eval_arithmetic hop, Datum.valueOf?_map_ofValue]
  refine (hchecked.bind₂ hf ha.fits hb.fits hchecked').congr fun hn => ?_
  rw [inRange_iff h]
  simp only [operands, List.forall_mem_cons, List.not_mem_nil, IsEmpty.forall_iff, implies_true,
    and_true]
  exact (and_iff_left hn).symm

/-- The value of an integer expression is the number that it stands for, as long as all parts are in
range; else it has none. -/
theorem checked_of_denotes (dataset : Dataset) (hrow : row.Genuine) (h : Denotes row e n) :
    Xsd.Checked (Datum.valueOf? (e.eval dataset row)) (InRange row e) n := by
  induction h with
  | @literal l n hl =>
    refine checked_leaf (.literal hl) rfl ?_
    simp only [eval]
    exact Literal.ofLiteral?_of_integer? hl
  | @var v d n hv hd =>
    refine checked_leaf (.var hv hd) rfl ?_
    simp only [eval]
    rw [hv]
    exact (hrow v d hv).value?_of_integer? hd
  | add ha hb iha ihb =>
    exact checked_two (fun _ _ => rfl) (fun _ _ => rfl) (.add ha hb) ha hb iha ihb
  | subtract ha hb iha ihb =>
    exact checked_two (fun _ _ => rfl) (fun _ _ => rfl) (.subtract ha hb) ha hb iha ihb
  | multiply ha hb iha ihb =>
    exact checked_two (fun _ _ => rfl) (fun _ _ => rfl) (.multiply ha hb) ha hb iha ihb
  | @plus a n ha ih =>
    refine checked_one (g := id) (fun i => ?_) (.plus ha) rfl ha
      (valueOf?_eval_plus dataset row a) ih
    rw [id, Xsd.Integer.ofInt?_eq_some_iff.2 rfl]
    rfl
  | @minus a n ha ih =>
    have hvalue : Datum.valueOf? ((unary .minus a).eval dataset row) =
        (Datum.valueOf? (a.eval dataset row)).bind Xsd.Value.neg? := by
      rw [eval_minus, Datum.valueOf?_map_ofValue]
    exact checked_one (fun _ => rfl) (.minus ha) rfl ha hvalue ih
  | @abs a n ha ih =>
    have hvalue : Datum.valueOf? ((call .abs [a]).eval dataset row) =
        (Datum.valueOf? (a.eval dataset row)).bind Xsd.Value.abs? := by
      rw [eval_abs, Datum.valueOf?_map_ofValue]
    have habs : ∀ i : Xsd.Integer,
        (Xsd.Value.integer i).abs? = (Xsd.Integer.ofInt? |i.value|).map .integer := by
      intro i
      rw [← Int.natCast_natAbs]
      rfl
    exact checked_one habs (.abs ha) rfl ha hvalue ih

/-! ## Exact or missing -/

/-- What an operation gives has a value. -/
theorem exists_value_of_operation (h : Denotes row e n) (hoperation : e.operands ≠ []) {d : Datum}
    (hd : e.eval dataset row = some d) : ∃ v, d.value? = some v := by
  -- but for a unary plus, it is computed from a value
  have hcomputed : ∀ v? : Option Xsd.Value, e.eval dataset row = v?.map .ofValue →
      ∃ v, d.value? = some v := by
    intro v? hv
    obtain ⟨v, -, rfl⟩ := Option.map_eq_some_iff.1 (hv.symm.trans hd)
    exact ⟨v, rfl⟩
  cases h with
  | literal _ => exact absurd rfl hoperation
  | var _ _ => exact absurd rfl hoperation
  | add _ _ => exact hcomputed _ (eval_arithmetic (fun _ _ => rfl) dataset row _ _)
  | subtract _ _ => exact hcomputed _ (eval_arithmetic (fun _ _ => rfl) dataset row _ _)
  | multiply _ _ => exact hcomputed _ (eval_arithmetic (fun _ _ => rfl) dataset row _ _)
  | @plus a n _ =>
    simp only [eval] at hd
    obtain ⟨c, hc, hplus⟩ := Option.bind_eq_some_iff.1 hd
    change (if c.value?.any Xsd.Value.isNumeric then some c else none) = some d at hplus
    cases hv : c.value? with
    | none =>
      rw [hv] at hplus
      cases hplus
    | some v =>
      split at hplus
      · rw [← Option.some.inj hplus]
        exact ⟨v, hv⟩
      · cases hplus
  | minus _ => exact hcomputed _ (eval_minus dataset row _)
  | abs _ => exact hcomputed _ (eval_abs dataset row _)

/-- A literal or a variable gives what it is read as, in range or not. -/
theorem exists_datum_of_leaf (dataset : Dataset) (h : Denotes row e n) (hleaf : e.operands = []) :
    ∃ d, e.eval dataset row = some d ∧ d.integer? = some n := by
  cases h with
  | @literal l n hl =>
    simp only [eval]
    exact ⟨.ofTerm (.literal l), rfl, hl⟩
  | @var v d n hv hd =>
    simp only [eval]
    exact ⟨d, hv, hd⟩
  | _ => cases hleaf

/-- An integer expression, whatever the size of its literals, fails just if it is an operation of
which a part is out of range. -/
theorem eval_eq_none_iff (hrow : row.Genuine) (h : Denotes row e n) :
    e.eval dataset row = none ↔
      e.operands ≠ [] ∧ ∃ s m, IsPart s e ∧ Denotes row s m ∧ ¬ Fits 64 m := by
  have hchecked := checked_of_denotes dataset hrow h
  rw [← not_inRange_iff]
  constructor
  · intro hnone
    constructor
    · intro hleaf
      obtain ⟨d, hd, -⟩ := exists_datum_of_leaf dataset h hleaf
      rw [hnone] at hd
      cases hd
    · intro hrange
      have hvalue := (hchecked _).2 ⟨hrange, ⟨n, h.fits hrange⟩, rfl, rfl⟩
      rw [hnone] at hvalue
      cases hvalue
  · rintro ⟨hoperation, hrange⟩
    rw [Option.eq_none_iff_forall_ne_some]
    intro d hd
    obtain ⟨v, hv⟩ := exists_value_of_operation h hoperation hd
    rw [hd] at hchecked
    exact hrange ((hchecked v).1 hv).1

/-- The literals and the values of variables in an expression are well formed: they have a value. -/
def WellFormed (dataset : Dataset) (row : Row) (e : Expression) : Prop :=
  ∀ s, IsPart s e → s.operands = [] → ∃ v, Datum.valueOf? (s.eval dataset row) = some v

/-- An expression is well formed if its operands are, or it is a literal or a variable with a
value. -/
theorem WellFormed.of_operands (h : ∀ a ∈ e.operands, WellFormed dataset row a)
    (hleaf : e.operands = [] → ∃ v, Datum.valueOf? (e.eval dataset row) = some v) :
    WellFormed dataset row e := by
  intro s hs hoperands
  cases hs with
  | self => exact hleaf hoperands
  | operand ha hs => exact h _ ha s hs hoperands

/-- An integer expression over well-formed literals gives the number that exact arithmetic makes of
it, or fails because the exact value of a part is out of range. -/
theorem exact_or_out_of_range (hrow : row.Genuine) (h : Denotes row e n)
    (hformed : WellFormed dataset row e) :
    (∀ d, e.eval dataset row = some d →
      d.integer? = some n ∧ ∃ k : Xsd.Integer, k.value = n ∧ d.value? = some (.integer k)) ∧
    (e.eval dataset row = none ↔ ∃ s m, IsPart s e ∧ Denotes row s m ∧ ¬ Fits 64 m) := by
  have hchecked := checked_of_denotes dataset hrow h
  have hleaf : e.operands = [] → InRange row e := by
    intro hleaf
    obtain ⟨v, hv⟩ := hformed e .self hleaf
    exact ((hchecked v).1 hv).1
  constructor
  · intro d hd
    have hvalue : ∃ v, d.value? = some v := by
      by_cases hoperation : e.operands = []
      · obtain ⟨v, hv⟩ := hformed e .self hoperation
        rw [hd] at hv
        exact ⟨v, hv⟩
      · exact exists_value_of_operation h hoperation hd
    obtain ⟨v, hv⟩ := hvalue
    rw [hd] at hchecked
    obtain ⟨-, k, rfl, rfl⟩ := (hchecked v).1 hv
    have hgenuine : d.Genuine := e.genuine_eval dataset hrow d hd
    exact ⟨hgenuine.integer?_of_value? hv, k, rfl, hv⟩
  · rw [eval_eq_none_iff hrow h, ← not_inRange_iff]
    constructor
    · exact And.right
    · intro hrange
      exact ⟨fun hoperation => hrange (hleaf hoperation), hrange⟩

/-- The row in which a variable is the greatest number in range. -/
def greatest : Row := Row.empty.add ⟨"x"⟩ (.ofTerm (.literal (.ofInt 9223372036854775807))) rfl

/-- The opposite of the greatest number, less one. -/
def least : Expression := binary .subtract (unary .minus (.var ⟨"x"⟩)) (.literal (.ofInt 1))

theorem genuine_greatest : greatest.Genuine :=
  Row.genuine_empty.bind? (Datum.genuine_ofTerm _) rfl

theorem denotes_least : Denotes greatest least (-9223372036854775808) := by
  have hx : (Datum.ofTerm (.literal (.ofInt 9223372036854775807))).integer? =
      some 9223372036854775807 := by decide +kernel
  have hone : (Literal.ofInt 1).integer? = some 1 := by decide +kernel
  exact .subtract (.minus (.var rfl hx)) (.literal hone)

theorem wellFormed_least : WellFormed (.ofQuads []) greatest least := by
  have hx : WellFormed (.ofQuads []) greatest (.var ⟨"x"⟩) :=
    .of_operands (fun _ ha => absurd ha List.not_mem_nil) fun _ =>
      Option.isSome_iff_exists.1 (by decide +kernel)
  have hone : WellFormed (.ofQuads []) greatest (.literal (.ofInt 1)) :=
    .of_operands (fun _ ha => absurd ha List.not_mem_nil) fun _ =>
      Option.isSome_iff_exists.1 (by decide +kernel)
  refine .of_operands ?_ nofun
  refine List.forall_mem_cons.2 ⟨?_, List.forall_mem_singleton.2 hone⟩
  exact .of_operands (List.forall_mem_singleton.2 hx) nofun

/-- The least number in range is exact, and its opposite is out of range. -/
theorem exact_at_the_least : greatest.Genuine ∧
    Denotes greatest least (-9223372036854775808) ∧ WellFormed (.ofQuads []) greatest least ∧
    (∃ d, least.eval (.ofQuads []) greatest = some d ∧
      d.integer? = some (-9223372036854775808) ∧
      ∃ k : Xsd.Integer, k.value = -9223372036854775808 ∧ d.value? = some (.integer k)) ∧
    (unary .minus least).eval (.ofQuads []) greatest = none := by
  have hexact := exact_or_out_of_range genuine_greatest denotes_least wellFormed_least
  have hformed : WellFormed (.ofQuads []) greatest (unary .minus least) :=
    .of_operands (List.forall_mem_singleton.2 wellFormed_least) nofun
  have hopposite := exact_or_out_of_range genuine_greatest (.minus denotes_least) hformed
  obtain ⟨d, hd⟩ := Option.isSome_iff_exists.1
    (show (least.eval (.ofQuads []) greatest).isSome by decide +kernel)
  exact ⟨genuine_greatest, denotes_least, wellFormed_least, ⟨d, hd, hexact.1 d hd⟩,
    hopposite.2.2 ⟨_, _, .self, .minus denotes_least, by decide⟩⟩

end Expression
end QuadStore
