import QuadStore.Proofs.Expressions

/-!
# Coherence of comparisons

The operators `=`, `<`, `<=`, `>` and `>=` give the same answer from either side of a pair of data,
fail on the same pairs, and do not contradict each other: `Expression.coherent`. Whatever the terms
are, one fact carries this over the kinds of values, their promotion and the two ways of comparing
literals: the order behind the operators is turned over when its sides are (`Datum.order?_swap`).
-/

namespace QuadStore

/-! ## Values from either side -/

namespace Xsd

theorem floatingOrder?_swap (f : BinaryFormat) (a b : Nat) :
    (floatingOrder? f a b).map Ordering.swap = floatingOrder? f b a := by
  unfold floatingOrder?
  rw [Bool.or_comm]
  split
  · rfl
  · exact congrArg some Std.OrientedOrd.eq_swap.symm

/-- Of two instants, the one without a time zone is spread over a span on whichever side it is. -/
theorem Instant.order?_swap (a b : Instant) : (a.order? b).map Ordering.swap = b.order? a := by
  unfold order?
  cases a.offset? with
  | none =>
    cases b.offset? with
    | none => exact congrArg some Std.OrientedOrd.eq_swap.symm
    | some _ =>
      show ((spanOrder? b.seconds.units a.seconds.units).map _).map _ = spanOrder? _ _
      cases spanOrder? b.seconds.units a.seconds.units with
      | none => rfl
      | some o => exact congrArg some Ordering.swap_swap
  | some _ =>
    cases b.offset? with
    | none => rfl
    | some _ => exact congrArg some Std.OrientedOrd.eq_swap.symm

namespace NumberPair

/-- The same two numbers from the other side. -/
def flip : NumberPair → NumberPair
  | integer a b => integer b a
  | decimal a b => decimal b a
  | float a b => float b a
  | double a b => double b a

/-- Two numbers are brought to the same kind, whichever of them comes first. -/
theorem ofValues?_flip (v w : Value) : (ofValues? v w).map flip = ofValues? w v := by
  cases v <;> cases w <;> rfl

theorem order?_flip (p : NumberPair) : p.flip.order? = p.order?.map Ordering.swap := by
  cases p with
  | integer a b => exact congrArg some Std.OrientedOrd.eq_swap
  | decimal a b => exact congrArg some Std.OrientedOrd.eq_swap
  | float a b => exact (floatingOrder?_swap .binary32 _ _).symm
  | double a b => exact (floatingOrder?_swap .binary64 _ _).symm

theorem bind_order?_swap (v w : Value) :
    ((ofValues? v w).bind order?).map Ordering.swap = (ofValues? w v).bind order? := by
  rw [← ofValues?_flip v w]
  cases ofValues? v w with
  | none => rfl
  | some p => exact p.order?_flip.symm

end NumberPair

theorem Value.order?_swap (v w : Value) : (v.order? w).map Ordering.swap = w.order? v := by
  have hnumbers := NumberPair.bind_order?_swap v w
  cases v <;> cases w
  case boolean.boolean a b => exact congrArg some Std.OrientedOrd.eq_swap.symm
  case dateTime.dateTime a b => exact a.order?_swap b
  case date.date a b => exact a.order?_swap b
  case time.time a b => exact a.order?_swap b
  -- numbers, and values of two kinds
  all_goals exact hnumbers

end Xsd

/-! ## Data from either side -/

namespace Datum

variable {a b : Datum}

/-- A datum that is a string is known from its text. -/
theorem term_of_string? {s : String} (h : a.string? = some s) :
    a.term = .literal (.simple s) := by
  obtain ⟨term, value?⟩ := a
  cases term with
  | iri i => cases h
  | blank b => cases h
  | literal l =>
    cases l with
    | simple t => exact congrArg (Term.literal ∘ Literal.simple) (Option.some.inj h)
    | tagged t language => cases h
    | typed t datatype own =>
      change (if datatype.text = Xsd.string then some t else none) = some s at h
      rw [if_neg own] at h
      cases h

theorem same_comm (a b : Datum) : a.same b = b.same a := BEq.comm

/-- Without the value of one of them, two data are ordered by their texts, if they have such. -/
theorem order?_of_value?_none (h : a.value? = none ∨ b.value? = none) :
    a.order? b = a.string?.bind fun s => b.string?.map fun t => compare s t := by
  unfold order?
  split
  · rename_i hv hw
    rw [hv, hw] at h
    simp at h
  · rfl

/-- Without the value of one of them, two data are equal if their terms are, and different unless
both are literals of which one has no known meaning. -/
theorem equal?_of_value?_none (h : a.value? = none ∨ b.value? = none) :
    a.equal? b =
      if a.same b then some true
      else if a.literal?.isSome && b.literal?.isSome then
        if a.isKnownLiteral && b.isKnownLiteral then some false else none
      else some false := by
  unfold equal?
  split
  · rename_i hv hw
    rw [hv, hw] at h
    simp at h
  · rfl

/-- Either both data have a value, or one of them has none. -/
theorem value?_cases (a b : Datum) :
    (∃ v w, a.value? = some v ∧ b.value? = some w) ∨ a.value? = none ∨ b.value? = none := by
  cases a.value? with
  | none => exact .inr (.inl rfl)
  | some v =>
    cases b.value? with
    | none => exact .inr (.inr rfl)
    | some w => exact .inl ⟨v, w, rfl, rfl⟩

theorem order?_of_value? {v w : Xsd.Value} (hv : a.value? = some v) (hw : b.value? = some w) :
    a.order? b = v.order? w := by
  unfold order?
  rw [hv, hw]

theorem equal?_of_value? {v w : Xsd.Value} (hv : a.value? = some v) (hw : b.value? = some w) :
    a.equal? b = some (v.order? w == some .eq) := by
  unfold equal?
  rw [hv, hw]

/-- The order of two data is turned over when they change places, and fails either way or not at
all. -/
theorem order?_swap (a b : Datum) : (a.order? b).map Ordering.swap = b.order? a := by
  rcases value?_cases a b with ⟨v, w, hv, hw⟩ | h
  · rw [order?_of_value? hv hw, order?_of_value? hw hv]
    exact v.order?_swap w
  · rw [order?_of_value?_none h, order?_of_value?_none h.symm]
    cases a.string? with
    | none => cases b.string? <;> rfl
    | some s =>
      cases b.string? with
      | none => rfl
      | some t => exact congrArg some Std.OrientedOrd.eq_swap.symm

theorem equal?_comm (a b : Datum) : a.equal? b = b.equal? a := by
  rcases value?_cases a b with ⟨v, w, hv, hw⟩ | h
  · rw [equal?_of_value? hv hw, equal?_of_value? hw hv, ← v.order?_swap w]
    cases v.order? w with
    | none => rfl
    | some o => cases o <;> rfl
  · rw [equal?_of_value?_none h, equal?_of_value?_none h.symm, same_comm a b,
      Bool.and_comm a.literal?.isSome, Bool.and_comm a.isKnownLiteral]

/-- Two data that are ordered are equal if they are level, and different if they are not. -/
theorem equal?_of_order? {o : Ordering} (h : a.order? b = some o) :
    a.equal? b = some (o == .eq) := by
  rcases value?_cases a b with ⟨v, w, hv, hw⟩ | hnone
  · rw [order?_of_value? hv hw] at h
    rw [equal?_of_value? hv hw, h]
    rfl
  · rw [order?_of_value?_none hnone] at h
    obtain ⟨s, hs, h⟩ := Option.bind_eq_some_iff.1 h
    obtain ⟨t, ht, rfl⟩ := Option.map_eq_some_iff.1 h
    have hterm := term_of_string? hs
    have hterm' := term_of_string? ht
    have hliteral : a.literal? = some (.simple s) := congrArg Term.literal? hterm
    have hliteral' : b.literal? = some (.simple t) := congrArg Term.literal? hterm'
    rw [equal?_of_value?_none hnone, isKnownLiteral, isKnownLiteral, same, hliteral, hliteral',
      hterm, hterm']
    simp only [Option.any_some, Literal.isPlain, Bool.or_true, Option.isSome_some, Bool.and_self,
      if_true]
    by_cases hst : s = t
    · subst hst
      rw [beq_self_eq_true, if_pos rfl, Std.ReflOrd.compare_self]
      rfl
    · rw [if_neg fun h => hst (by cases eq_of_beq h; rfl)]
      congr 1
      symm
      apply beq_eq_false_iff_ne.2
      intro heq
      exact hst (Std.LawfulEqOrd.eq_of_compare heq)

/-! ## Data that may be missing -/

/-- The order of the values of two expressions. -/
def orderOf? (a? b? : Option Datum) : Option Ordering := a?.bind fun a => b?.bind a.order?

/-- Whether the values of two expressions are equal. -/
def equalOf? (a? b? : Option Datum) : Option Bool := a?.bind fun a => b?.bind a.equal?

variable {a? b? : Option Datum}

theorem orderOf?_swap (a? b? : Option Datum) :
    (orderOf? a? b?).map Ordering.swap = orderOf? b? a? := by
  cases a? with
  | none => cases b? <;> rfl
  | some a =>
    cases b? with
    | none => rfl
    | some b => exact a.order?_swap b

theorem equalOf?_comm (a? b? : Option Datum) : equalOf? a? b? = equalOf? b? a? := by
  cases a? with
  | none => cases b? <;> rfl
  | some a =>
    cases b? with
    | none => rfl
    | some b => exact a.equal?_comm b

theorem equalOf?_of_orderOf? {o : Ordering} (h : orderOf? a? b? = some o) :
    equalOf? a? b? = some (o == .eq) := by
  obtain ⟨a, ha, h⟩ := Option.bind_eq_some_iff.1 h
  obtain ⟨b, hb, h⟩ := Option.bind_eq_some_iff.1 h
  rw [ha, hb]
  exact equal?_of_order? h

end Datum

/-! ## The operators -/

namespace BinaryOp

/-- The operators that look at the order of their sides. -/
def isOrdering : BinaryOp → Bool
  | less | lessOrEqual | greater | greaterOrEqual => true
  | _ => false

/-- Whether such an operator is true of sides in this order. -/
def accepts : BinaryOp → Ordering → Bool
  | less, o => o == .lt
  | lessOrEqual, o => o != .gt
  | greater, o => o == .gt
  | greaterOrEqual, o => o != .lt
  | _, _ => false

theorem combine?_of_isOrdering {op : BinaryOp} (h : op.isOrdering = true) (a? b? : Option Datum) :
    op.combine? a? b? = (Datum.orderOf? a? b?).map fun o => .ofBool (op.accepts o) := by
  unfold Datum.orderOf?
  cases a? with
  | none => cases op <;> first | rfl | cases h
  | some a =>
    cases b? with
    | none => cases op <;> first | rfl | cases h
    | some b => cases op <;> first | rfl | cases h

theorem combine?_equal (a? b? : Option Datum) :
    equal.combine? a? b? = (Datum.equalOf? a? b?).map .ofBool := by
  cases a? with
  | none => rfl
  | some a => cases b? <;> rfl

/-- What is expected of the answers that comparisons give from one side of a pair and from the other
one: a truth value each, or none where there is an error. -/
structure Coherent (there back : BinaryOp → Option Datum) : Prop where
  truth : ∀ op, op = equal ∨ op.isOrdering = true →
    there op = none ∨ ∃ b, there op = some (.ofBool b)
  less_eq : there less = back greater
  greater_eq : there greater = back less
  lessOrEqual_eq : there lessOrEqual = back greaterOrEqual
  greaterOrEqual_eq : there greaterOrEqual = back lessOrEqual
  error_iff : ∀ op op', op.isOrdering = true → op'.isOrdering = true →
    (there op = none ↔ there op' = none)
  lessOrEqual_iff : there lessOrEqual = some (.ofBool true) ↔ there greater = some (.ofBool false)
  greaterOrEqual_iff :
    there greaterOrEqual = some (.ofBool true) ↔ there less = some (.ofBool false)
  antisymm : there lessOrEqual = some (.ofBool true) → back lessOrEqual = some (.ofBool true) →
    there equal = some (.ofBool true)
  different : there less = some (.ofBool true) → there equal = some (.ofBool false)
  equal_eq : there equal = back equal

variable {there back : BinaryOp → Option Datum}

theorem some_ofBool_inj {b c : Bool} : some (Datum.ofBool b) = some (Datum.ofBool c) ↔ b = c :=
  ⟨fun h => Xsd.Value.boolean.inj (Option.some.inj (congrArg Datum.value? (Option.some.inj h))),
    fun h => congrArg (some ∘ Datum.ofBool) h⟩

/-- Sides in a known order that are equal just if they are level. -/
theorem Coherent.of_order (o : Ordering)
    (hthere : ∀ op, op.isOrdering = true → there op = some (.ofBool (op.accepts o)))
    (hback : ∀ op, op.isOrdering = true → back op = some (.ofBool (op.accepts o.swap)))
    (hequal : there equal = some (.ofBool (o == .eq))) (hcomm : there equal = back equal) :
    Coherent there back where
  truth := by
    rintro op (rfl | hop)
    · exact .inr ⟨_, hequal⟩
    · exact .inr ⟨_, hthere op hop⟩
  less_eq := by
    rw [hthere less rfl, hback greater rfl]
    cases o <;> rfl
  greater_eq := by
    rw [hthere greater rfl, hback less rfl]
    cases o <;> rfl
  lessOrEqual_eq := by
    rw [hthere lessOrEqual rfl, hback greaterOrEqual rfl]
    cases o <;> rfl
  greaterOrEqual_eq := by
    rw [hthere greaterOrEqual rfl, hback lessOrEqual rfl]
    cases o <;> rfl
  error_iff := by
    intro op op' hop hop'
    rw [hthere op hop, hthere op' hop']
    exact iff_of_false nofun nofun
  lessOrEqual_iff := by
    rw [hthere lessOrEqual rfl, hthere greater rfl, some_ofBool_inj, some_ofBool_inj]
    cases o <;> decide
  greaterOrEqual_iff := by
    rw [hthere greaterOrEqual rfl, hthere less rfl, some_ofBool_inj, some_ofBool_inj]
    cases o <;> decide
  antisymm := by
    rw [hthere lessOrEqual rfl, hback lessOrEqual rfl, hequal, some_ofBool_inj, some_ofBool_inj,
      some_ofBool_inj]
    cases o <;> decide
  different := by
    rw [hthere less rfl, hequal, some_ofBool_inj, some_ofBool_inj]
    cases o <;> decide
  equal_eq := hcomm

/-- Sides that are not ordered. -/
theorem Coherent.of_error (hthere : ∀ op, op.isOrdering = true → there op = none)
    (hback : ∀ op, op.isOrdering = true → back op = none)
    (hequal : there equal = none ∨ ∃ b, there equal = some (.ofBool b))
    (hcomm : there equal = back equal) : Coherent there back where
  truth := by
    rintro op (rfl | hop)
    · exact hequal
    · exact .inl (hthere op hop)
  less_eq := by rw [hthere less rfl, hback greater rfl]
  greater_eq := by rw [hthere greater rfl, hback less rfl]
  lessOrEqual_eq := by rw [hthere lessOrEqual rfl, hback greaterOrEqual rfl]
  greaterOrEqual_eq := by rw [hthere greaterOrEqual rfl, hback lessOrEqual rfl]
  error_iff := fun op op' hop hop' => iff_of_true (hthere op hop) (hthere op' hop')
  lessOrEqual_iff := by
    rw [hthere lessOrEqual rfl, hthere greater rfl]
    exact iff_of_false nofun nofun
  greaterOrEqual_iff := by
    rw [hthere greaterOrEqual rfl, hthere less rfl]
    exact iff_of_false nofun nofun
  antisymm := by
    rw [hthere lessOrEqual rfl]
    exact nofun
  different := by
    rw [hthere less rfl]
    exact nofun
  equal_eq := hcomm

/-- Operators on the values of two expressions, of which either may be missing, are coherent. -/
theorem coherent_combine? (a? b? : Option Datum) :
    Coherent (fun op => op.combine? a? b?) (fun op => op.combine? b? a?) := by
  have hswap := Datum.orderOf?_swap a? b?
  have hcomm : equal.combine? a? b? = equal.combine? b? a? := by
    rw [combine?_equal, combine?_equal, Datum.equalOf?_comm]
  cases h : Datum.orderOf? a? b? with
  | none =>
    rw [h] at hswap
    refine .of_error ?_ ?_ ?_ hcomm
    · intro op hop
      rw [combine?_of_isOrdering hop, h]
      rfl
    · intro op hop
      rw [combine?_of_isOrdering hop, ← hswap]
      rfl
    · rw [combine?_equal]
      cases Datum.equalOf? a? b? with
      | none => exact .inl rfl
      | some b => exact .inr ⟨b, rfl⟩
  | some o =>
    rw [h] at hswap
    refine .of_order o ?_ ?_ ?_ hcomm
    · intro op hop
      rw [combine?_of_isOrdering hop, h]
      rfl
    · intro op hop
      rw [combine?_of_isOrdering hop, ← hswap]
      rfl
    · rw [combine?_equal, Datum.equalOf?_of_orderOf? h]
      rfl

end BinaryOp

/-- In every row and whatever the terms are, comparisons of two expressions are coherent. -/
theorem Expression.coherent (dataset : Dataset) (e f : Expression) (row : Row) :
    BinaryOp.Coherent (fun op => (binary op e f).eval dataset row)
      (fun op => (binary op f e).eval dataset row) := by
  simp only [eval]
  exact BinaryOp.coherent_combine? _ _

end QuadStore
