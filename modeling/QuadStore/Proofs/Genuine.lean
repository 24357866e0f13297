import QuadStore.Proofs.Expressions
import QuadStore.Proofs.Rows

/-!
# Genuine data

A datum is genuine if its value is like the one that its term is read as. Given terms are genuine,
and so is whatever an expression computes, since the canonical literal of a computed value is read
back. Hence all rows of an evaluation that begins with given values have genuine data only.
-/

namespace QuadStore

variable {a b d : Datum} {a? b? : Option Datum}

/-! ## Genuine data -/

/-- A datum whose value is like the one that its term is read as. -/
def Datum.Genuine (d : Datum) : Prop := d.Alike (.ofTerm d.term)

namespace Datum

theorem genuine_ofTerm (t : Term) : (ofTerm t).Genuine := .refl _

theorem genuine_ofValue {v : Xsd.Value} (hv : v.isComputed = true) : (ofValue v).Genuine := by
  obtain ⟨w, hw, halike⟩ := Xsd.Value.exists_ofLiteral? hv
  refine ⟨rfl, ?_⟩
  show Option.Rel _ (some v) (Xsd.Value.ofLiteral? v.toLiteral)
  rw [hw]
  exact .some halike

theorem genuine_ofBool (b : Bool) : (ofBool b).Genuine := genuine_ofValue rfl

theorem genuine_ofString (s : String) : (ofString s).Genuine := genuine_ofTerm _

theorem genuine_ofText (s : String) (language? : Option String) :
    (ofText s language?).Genuine := by
  cases language? with
  | none => exact genuine_ofString s
  | some language => exact genuine_ofTerm _

/-- All images under a function that gives genuine data are genuine. -/
theorem genuine_of_mem_map {α : Type} {f : α → Datum} (hf : ∀ a, (f a).Genuine) {x? : Option α}
    {d : Datum} (h : x?.map f = some d) : d.Genuine := by
  obtain ⟨a, -, rfl⟩ := Option.map_eq_some_iff.1 h
  exact hf a

/-- What is computed from numbers is genuine. -/
theorem genuine_of_mem_map_ofValue {x? : Option Xsd.Value}
    (hx : ∀ v, x? = some v → v.isComputed = true) {d : Datum} (h : x?.map ofValue = some d) :
    d.Genuine := by
  obtain ⟨v, hv, rfl⟩ := Option.map_eq_some_iff.1 h
  exact genuine_ofValue (hx v hv)

end Datum

/-! ## Genuine results -/

section Results

variable {v w : Xsd.Value} {p : Xsd.NumberPair}

/-- The results of operations on numbers are no points of the calendar. -/
theorem Xsd.Value.isComputed_neg? (h : v.neg? = some w) : w.isComputed = true := by
  cases v <;> simp only [neg?, Option.map_eq_some_iff, Option.some.injEq, reduceCtorEq] at h <;>
    grind [isComputed]

theorem Xsd.Value.isComputed_abs? (h : v.abs? = some w) : w.isComputed = true := by
  cases v <;> simp only [abs?, Option.map_eq_some_iff, Option.some.injEq, reduceCtorEq] at h <;>
    grind [isComputed]

theorem Xsd.NumberPair.isComputed_add? (h : p.add? = some v) : v.isComputed = true := by
  cases p <;> simp only [add?, Option.map_eq_some_iff, Option.some.injEq] at h <;>
    grind [Value.isComputed]

theorem Xsd.NumberPair.isComputed_sub? (h : p.sub? = some v) : v.isComputed = true := by
  cases p <;> simp only [sub?, Option.map_eq_some_iff, Option.some.injEq] at h <;>
    grind [Value.isComputed]

theorem Xsd.NumberPair.isComputed_mul? (h : p.mul? = some v) : v.isComputed = true := by
  cases p <;> simp only [mul?, Option.map_eq_some_iff, Option.some.injEq] at h <;>
    grind [Value.isComputed]

theorem Xsd.NumberPair.isComputed_div? (h : p.div? = some v) : v.isComputed = true := by
  cases p <;> simp only [div?, Option.map_eq_some_iff, Option.some.injEq] at h <;>
    grind [Value.isComputed]

end Results

theorem Datum.genuine_arithmetic? {op : Xsd.NumberPair → Option Xsd.Value}
    (hop : ∀ p v, op p = some v → v.isComputed = true) (h : arithmetic? op a b = some d) :
    d.Genuine := by
  refine genuine_of_mem_map_ofValue (fun v hv => ?_) h
  obtain ⟨p, -, hp⟩ := Option.bind_eq_some_iff.1 hv
  exact hop p v hp

theorem UnaryOp.genuine_of? (op : UnaryOp) (ha : a.Genuine) (h : op.of? a = some d) :
    d.Genuine := by
  cases op with
  | plus =>
    unfold of? at h
    dsimp only at h
    split at h
    · rwa [← Option.some.inj h]
    · cases h
  | minus =>
    refine Datum.genuine_of_mem_map_ofValue (fun v hv => ?_) h
    obtain ⟨w, -, hw⟩ := Option.bind_eq_some_iff.1 hv
    exact Xsd.Value.isComputed_neg? hw
  | not => exact Datum.genuine_of_mem_map Datum.genuine_ofBool h

theorem BinaryOp.genuine_relate? (op : BinaryOp) (h : op.relate? a b = some d) : d.Genuine := by
  cases op with
  | or => cases h
  | and => cases h
  | equal => exact Datum.genuine_of_mem_map Datum.genuine_ofBool h
  | sameTerm =>
    cases h
    exact Datum.genuine_ofBool _
  | greater => exact Datum.genuine_of_mem_map (fun _ => Datum.genuine_ofBool _) h
  | greaterOrEqual => exact Datum.genuine_of_mem_map (fun _ => Datum.genuine_ofBool _) h
  | less => exact Datum.genuine_of_mem_map (fun _ => Datum.genuine_ofBool _) h
  | lessOrEqual => exact Datum.genuine_of_mem_map (fun _ => Datum.genuine_ofBool _) h
  | add => exact Datum.genuine_arithmetic? (fun _ _ => Xsd.NumberPair.isComputed_add?) h
  | subtract => exact Datum.genuine_arithmetic? (fun _ _ => Xsd.NumberPair.isComputed_sub?) h
  | multiply => exact Datum.genuine_arithmetic? (fun _ _ => Xsd.NumberPair.isComputed_mul?) h
  | divide => exact Datum.genuine_arithmetic? (fun _ _ => Xsd.NumberPair.isComputed_div?) h

theorem BinaryOp.genuine_combine? (op : BinaryOp) (h : op.combine? a? b? = some d) :
    d.Genuine := by
  have hrelate : (a?.bind fun a => b?.bind fun b => op.relate? a b) = some d → d.Genuine := by
    intro h
    obtain ⟨a, -, h⟩ := Option.bind_eq_some_iff.1 h
    obtain ⟨b, -, h⟩ := Option.bind_eq_some_iff.1 h
    exact op.genuine_relate? h
  cases op with
  | or => exact Datum.genuine_of_mem_map Datum.genuine_ofBool h
  | and => exact Datum.genuine_of_mem_map Datum.genuine_ofBool h
  | _ => exact hrelate h

namespace Function

open Datum (genuine_of_mem_map genuine_ofBool genuine_ofString genuine_ofText genuine_ofTerm)

theorem genuine_applyOne? (f : Function) (h : f.applyOne? a = some d) : d.Genuine := by
  cases f with
  | str =>
    unfold applyOne? at h
    dsimp only at h
    split at h
    · rw [← Option.some.inj h]; exact genuine_ofString _
    · rw [← Option.some.inj h]; exact genuine_ofString _
    · cases h
  | lang => exact genuine_of_mem_map (fun _ => genuine_ofString _) h
  | datatype => exact genuine_of_mem_map (fun _ => genuine_ofTerm _) h
  | isIri => rw [← Option.some.inj h]; exact genuine_ofBool _
  | isBlank => rw [← Option.some.inj h]; exact genuine_ofBool _
  | isLiteral => rw [← Option.some.inj h]; exact genuine_ofBool _
  | isNumeric => rw [← Option.some.inj h]; exact genuine_ofBool _
  | strLen =>
    obtain ⟨s, -, h⟩ := Option.bind_eq_some_iff.1 h
    exact genuine_of_mem_map (fun _ => Datum.genuine_ofValue rfl) h
  | upperCase => exact genuine_of_mem_map (fun _ => genuine_ofText _ _) h
  | lowerCase => exact genuine_of_mem_map (fun _ => genuine_ofText _ _) h
  | abs =>
    refine Datum.genuine_of_mem_map_ofValue (fun v hv => ?_) h
    obtain ⟨w, -, hw⟩ := Option.bind_eq_some_iff.1 hv
    exact Xsd.Value.isComputed_abs? hw
  | localName =>
    unfold applyOne? at h
    dsimp only at h
    split at h
    · rw [← Option.some.inj h]; exact genuine_ofString _
    · cases h
  | namespaceOf =>
    unfold applyOne? at h
    dsimp only at h
    split at h
    · rw [← Option.some.inj h]; exact genuine_ofString _
    · cases h
  | _ => cases h

theorem genuine_matches? {flags : String} (h : matches? a b flags = some d) : d.Genuine := by
  unfold matches? at h
  obtain ⟨_, -, h⟩ := Option.bind_eq_some_iff.1 h
  obtain ⟨_, -, h⟩ := Option.bind_eq_some_iff.1 h
  obtain ⟨_, -, h⟩ := Option.bind_eq_some_iff.1 h
  rw [← Option.some.inj h]
  exact genuine_ofBool _

theorem genuine_applyTwo? (f : Function) (h : f.applyTwo? a b = some d) : d.Genuine := by
  cases f with
  | langMatches =>
    obtain ⟨_, -, h⟩ := Option.bind_eq_some_iff.1 h
    obtain ⟨_, -, h⟩ := Option.bind_eq_some_iff.1 h
    rw [← Option.some.inj h]
    exact genuine_ofBool _
  | regex => exact genuine_matches? h
  | contains => exact genuine_of_mem_map (fun _ => genuine_ofBool _) h
  | strStarts => exact genuine_of_mem_map (fun _ => genuine_ofBool _) h
  | strEnds => exact genuine_of_mem_map (fun _ => genuine_ofBool _) h
  | strBefore =>
    obtain ⟨⟨parts?, language?⟩, -, rfl⟩ := Option.map_eq_some_iff.1 h
    cases parts? with
    | none => exact genuine_ofString _
    | some parts => exact genuine_ofText _ _
  | strAfter =>
    obtain ⟨⟨parts?, language?⟩, -, rfl⟩ := Option.map_eq_some_iff.1 h
    cases parts? with
    | none => exact genuine_ofString _
    | some parts => exact genuine_ofText _ _
  | _ => cases h

theorem genuine_concat? {as : List Datum} (h : concat? as = some d) : d.Genuine := by
  obtain ⟨_, -, h⟩ := Option.bind_eq_some_iff.1 h
  rw [← Option.some.inj h]
  exact genuine_ofText _ _

/-- Functions give genuine data, whatever their arguments are. -/
theorem genuine_evaluate? (f : Function) {as : List Datum} (h : f.evaluate? as = some d) :
    d.Genuine := by
  unfold evaluate? at h
  split at h
  · exact genuine_concat? h
  · exact genuine_applyOne? _ h
  · exact genuine_applyTwo? _ h
  · obtain ⟨_, -, h⟩ := Option.bind_eq_some_iff.1 h
    exact genuine_matches? h
  · cases h

end Function

/-! ## Genuine rows -/

/-- A row with genuine data. -/
def Row.Genuine (row : Row) : Prop := ∀ v d, row.get? v = some d → d.Genuine

mutual

/-- The value of an expression in a genuine row is genuine. -/
theorem Expression.genuine_eval (dataset : Dataset) {row : Row} (hrow : row.Genuine) :
    ∀ (e : Expression) (d : Datum), e.eval dataset row = some d → d.Genuine
  | .iri i, d, h => by
    simp only [eval, Option.some.injEq] at h
    rw [← h]
    exact Datum.genuine_ofTerm _
  | .literal l, d, h => by
    simp only [eval, Option.some.injEq] at h
    rw [← h]
    exact Datum.genuine_ofTerm _
  | .var v, d, h => by
    simp only [eval] at h
    exact hrow v d h
  | .bound v, d, h => by
    simp only [eval, Option.some.injEq] at h
    rw [← h]
    exact Datum.genuine_ofBool _
  | .binary op a b, d, h => by
    simp only [eval] at h
    exact op.genuine_combine? h
  | .oneOf needle candidates, d, h => by
    simp only [eval] at h
    obtain ⟨_, -, h⟩ := Option.bind_eq_some_iff.1 h
    exact Datum.genuine_of_mem_map Datum.genuine_ofBool h
  | .unary op operand, d, h => by
    simp only [eval] at h
    obtain ⟨a, ha, h⟩ := Option.bind_eq_some_iff.1 h
    exact op.genuine_of? (Expression.genuine_eval dataset hrow operand a ha) h
  | .exists _, d, h => by
    simp only [eval, Option.some.injEq] at h
    rw [← h]
    exact Datum.genuine_ofBool _
  | .ifThenElse condition yes no, d, h => by
    simp only [eval] at h
    split at h
    · exact Expression.genuine_eval dataset hrow yes d h
    · exact Expression.genuine_eval dataset hrow no d h
    · cases h
  | .coalesce choices, d, h => by
    simp only [eval] at h
    obtain ⟨d?, hd, hid⟩ := List.exists_of_findSome?_eq_some h
    exact Expression.genuine_evalEach dataset hrow choices d? hd d hid
  | .call function _, d, h => by
    simp only [eval] at h
    obtain ⟨_, -, h⟩ := Option.bind_eq_some_iff.1 h
    exact function.genuine_evaluate? h

theorem Expression.genuine_evalEach (dataset : Dataset) {row : Row} (hrow : row.Genuine) :
    ∀ (es : List Expression), ∀ d? ∈ Expression.evalEach dataset es row, ∀ d, d? = some d →
      d.Genuine
  | [], d?, h, d, hd => by
    simp only [evalEach, List.not_mem_nil] at h
  | e :: rest, d?, h, d, hd => by
    simp only [evalEach, List.mem_cons] at h
    rcases h with rfl | h
    · exact Expression.genuine_eval dataset hrow e d hd
    · exact Expression.genuine_evalEach dataset hrow rest d? h d hd

end

namespace Row

variable {row r other : Row} {v : Variable} {d : Datum} {d? : Option Datum} {vs : List Variable}

theorem genuine_empty : empty.Genuine := fun _ _ h => by cases h

theorem Genuine.bind? (h : row.Genuine) (hd : d.Genuine) (hr : row.bind? v d = some r) :
    r.Genuine := by
  rcases bind?_cases row v d with ⟨hnone, -⟩ | ⟨r', hr', -, hget⟩
  · rw [hnone] at hr
    cases hr
  · rw [hr] at hr'
    obtain rfl := Option.some.inj hr'
    intro w e he
    rw [hget] at he
    split at he
    · rcases Option.or_eq_some_iff.1 he with hold | ⟨-, hnew⟩
      · exact h _ _ hold
      · rwa [← Option.some.inj hnew]
    · exact h _ _ he

theorem Genuine.bindAny? (h : row.Genuine) (hd : ∀ d, d? = some d → d.Genuine)
    (hr : row.bindAny? v d? = some r) : r.Genuine := by
  cases d? with
  | none => rwa [← Option.some.inj hr]
  | some d => exact h.bind? (hd d rfl) hr

theorem Genuine.restrict (h : row.Genuine) (vs : List Variable) : (row.restrict vs).Genuine := by
  intro v d hd
  rw [get?_restrict] at hd
  split at hd
  · exact h v d hd
  · cases hd

theorem Genuine.extend? (h : row.Genuine) (hother : other.Genuine)
    (hr : row.extend? vs other = some r) : r.Genuine := by
  induction vs generalizing row with
  | nil => rwa [← Option.some.inj hr]
  | cons v vs ih =>
    rw [Row.extend?, List.foldlM_cons] at hr
    obtain ⟨next, hnext, hr⟩ := Option.bind_eq_some_iff.1 hr
    exact ih (h.bindAny? (fun d hd => hother v d hd) hnext) hr

theorem mem_of_mem_distinctFrom {seen rows : List Row} (h : r ∈ distinctFrom seen rows) :
    r ∈ rows := by
  induction rows generalizing seen with
  | nil => exact h
  | cons row rows ih =>
    unfold distinctFrom at h
    split at h
    · exact List.mem_cons_of_mem _ (ih h)
    · rcases List.mem_cons.1 h with rfl | h
      · exact List.mem_cons_self
      · exact List.mem_cons_of_mem _ (ih h)

theorem mem_of_mem_sort {directions : List Direction} {keys : Row → List (Option Datum)}
    {rows : List Row} (h : r ∈ sort directions keys rows) : r ∈ rows := by
  obtain ⟨keyed, hkeyed, rfl⟩ := List.mem_map.1 h
  obtain ⟨row, hrow, rfl⟩ := List.mem_map.1 (List.mem_mergeSort.1 hkeyed)
  exact hrow

theorem mem_of_mem_slice {start : Nat} {length? : Option Nat} {rows : List Row}
    (h : r ∈ slice start length? rows) : r ∈ rows := by
  unfold slice at h
  cases length? with
  | none => exact List.mem_of_mem_drop h
  | some n => exact List.mem_of_mem_drop (List.mem_of_mem_take h)

end Row

section Quads

variable {row r : Row}

theorem Position.genuine_bind? {α : Type} {p : Position α} {t : Term} (h : row.Genuine)
    (hr : p.bind? row t = some r) : r.Genuine := by
  cases p with
  | given a => rwa [← Option.some.inj hr]
  | var v => exact h.bind? (Datum.genuine_ofTerm t) hr

theorem GraphPosition.genuine_bind? {p : GraphPosition} {g : GraphName} (h : row.Genuine)
    (hr : p.bind? row g = some r) : r.Genuine := by
  cases p with
  | var v =>
    obtain ⟨t, -, hr⟩ := Option.bind_eq_some_iff.1 hr
    exact h.bind? (Datum.genuine_ofTerm t) hr
  | _ => rwa [← Option.some.inj hr]

theorem QuadPattern.genuine_bind? {p : QuadPattern} {q : Quad} (h : row.Genuine)
    (hr : p.bind? row q = some r) : r.Genuine := by
  obtain ⟨a, ha, hr⟩ := Option.bind_eq_some_iff.1 hr
  obtain ⟨b, hb, hr⟩ := Option.bind_eq_some_iff.1 hr
  obtain ⟨c, hc, hr⟩ := Option.bind_eq_some_iff.1 hr
  exact GraphPosition.genuine_bind? (Position.genuine_bind? (Position.genuine_bind?
    (Position.genuine_bind? h ha) hb) hc) hr

end Quads

/-- The rows of a pattern that extend a genuine row are genuine. -/
theorem GraphPattern.genuine_rows (dataset : Dataset) : ∀ (p : GraphPattern) {row : Row},
    row.Genuine → ∀ r ∈ p.rows dataset row, r.Genuine
  | .quad pattern, row, h, r, hr => by
    simp only [rows] at hr
    obtain ⟨q, -, hq⟩ := List.mem_filterMap.1 hr
    exact QuadPattern.genuine_bind? h hq
  | .join left right, row, h, r, hr => by
    simp only [rows] at hr
    obtain ⟨l, hl, hr⟩ := List.mem_flatMap.1 hr
    exact right.genuine_rows dataset (left.genuine_rows dataset h l hl) r hr
  | .leftJoin left right condition?, row, h, r, hr => by
    simp only [rows] at hr
    obtain ⟨l, hl, hr⟩ := List.mem_flatMap.1 hr
    have hleft := left.genuine_rows dataset h l hl
    split at hr
    · rwa [List.mem_singleton.1 hr]
    · exact right.genuine_rows dataset hleft r (List.mem_of_mem_filter hr)
  | .filter condition inner, row, h, r, hr => by
    simp only [rows] at hr
    exact inner.genuine_rows dataset h r (List.mem_of_mem_filter hr)
  | .union left right, row, h, r, hr => by
    simp only [rows] at hr
    rcases List.mem_append.1 hr with hr | hr
    · exact left.genuine_rows dataset h r hr
    · exact right.genuine_rows dataset h r hr
  | .extend inner v value, row, h, r, hr => by
    simp only [rows] at hr
    obtain ⟨l, hl, hr⟩ := List.mem_filterMap.1 hr
    have hinner := inner.genuine_rows dataset h l hl
    exact hinner.bindAny? (value.genuine_eval dataset hinner) hr
  | .distinct inner, row, h, r, hr => by
    simp only [rows] at hr
    exact inner.genuine_rows dataset h r (Row.mem_of_mem_distinctFrom hr)
  | .orderBy inner keys, row, h, r, hr => by
    simp only [rows] at hr
    exact inner.genuine_rows dataset h r (Row.mem_of_mem_sort hr)
  | .slice inner start length?, row, h, r, hr => by
    simp only [rows] at hr
    exact inner.genuine_rows dataset h r (Row.mem_of_mem_slice hr)
  | .project inner vs, row, h, r, hr => by
    simp only [rows] at hr
    obtain ⟨l, hl, hr⟩ := List.mem_filterMap.1 hr
    exact h.extend? (inner.genuine_rows dataset (h.restrict vs) l hl) hr

end QuadStore
