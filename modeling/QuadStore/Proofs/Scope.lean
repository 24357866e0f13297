import QuadStore.Proofs.Evaluation

/-!
# Scopes

The variables in scope are found by one recursion over a pattern, the slots that it fills by
another. They agree: what a pattern adds to a tuple or a row belongs to variables in scope, so that
the columns of an evaluation lose nothing, and the values given for them are in every row:
`Session.Arises.keeps_scope`.
-/

namespace QuadStore

/-! ## Binding sets -/

namespace BindingSet

/-- The value that a variable is given: the last one of those under its name. -/
def last? (b : BindingSet) (v : Variable) : Option Term := b.toList.reverse.lookup v

/-- Where no name is repeated, the value given is the value of the variable. -/
theorem last?_eq_get? {b : BindingSet} (h : b.columns.Nodup) (v : Variable) :
    b.last? v = b.get? v := by
  obtain ⟨columns, values⟩ := b
  unfold last? toList get? getAt?
  dsimp only at h ⊢
  induction columns generalizing values with
  | nil => rfl
  | cons c columns ih =>
    cases values with
    | nil => cases List.idxOf? v (c :: columns) <;> rfl
    | cons x values =>
      obtain ⟨hc, hcolumns⟩ := List.nodup_cons.1 h
      have hrest := ih values hcolumns
      rw [List.zip_cons_cons, List.idxOf?_cons]
      by_cases hv : c = v
      · subst hv
        rw [List.idxOf?_eq_none_iff.2 hc, Option.bind_none] at hrest
        rw [beq_self_eq_true, if_pos rfl]
        cases x with
        | none => exact hrest
        | some t =>
          show ((c, t) :: List.filterMap _ _).reverse.lookup c = some t
          rw [List.reverse_cons, List.lookup_append, hrest]
          simp
      · rw [beq_false_of_ne hv, if_neg Bool.false_ne_true, Option.bind_map]
        refine Eq.trans ?_ hrest
        cases x with
        | none => rfl
        | some t =>
          show ((c, t) :: List.filterMap _ _).reverse.lookup v = _
          rw [List.reverse_cons, List.lookup_append, List.lookup_cons,
            beq_false_of_ne (Ne.symm hv), List.lookup_nil, Option.or_none]

end BindingSet

/-- A row of an evaluation has a value in the column of each variable that is bound. -/
theorem Query.get?_project (columns : List Variable) (row : Row) (v : Variable) :
    (project columns row).get? v = if v ∈ columns then (row.get? v).map (·.term) else none := by
  unfold project BindingSet.get? BindingSet.getAt?
  dsimp only
  cases hv : columns.idxOf? v with
  | none => rw [if_neg (List.idxOf?_eq_none_iff.1 hv), Option.bind_none]
  | some i =>
    obtain ⟨hlt, hvi, -⟩ := List.idxOf?_eq_some_iff.1 hv
    rw [if_pos (hvi ▸ List.getElem_mem hlt), Option.bind_some, List.getElem?_map,
      List.getElem?_eq_getElem hlt, hvi]
    rfl

/-! ## Rows as tuples -/

namespace Row

/-- The variables of a row, each with a slot of its own. -/
def slots (row : Row) : Slots := row.entries.map (·.1)

/-- The values of a row in these slots. -/
def toTuple (row : Row) : Tuple := ⟨row.entries.map fun entry => some (.computed entry.2)⟩

theorem get?_toTuple (row : Row) (i : Nat) :
    row.toTuple.get? i = row.entries[i]?.map fun entry => .computed entry.2 := by
  unfold Tuple.get? toTuple
  rw [List.getElem?_map]
  cases row.entries[i]? <;> rfl

/-- Every row is shown by a tuple. -/
theorem shows_toTuple (pl : Planner) (row : Row) {slots : Slots} (h : row.slots <+: slots) :
    row.toTuple.Shows pl slots row := by
  refine ⟨fun i c hc => ?_, fun v => ?_⟩
  · rw [get?_toTuple] at hc
    obtain ⟨entry, -, rfl⟩ := Option.map_eq_some_iff.1 hc
    exact Cell.labeled_computed _
  · cases hrow : row.get? v with
    | some d =>
      obtain ⟨i, hi⟩ := List.mem_iff_getElem?.1 (get?_eq_some_iff.1 hrow)
      obtain ⟨hlt, hentry⟩ := List.getElem?_eq_some_iff.1 hi
      have hlt' : i < row.slots.length := by simpa [Row.slots] using hlt
      have hslot : row.slots.idxOf? row.slots[i] = some i := Slots.idxOf?_getElem row.nodup hlt'
      have hv : row.slots[i] = v := by simp [Row.slots, hentry]
      rw [hv] at hslot
      rw [Slots.idxOf?_of_prefix h hslot, Option.bind_some, get?_toTuple, hi]
      rfl
    | none =>
      rw [Option.map_eq_none_iff, Option.bind_eq_none_iff]
      intro i hi
      have hpast := Slots.length_le_of_idxOf? h (not_mem_of_get?_eq_none hrow) hi
      rw [get?_toTuple, List.getElem?_eq_none (by simpa [Row.slots] using hpast), Option.map_none]

/-- There is a row with given values of some variables. -/
theorem exists_get?_eq (vs : List Variable) (value? : Variable → Option Datum) :
    ∃ row : Row, ∀ v, row.get? v = if v ∈ vs then value? v else none := by
  induction vs with
  | nil => exact ⟨.empty, fun v => (if_neg List.not_mem_nil).symm⟩
  | cons v vs ih =>
    obtain ⟨row, hrow⟩ := ih
    cases hv : value? v with
    | none =>
      refine ⟨row, fun w => ?_⟩
      by_cases hw : w = v
      · rw [hrow, hw, hv, ite_self, ite_self]
      · simp only [hrow, List.mem_cons, hw, false_or]
    | some d =>
      refine ⟨(row.bind? v d).getD row, fun w => ?_⟩
      rw [get?_getD_bind?]
      by_cases hw : w = v
      · rw [if_pos hw, hrow, hw, hv, if_pos List.mem_cons_self]
        split <;> rfl
      · simp only [hrow, List.mem_cons, hw, false_or, if_false]

end Row

/-- Every tuple shows a row. -/
theorem Tuple.exists_shows {pl : Planner} {t : Tuple} (h : t.Labeled pl.dictionary)
    (slots : Slots) : ∃ row, t.Shows pl slots row := by
  obtain ⟨row, hrow⟩ := Row.exists_get?_eq slots fun v =>
    ((slots.idxOf? v).bind t.get?).map (·.datum)
  refine ⟨row, h, fun v => ?_⟩
  rw [hrow]
  split
  · rfl
  · rename_i hv
    rw [List.idxOf?_eq_none_iff.2 hv]
    rfl

/-! ## Patterns -/

namespace GraphPattern

variable {pl : Planner} {p : GraphPattern}

theorem mem_columns_iff {v : Variable} : v ∈ p.columns ↔ v ∈ p.inScope := by
  rw [columns_eq, List.mem_eraseDups]

/-- What a row binds beyond the row that it extends is in scope, as what a tuple fills is. -/
theorem mem_inScope_of_mem_rows (hr : pl.reading.view.store.Readable) {row r : Row}
    (h : r ∈ p.rows pl.reading.dataset row) {v : Variable} (hrow : row.get? v = none)
    (hv : r.get? v ≠ none) : v ∈ p.inScope := by
  have htuple := row.shows_toTuple pl (p.prefix_plan pl row.slots)
  obtain ⟨u, hu, hshows⟩ := (p.shows_plan hr (List.prefix_refl _) htuple).exists_of_mem_right h
  obtain ⟨i, hi⟩ : ∃ i, (p.plan pl row.slots).slots.idxOf? v = some i := by
    refine Option.ne_none_iff_exists'.1 fun hnone => hv ?_
    rw [← hshows.get?_eq v, hnone]
    rfl
  obtain ⟨w, hw, hslot⟩ := (p.grows_of_mem_plan pl hu).slot i
    ((htuple.get?_eq_none_iff hi).2 hrow) (mt (hshows.get?_eq_none_iff hi).1 hv)
  rwa [Tuple.eq_of_idxOf? hi hslot]

/-- The rows of a pattern by its evaluator: they extend the row that they were started on, and bind
nothing further that is not in scope. -/
def ExtendsInScope (p : GraphPattern) (row : Row) (rows : List Row) : Prop :=
  ∀ r ∈ rows, r.Extends row ∧ ∀ v, row.get? v = none → r.get? v ≠ none → v ∈ p.inScope

/-- What a row of an evaluation holds: values of the columns only, among them those given. -/
structure FitsColumns (p : GraphPattern) (bindings b : BindingSet) : Prop where
  columns : b.columns = p.inScope.eraseDups
  bound : ∀ v, b.get? v ≠ none → v ∈ p.inScope
  given : ∀ v ∈ p.inScope, ∀ t, bindings.last? v = some t → b.get? v = some t

/-- How a pattern goes with its scope. By slots, every tuple that it makes of any tuple, in any
table, has grown within the scope, and the tuples of an evaluation have values in the slots of the
columns only. By variables, so it is with the rows of its evaluator and of an evaluation, whose
columns are the distinct variables in scope in the order of their first mention. -/
structure KeepsScope (pl : Planner) (p : GraphPattern) (bindings : BindingSet) : Prop where
  grows : ∀ (slots : Slots) (t : Tuple), ∀ u ∈ (p.plan pl slots).run t,
    t.Grows (p.plan pl slots).slots p.inScope u
  fills : ∀ u ∈ (p.plan pl p.columns).run (p.startTuple pl bindings), ∀ i, u.get? i ≠ none →
    i < p.columns.length
  yields : ∀ row, ∃ rows, p.evaluator.Yields pl.reading (p.evaluator.start pl.reading row) rows ∧
    p.ExtendsInScope row rows
  answers : ∃ rows, (∀ limit?, Session.evaluate pl.reading.view p bindings pl.reading.inferred
      limit? .ahead = .rows p.inScope.eraseDups (Session.limited limit? (rows.map .ok))) ∧
    p.plannedRows pl bindings = rows ∧ ∀ b ∈ rows, p.FitsColumns bindings b

theorem extendsInScope_rows (hr : pl.reading.view.store.Readable) (p : GraphPattern) (row : Row) :
    p.ExtendsInScope row (p.rows pl.reading.dataset row) := fun _ h =>
  ⟨p.extends_of_mem_rows _ h, fun _ => mem_inScope_of_mem_rows hr h⟩

theorem fitsColumns_project {bindings : BindingSet} {r : Row}
    (h : r.Extends (Query.startRow p.columns bindings)) :
    p.FitsColumns bindings (Query.project p.columns r) := by
  constructor
  case columns => exact p.columns_eq
  case bound =>
    intro v hv
    rw [Query.get?_project] at hv
    exact mem_columns_iff.1 (of_not_not fun hmem => hv (if_neg hmem))
  case given =>
    intro v hv t ht
    have hmem := mem_columns_iff.2 hv
    have hstart : (Query.startRow p.columns bindings).get? v = some (.ofTerm t) := by
      rw [Query.get?_startRow, if_pos hmem, show List.lookup v _ = some t from ht]
      rfl
    rw [Query.get?_project, if_pos hmem, h v _ hstart]
    rfl

theorem fills_columns {bindings : BindingSet} {u : Tuple}
    (hu : u ∈ (p.plan pl p.columns).run (p.startTuple pl bindings)) {i : Nat}
    (hi : u.get? i ≠ none) : i < p.columns.length := by
  by_contra hpast
  obtain ⟨v, hv, hslot⟩ := (p.grows_of_mem_plan pl hu).slot i
    (get?_startTuple_of_le pl p bindings (not_lt.1 hpast)) hi
  -- a variable in scope has its slot among the first ones
  obtain ⟨j, hj⟩ : ∃ j, p.columns.idxOf? v = some j :=
    Option.ne_none_iff_exists'.1 (mt List.idxOf?_eq_none_iff.1 (not_not.2 (mem_columns_iff.2 hv)))
  rw [Slots.idxOf?_of_prefix (p.prefix_plan pl p.columns) hj] at hslot
  obtain rfl := Option.some.inj hslot
  exact hpast (List.idxOf?_eq_some_iff.1 hj).1

theorem keepsScope (hr : pl.reading.view.store.Readable) (haccepted : p.fault? = none)
    (bindings : BindingSet) : p.KeepsScope pl bindings := by
  constructor
  case grows => exact fun slots t u hu => p.grows_of_mem_plan pl hu
  case fills => exact fun u hu i hi => fills_columns hu hi
  case yields =>
    exact fun row => ⟨_, p.computes_evaluator pl.reading hr row, extendsInScope_rows hr p row⟩
  case answers =>
    obtain ⟨q, hq⟩ := Query.exists_ofPattern haccepted bindings
    refine ⟨q.rows pl.reading.dataset, fun limit? => ?_, plannedRows_eq hr hq, fun b hb => ?_⟩
    · rw [Session.evaluate, hq, ← columns_eq, ← (Query.eq_of_ofPattern hq).1]
      rfl
    · obtain ⟨r, hr', rfl⟩ := List.mem_map.1 hb
      obtain ⟨rfl, hstart⟩ := Query.eq_of_ofPattern hq
      rw [hstart] at hr'
      exact fitsColumns_project (q.pattern.extends_of_mem_rows _ hr')

end GraphPattern

namespace Session

variable {session : Session}

/-- Whatever the session, the stamp, the pattern, the values given and the hash: the pattern keeps
its scope. -/
theorem Arises.keeps_scope (h : session.Arises) {s : Store} (hs : session.store? = some s)
    (stamp : Nat) (inferred : Bool) (hash : List (Option Term) → UInt64) {p : GraphPattern}
    (haccepted : p.fault? = none) (bindings : BindingSet) :
    p.KeepsScope ⟨⟨s.at stamp, inferred⟩, hash⟩ bindings :=
  GraphPattern.keepsScope (h.readable s (by rw [← store?_eq, hs])) haccepted bindings

/-- A value for one of the ends of a way, and one for its middle, which is not in scope. -/
def endGiven : BindingSet := ⟨[⟨"m"⟩, ⟨"b"⟩], [some (.iri ⟨"p"⟩), some (.iri ⟨"s"⟩)]⟩

/-- Within the transaction, with a hash that tells no rows apart. -/
theorem keeps_scope_inferring : inferring.Arises ∧ twoSteps.fault? = none ∧
    ∃ s, inferring.store? = some s ∧
      twoSteps.KeepsScope ⟨⟨s.at Stamp.pending, true⟩, fun _ => 0⟩ endGiven := by
  have harises : inferring.Arises := (Arises.start none {}).after _
  have haccepted : twoSteps.fault? = none := by decide
  exact ⟨harises, haccepted, _, rfl, harises.keeps_scope rfl Stamp.pending true (fun _ => 0)
    haccepted endGiven⟩

/-- The one way that ends there is found, whatever its middle is. -/
example : inferring.store?.map (fun s =>
    (twoSteps.plannedRows ⟨⟨s.at Stamp.pending, true⟩, fun _ => 0⟩ endGiven).map (·.values)) =
    some [[some (.iri ⟨"s"⟩), some (.iri ⟨"s"⟩)]] := by rfl

end Session
end QuadStore
