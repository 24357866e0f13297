import QuadStore.Proofs.Filling

/-!
# Plans and rows

Whatever its table of slots has grown to, a plan makes a tuple that shows a row into tuples that
show the rows of the pattern, in their order: `GraphPattern.shows_plan`. So the rows of an
evaluation by slots are the rows of the query: `GraphPattern.plannedRows_eq`.
-/

/-- To add what is new, element by element, is to leave out repeated elements. -/
theorem List.foldl_append_new {α : Type} [DecidableEq α] (l seen : List α) :
    l.foldl (fun seen a => if seen.contains a then seen else seen ++ [a]) seen =
      seen ++ (l.filter fun a => !seen.contains a).eraseDups := by
  induction l generalizing seen with
  | nil => exact (append_nil seen).symm
  | cons a l ih =>
    rw [foldl_cons, ih, filter_cons]
    by_cases ha : a ∈ seen
    · rw [if_pos (contains_iff_mem.2 ha), if_neg (by simpa using ha)]
    · rw [if_neg (mt contains_iff_mem.1 ha), if_pos (by simpa using ha), eraseDups_cons,
        append_assoc, singleton_append, filter_filter]
      congr 4
      funext b
      by_cases hb : b = a <;> simp [hb]

namespace QuadStore

/-! ## Values of several expressions -/

namespace Cell

variable {d : Dictionary} {cs : List (Option Cell)} {xs : List (Option Datum)}

theorem rel_findSome? (h : List.Forall₂ (Option.Rel (Shows d)) cs xs) :
    Option.Rel (Shows d) (cs.findSome? id) (xs.findSome? id) := by
  induction h with
  | nil => exact .none
  | cons hhead _ ih =>
    rw [List.findSome?_cons, List.findSome?_cons]
    cases hhead with
    | none => exact ih
    | some hcell => exact .some hcell

theorem map_mapM (h : List.Forall₂ (Option.Rel (Shows d)) cs xs) :
    (cs.mapM id).map (List.map (·.datum)) = xs.mapM id := by
  induction h with
  | nil => rfl
  | @cons _ _ cs _ hhead _ ih =>
    rw [List.mapM_cons, List.mapM_cons, ← ih]
    cases hhead with
    | none => rfl
    | @some c x hcell =>
      rw [← hcell.datum]
      cases cs.mapM id <;> rfl

theorem map_map_datum (h : List.Forall₂ (Option.Rel (Shows d)) cs xs) :
    cs.map (fun c? => c?.map (·.datum)) = xs := by
  induction h with
  | nil => rfl
  | cons hhead _ ih => rw [List.map_cons, map_datum_eq hhead, ih]

end Cell

theorem Tuple.satisfies_eq {d : Dictionary} {t : Tuple} {condition : Tuple → Option Cell}
    {x? : Option Datum} (h : Option.Rel (Cell.Shows d) (condition t) x?) :
    t.satisfies condition = (Datum.truthOf? x? == some true) := by
  unfold satisfies
  rw [Cell.map_datum_eq h]

/-! ## Patterns and expressions -/

variable {pl : Planner}

mutual

/-- The value of an expression shows the one that it has in the row. -/
theorem Expression.shows_plan (hr : pl.reading.view.store.Readable) : ∀ (e : Expression)
    {slots slots' : Slots} {t : Tuple} {row : Row}, (e.plan pl slots).slots <+: slots' →
      t.Shows pl slots' row →
        Option.Rel (Cell.Shows pl.dictionary) ((e.plan pl slots).run t)
          (e.eval pl.reading.dataset row)
  | .iri i, slots, slots', t, row, hslots, ht => by
    simp only [Expression.plan, Expression.eval]
    exact .some (pl.shows_constant _)
  | .literal l, slots, slots', t, row, hslots, ht => by
    simp only [Expression.plan, Expression.eval]
    exact .some (pl.shows_constant _)
  | .var v, slots, slots', t, row, hslots, ht => by
    simp only [Expression.plan, Expression.eval] at hslots ⊢
    exact ht.rel_get? (Slots.idxOf?_of_place hslots)
  | .bound v, slots, slots', t, row, hslots, ht => by
    simp only [Expression.plan, Expression.eval] at hslots ⊢
    rw [ht.isSome_eq (Slots.idxOf?_of_place hslots)]
    exact .some (Cell.shows_computed _)
  | .binary op a b, slots, slots', t, row, hslots, ht => by
    simp only [Expression.plan, Expression.eval] at hslots ⊢
    -- slots are only added, so those after the first operand are among those after both
    have ha := a.shows_plan hr ((b.prefix_plan pl _).trans hslots) ht
    exact op.rel_combineCells? ha (b.shows_plan hr hslots ht)
  | .oneOf needle candidates, slots, slots', t, row, hslots, ht => by
    simp only [Expression.plan, Expression.eval] at hslots ⊢
    have hneedle := needle.shows_plan hr
      ((Expression.prefix_planEach pl candidates _).trans hslots) ht
    have hcandidates := Expression.shows_planEach hr candidates hslots ht
    exact hneedle.bind fun c x hc => Cell.rel_map_ofBool (Cell.among?_eq hc hcandidates)
  | .unary op operand, slots, slots', t, row, hslots, ht => by
    simp only [Expression.plan, Expression.eval] at hslots ⊢
    exact (operand.shows_plan hr hslots ht).bind fun c x hc => op.rel_ofCell? hc
  | .exists pattern, slots, slots', t, row, hslots, ht => by
    simp only [Expression.plan, Expression.eval] at hslots ⊢
    rw [(pattern.shows_plan hr hslots ht).isEmpty_eq]
    exact .some (Cell.shows_computed _)
  | .ifThenElse condition yes no, slots, slots', t, row, hslots, ht => by
    simp only [Expression.plan, Expression.eval] at hslots ⊢
    have hyes := (no.prefix_plan pl _).trans hslots
    rw [Cell.map_datum_eq (condition.shows_plan hr ((yes.prefix_plan pl _).trans hyes) ht)]
    cases Datum.truthOf? (condition.eval pl.reading.dataset row) with
    | none => exact .none
    | some b =>
      cases b with
      | true => exact yes.shows_plan hr hyes ht
      | false => exact no.shows_plan hr hslots ht
  | .coalesce choices, slots, slots', t, row, hslots, ht => by
    simp only [Expression.plan, Expression.eval] at hslots ⊢
    exact Cell.rel_findSome? (Expression.shows_planEach hr choices hslots ht)
  | .call function arguments, slots, slots', t, row, hslots, ht => by
    simp only [Expression.plan, Expression.eval] at hslots ⊢
    rw [← Cell.map_mapM (Expression.shows_planEach hr arguments hslots ht)]
    cases ((Expression.planEach pl arguments slots).run t).mapM id with
    | none => exact .none
    | some cs => exact Cell.rel_map_computed _

theorem Expression.shows_planEach (hr : pl.reading.view.store.Readable) :
    ∀ (es : List Expression) {slots slots' : Slots} {t : Tuple} {row : Row},
      (Expression.planEach pl es slots).slots <+: slots' → t.Shows pl slots' row →
        List.Forall₂ (Option.Rel (Cell.Shows pl.dictionary))
          ((Expression.planEach pl es slots).run t) (Expression.evalEach pl.reading.dataset es row)
  | [], slots, slots', t, row, hslots, ht => by
    simp only [Expression.planEach, Expression.evalEach]
    exact .nil
  | e :: rest, slots, slots', t, row, hslots, ht => by
    simp only [Expression.planEach, Expression.evalEach] at hslots ⊢
    exact .cons (e.shows_plan hr ((Expression.prefix_planEach pl rest _).trans hslots) ht)
      (Expression.shows_planEach hr rest hslots ht)

theorem Expression.shows_planKeys (hr : pl.reading.view.store.Readable) :
    ∀ (keys : List (Direction × Expression)) {slots slots' : Slots} {t : Tuple} {row : Row},
      (Expression.planKeys pl keys slots).slots <+: slots' → t.Shows pl slots' row →
        List.Forall₂ (Option.Rel (Cell.Shows pl.dictionary))
          ((Expression.planKeys pl keys slots).run t)
          (Expression.evalKeys pl.reading.dataset keys row)
  | [], slots, slots', t, row, hslots, ht => by
    simp only [Expression.planKeys, Expression.evalKeys]
    exact .nil
  | (_, e) :: rest, slots, slots', t, row, hslots, ht => by
    simp only [Expression.planKeys, Expression.evalKeys] at hslots ⊢
    exact .cons (e.shows_plan hr ((Expression.prefix_planKeys pl rest _).trans hslots) ht)
      (Expression.shows_planKeys hr rest hslots ht)

theorem Expression.planCondition_eq (hr : pl.reading.view.store.Readable) :
    ∀ (condition? : Option Expression) {slots slots' : Slots} {t : Tuple} {row : Row},
      (Expression.planCondition pl condition? slots).slots <+: slots' → t.Shows pl slots' row →
        (Expression.planCondition pl condition? slots).run t =
          Expression.allows pl.reading.dataset condition? row
  | none, slots, slots', t, row, hslots, ht => by
    simp only [Expression.planCondition, Expression.allows]
  | some condition, slots, slots', t, row, hslots, ht => by
    simp only [Expression.planCondition, Expression.allows] at hslots ⊢
    exact Tuple.satisfies_eq (condition.shows_plan hr hslots ht)

/-- The tuples of a plan show the rows of the pattern. -/
theorem GraphPattern.shows_plan (hr : pl.reading.view.store.Readable) : ∀ (p : GraphPattern)
    {slots slots' : Slots} {t : Tuple} {row : Row}, (p.plan pl slots).slots <+: slots' →
      t.Shows pl slots' row →
        List.Forall₂ (Tuple.Shows pl slots') ((p.plan pl slots).run t)
          (p.rows pl.reading.dataset row)
  | .quad pattern, slots, slots', t, row, hslots, ht => by
    simp only [GraphPattern.plan, GraphPattern.rows] at hslots ⊢
    exact pattern.shows_plan hr hslots ht
  | .join left right, slots, slots', t, row, hslots, ht => by
    simp only [GraphPattern.plan, GraphPattern.rows] at hslots ⊢
    have hleft := left.shows_plan hr ((right.prefix_plan pl _).trans hslots) ht
    exact List.rel_flatMap hleft fun u r hu => right.shows_plan hr hslots hu
  | .leftJoin left right condition?, slots, slots', t, row, hslots, ht => by
    simp only [GraphPattern.plan, GraphPattern.rows] at hslots ⊢
    have hright := (Expression.prefix_planCondition pl condition? _).trans hslots
    have hleft := left.shows_plan hr ((right.prefix_plan pl _).trans hright) ht
    refine List.rel_flatMap hleft fun u r hu => ?_
    have hkept := List.rel_filter (fun x y hx => Bool.eq_iff_iff.1
      (Expression.planCondition_eq hr condition? hslots hx)) (right.shows_plan hr hright hu)
    -- the tuple itself stands in if nothing is kept
    revert hkept
    generalize List.filter _ _ = xs, List.filter _ (right.rows pl.reading.dataset r) = ys
    intro hkept
    cases hkept with
    | nil => exact .cons hu .nil
    | cons hx hxs => exact .cons hx hxs
  | .filter condition inner, slots, slots', t, row, hslots, ht => by
    simp only [GraphPattern.plan, GraphPattern.rows] at hslots ⊢
    exact List.rel_filter (fun x y hx => Bool.eq_iff_iff.1
      (Tuple.satisfies_eq (condition.shows_plan hr hslots hx)))
      (inner.shows_plan hr ((condition.prefix_plan pl _).trans hslots) ht)
  | .union left right, slots, slots', t, row, hslots, ht => by
    simp only [GraphPattern.plan, GraphPattern.rows] at hslots ⊢
    exact List.rel_append (left.shows_plan hr ((right.prefix_plan pl _).trans hslots) ht)
      (right.shows_plan hr hslots ht)
  | .extend inner v value, slots, slots', t, row, hslots, ht => by
    simp only [GraphPattern.plan, GraphPattern.rows] at hslots ⊢
    have hplaced := (value.prefix_plan pl _).trans hslots
    have hinner := inner.shows_plan hr ((Slots.prefix_place _ v).trans hplaced) ht
    exact List.rel_filterMap (fun u r hu => hu.bindAny? (Slots.idxOf?_of_place hplaced)
      (value.shows_plan hr hslots hu)) hinner
  | .distinct inner, slots, slots', t, row, hslots, ht => by
    simp only [GraphPattern.plan, GraphPattern.rows] at hslots ⊢
    -- the tuples have grown out of one, so that slots without a variable tell none apart
    have hgrown := (List.forall₂_and_left _ _).2
      ⟨fun u hu => inner.grows_of_mem_plan pl hu, inner.shows_plan hr hslots ht⟩
    refine (Tuple.forall₂_distinctFrom pl.hash ?_ .nil hgrown).imp fun u r hu => hu.2
    rintro u r ⟨hu, hur⟩ u' r' ⟨hu', hur'⟩
    rw [Tuple.hash_and_same_eq pl.hash hur.labeled hur'.labeled,
      Tuple.same_eq_of_grows hslots hu hu' hur hur', Bool.eq_iff_iff, Row.same_iff, Row.same_iff]
    exact forall_congr' fun v => eq_comm
  | .orderBy inner keys, slots, slots', t, row, hslots, ht => by
    simp only [GraphPattern.plan, GraphPattern.rows] at hslots ⊢
    exact Tuple.forall₂_sort
      (fun u r hu => Cell.map_map_datum (Expression.shows_planKeys hr keys hslots hu))
      (inner.shows_plan hr ((Expression.prefix_planKeys pl keys _).trans hslots) ht)
  | .slice inner start length?, slots, slots', t, row, hslots, ht => by
    simp only [GraphPattern.plan, GraphPattern.rows] at hslots ⊢
    exact Tuple.forall₂_slice (inner.shows_plan hr hslots ht) start length?
  | .project inner vs, slots, slots', t, row, hslots, ht => by
    simp only [GraphPattern.plan, GraphPattern.rows] at hslots ⊢
    have hvs := inner.prefix_plan pl vs
    have hgrown := (List.forall₂_and_left _ _).2 ⟨fun u hu => inner.grows_of_mem_plan pl hu,
      inner.shows_plan hr (List.prefix_refl _) (ht.enter hslots hvs)⟩
    exact List.rel_filterMap (fun u r hu => ht.leave? hslots hvs hu.2 hu.1) hgrown

end

/-! ## Evaluations -/

/-- A given value is not taken back by those before. -/
theorem Row.get?_getD_bind? (row : Row) (v : Variable) (d : Datum) (w : Variable) :
    ((row.bind? v d).getD row).get? w = if w = v then (row.get? v).or (some d) else row.get? w := by
  rcases bind?_cases row v d with ⟨hnone, old, hold, -⟩ | ⟨r, hr, -, hget⟩
  · rw [hnone, Option.getD_none]
    split
    · rename_i hw
      rw [hw, hold, Option.some_or]
    · rfl
  · rw [hr, Option.getD_some, hget]

/-- A query begins with the last value given for each of its columns. -/
theorem Query.get?_startRow (columns : List Variable) (bindings : BindingSet) (w : Variable) :
    (startRow columns bindings).get? w =
      if w ∈ columns then (bindings.toList.reverse.lookup w).map .ofTerm else none := by
  unfold startRow
  induction bindings.toList with
  | nil => exact (ite_self none).symm
  | cons value values ih =>
    obtain ⟨v, x⟩ := value
    rw [List.foldr_cons, List.reverse_cons, List.lookup_append]
    dsimp only
    by_cases hv : v ∈ columns
    · rw [if_pos (List.contains_iff_mem.2 hv), Row.get?_getD_bind?]
      by_cases hw : w = v
      · subst hw
        rw [if_pos rfl, ih, if_pos hv, if_pos hv]
        cases values.reverse.lookup w <;> simp
      · rw [if_neg hw, ih, List.lookup_cons, beq_false_of_ne hw, List.lookup_nil, Option.or_none]
    · rw [if_neg (mt List.contains_iff_mem.1 hv), ih]
      by_cases hw : w = v
      · rw [hw, if_neg hv, if_neg hv]
      · rw [List.lookup_cons, beq_false_of_ne hw, List.lookup_nil, Option.or_none]

theorem Query.exists_ofPattern {p : GraphPattern} (h : p.fault? = none) (bindings : BindingSet) :
    ∃ q, ofPattern p bindings = .ok q := by
  unfold ofPattern
  split
  · rename_i fault hfault
    rw [h] at hfault
    cases hfault
  · exact ⟨_, rfl⟩

theorem Query.eq_of_ofPattern {p : GraphPattern} {bindings : BindingSet} {q : Query}
    (h : ofPattern p bindings = .ok q) :
    q.pattern = p ∧ q.start = startRow p.columns bindings := by
  unfold ofPattern at h
  split at h
  · cases h
  · obtain rfl := Except.ok.inj h
    exact ⟨rfl, rfl⟩

namespace GraphPattern

theorem labeled_startTuple (pl : Planner) (p : GraphPattern) (bindings : BindingSet) :
    (p.startTuple pl bindings).Labeled pl.dictionary := by
  unfold startTuple
  refine List.foldlRecOn _ _ Tuple.labeled_empty fun t ht value _ => ?_
  dsimp only
  split
  · exact ht.set (pl.shows_constant value.2).labeled _
  · exact ht

theorem get?_startTuple (pl : Planner) (p : GraphPattern) (bindings : BindingSet) {w : Variable}
    {slot : Nat} (hslot : p.columns.idxOf? w = some slot) :
    (p.startTuple pl bindings).get? slot =
      (bindings.toList.reverse.lookup w).map pl.constant := by
  unfold startTuple
  induction bindings.toList using List.reverseRecOn with
  | nil => rfl
  | append_singleton values value ih =>
    obtain ⟨v, x⟩ := value
    rw [List.foldl_append, List.foldl_cons, List.foldl_nil, List.reverse_append,
      List.reverse_singleton, List.singleton_append, List.lookup_cons]
    dsimp only
    by_cases hw : w = v
    · subst hw
      rw [hslot, beq_self_eq_true]
      exact (Tuple.get?_set _ _ _ _).trans (if_pos rfl)
    · rw [beq_false_of_ne hw]
      dsimp only
      split
      · rename_i i hi
        have hne : slot ≠ i := by
          rintro rfl
          exact hw (Tuple.eq_of_idxOf? hslot hi)
        rw [Tuple.get?_set, if_neg hne, ih]
      · exact ih

/-- Only the slots of the columns are filled. -/
theorem get?_startTuple_of_le (pl : Planner) (p : GraphPattern) (bindings : BindingSet) {i : Nat}
    (hi : p.columns.length ≤ i) : (p.startTuple pl bindings).get? i = none := by
  unfold startTuple
  refine List.foldlRecOn (motive := fun t : Tuple => t.get? i = none) _ _ (Tuple.get?_empty i)
    fun t ht value _ => ?_
  dsimp only
  split
  · rename_i slot hslot
    obtain ⟨hlt, -⟩ := List.idxOf?_eq_some_iff.1 hslot
    rw [Tuple.get?_set, if_neg (by omega), ht]
  · exact ht

/-- The tuple that an evaluation begins with shows the row that the query begins with. -/
theorem shows_startTuple (pl : Planner) (p : GraphPattern) (bindings : BindingSet)
    {slots : Slots} (hslots : p.columns <+: slots) :
    (p.startTuple pl bindings).Shows pl slots (Query.startRow p.columns bindings) := by
  refine ⟨p.labeled_startTuple pl bindings, fun v => ?_⟩
  rw [Query.get?_startRow]
  by_cases hv : v ∈ p.columns
  · obtain ⟨slot, hslot⟩ : ∃ slot, p.columns.idxOf? v = some slot :=
      Option.ne_none_iff_exists'.1 (mt List.idxOf?_eq_none_iff.1 (not_not.2 hv))
    rw [if_pos hv, Slots.idxOf?_of_prefix hslots hslot, Option.bind_some,
      get?_startTuple pl p bindings hslot, Option.map_map]
    rfl
  · rw [if_neg hv, Option.map_eq_none_iff, Option.bind_eq_none_iff]
    intro i hi
    exact get?_startTuple_of_le pl p bindings (Slots.length_le_of_idxOf? hslots hv hi)

/-- The columns are the distinct variables in scope, each where it is first mentioned. -/
theorem columns_eq (p : GraphPattern) : p.columns = p.inScope.eraseDups :=
  (List.foldl_append_new p.inScope []).trans (by simp)

theorem nodup_columns (p : GraphPattern) : p.columns.Nodup := by
  rw [columns_eq]
  exact List.nodup_eraseDups _

/-- An evaluation gives the rows of the query by its plan. -/
theorem plannedRows_eq (hr : pl.reading.view.store.Readable) {p : GraphPattern}
    {bindings : BindingSet} {q : Query} (hq : Query.ofPattern p bindings = .ok q) :
    p.plannedRows pl bindings = q.rows pl.reading.dataset := by
  obtain ⟨rfl, hstart⟩ := Query.eq_of_ofPattern hq
  have hcolumns := q.pattern.prefix_plan pl q.pattern.columns
  have hshows := q.pattern.shows_plan hr (List.prefix_refl _)
    (q.pattern.shows_startTuple pl bindings hcolumns)
  unfold plannedRows Query.rows
  rw [hstart, ← List.forall₂_eq_eq_eq, List.forall₂_map_left_iff, List.forall₂_map_right_iff]
  refine hshows.imp fun u r hu => ?_
  unfold Query.project
  congr 1
  refine List.ext_getElem (by simp [Query.columns]) fun i hi hi' => ?_
  have hlt : i < q.pattern.columns.length := by simpa using hi
  have hslot := Slots.idxOf?_of_prefix hcolumns (Slots.idxOf?_getElem q.pattern.nodup_columns hlt)
  rw [List.getElem_map, List.getElem_map, List.getElem_range, hu.map_term]
  show _ = ((q.pattern.plan pl q.pattern.columns).slots.idxOf? q.pattern.columns[i]).bind u.terms
  rw [hslot]
  rfl

end GraphPattern

/-- Patterns with the same columns and the same rows have the same answers. -/
theorem Session.evaluate_eq_of_rows_eq {view : View} {inferred : Bool} {p p' : GraphPattern}
    {bindings : BindingSet} {q q' : Query} (hq : Query.ofPattern p bindings = .ok q)
    (hq' : Query.ofPattern p' bindings = .ok q') (hcolumns : p'.columns = p.columns)
    (hrows : q'.rows (view.dataset inferred) = q.rows (view.dataset inferred))
    (limit? : Option Nat) (deadline : Deadline) :
    evaluate view p' bindings inferred limit? deadline =
      evaluate view p bindings inferred limit? deadline := by
  have hquery : q'.columns = q.columns := by
    rw [Query.columns, Query.columns, (Query.eq_of_ofPattern hq).1, (Query.eq_of_ofPattern hq').1,
      hcolumns]
  unfold evaluate
  rw [hq, hq']
  show Answer.rows _ _ = Answer.rows _ _
  unfold Query.pulls
  rw [hquery, hrows]

end QuadStore
