import QuadStore.Proofs.Extending
import QuadStore.Proofs.Rejection
import QuadStore.Proofs.Scope

/-!
# First rows

A pattern without repetitions gives those rows of the pattern below it that no earlier row equals,
in their order: `Session.Arises.keeps_firsts`. Equal rows bind the same variables to the same terms,
wherever these come from and however many empty slots the tuples have; so the rows of a pattern that
are given once more change nothing.

Each row is compared with those that have been kept, by hash and by number. Since equality is that
of the terms, the kept rows stand for all earlier ones.
-/

namespace List

variable {α β : Type}

/-- The place of an element that none before it is related to. -/
def IsFirstAt (R : α → α → Prop) (l : List α) (i : Nat) : Prop :=
  ∃ a ∈ l[i]?, ∀ j < i, ∀ b ∈ l[j]?, ¬ R b a

/-- A list consists of the elements of another one that none before them is related to, in their
order. -/
def IsFirsts (R : α → α → Prop) (l firsts : List α) : Prop :=
  ∃ places : List Nat, places.Pairwise (· < ·) ∧ (∀ i, i ∈ places ↔ l.IsFirstAt R i) ∧
    firsts.map some = places.map (l[·]?)

theorem isFirstAt_length_iff {R : α → α → Prop} {pre rest : List α} {a : α} :
    (pre ++ a :: rest).IsFirstAt R pre.length ↔ ∀ b ∈ pre, ¬ R b a := by
  have ha : (pre ++ a :: rest)[pre.length]? = some a := by
    rw [getElem?_append_right (Nat.le_refl _), Nat.sub_self, getElem?_cons_zero]
  constructor
  · rintro ⟨a', ha', hnone⟩ b hb
    obtain rfl := Option.some.inj (ha.symm.trans ha')
    obtain ⟨j, hj, rfl⟩ := getElem_of_mem hb
    refine hnone j hj pre[j] ?_
    rw [Option.mem_def, getElem?_append_left hj, getElem?_eq_getElem hj]
  · intro hnone
    refine ⟨a, ha, fun j hj b hb => hnone b ?_⟩
    rw [Option.mem_def, getElem?_append_left hj] at hb
    exact mem_of_getElem? hb

/-- The elements that are the same as none seen before, of which those count that were kept. -/
def firstsFrom (same : α → α → Bool) (seen : List α) : List α → List α
  | [] => []
  | a :: rest =>
    if seen.any (same a) then firstsFrom same seen rest
    else a :: firstsFrom same (a :: seen) rest

variable {same : α → α → Bool} {key : α → β}

/-- An element is the same as one of those seen if its key is one of theirs. -/
theorem any_same_iff {seen : List α} {a : α}
    (hsame : ∀ b ∈ seen, same a b = true ↔ key b = key a) :
    seen.any (same a) = true ↔ key a ∈ seen.map key := by
  rw [any_eq_true, mem_map]
  exact exists_congr fun b => and_congr_right fun hb => hsame b hb

open Classical in
/-- The rest of a list is filled from its first places if the elements seen stand for all before. -/
theorem map_some_firstsFrom {l : List α}
    (hsame : ∀ a ∈ l, ∀ b ∈ l, same a b = true ↔ key b = key a) {pre rest seen : List α}
    (hl : l = pre ++ rest) (hkeys : ∀ k, k ∈ seen.map key ↔ k ∈ pre.map key) (hseen : seen ⊆ l) :
    (firstsFrom same seen rest).map some =
      ((range' pre.length rest.length).filter fun i =>
        l.IsFirstAt (fun b a => key b = key a) i).map (l[·]?) := by
  induction rest generalizing pre seen with
  | nil => rfl
  | cons a rest ih =>
    have hl' : l = (pre ++ [a]) ++ rest := by rw [hl, append_assoc, singleton_append]
    have ha : l[pre.length]? = some a := by
      rw [hl, getElem?_append_right (Nat.le_refl _), Nat.sub_self, getElem?_cons_zero]
    have hany : seen.any (same a) = true ↔ key a ∈ pre.map key := by
      rw [any_same_iff fun b hb => hsame a (mem_of_getElem? ha) b (hseen hb), hkeys]
    have hfirst : l.IsFirstAt (fun b a => key b = key a) pre.length ↔ key a ∉ pre.map key := by
      rw [hl, isFirstAt_length_iff, mem_map, not_exists]
      exact forall_congr' fun b => not_and.symm
    have hnext : pre.length + 1 = (pre ++ [a]).length := by
      rw [length_append, length_singleton]
    rw [firstsFrom, length_cons, range'_succ, filter_cons, hnext]
    -- those seen have the keys of all elements before, with this one left out or added
    by_cases hold : key a ∈ pre.map key
    · rw [if_pos (hany.2 hold), if_neg (by simpa [hfirst] using hold)]
      refine ih hl' (fun k => ?_) hseen
      rw [hkeys, map_append, mem_append, map_singleton, mem_singleton]
      exact ⟨.inl, fun h => h.elim id fun hk => hk ▸ hold⟩
    · rw [if_neg (mt hany.1 hold), if_pos (by simpa [hfirst] using hold), map_cons, map_cons, ha]
      refine congrArg (some a :: ·) (ih hl' (fun k => ?_) ?_)
      · rw [map_cons, mem_cons, hkeys, map_append, mem_append, map_singleton, mem_singleton]
        exact or_comm
      · exact cons_subset.2 ⟨mem_of_getElem? ha, hseen⟩

open Classical in
/-- Where elements are the same if their keys are, the first ones of each class are kept. -/
theorem isFirsts_firstsFrom {l : List α}
    (hsame : ∀ a ∈ l, ∀ b ∈ l, same a b = true ↔ key b = key a) :
    IsFirsts (fun b a => key b = key a) l (firstsFrom same [] l) := by
  refine ⟨(range l.length).filter fun i => l.IsFirstAt (fun b a => key b = key a) i,
    pairwise_lt_range.filter _, fun i => ?_, ?_⟩
  · rw [mem_filter, mem_range, decide_eq_true_iff, and_iff_right_iff_imp]
    rintro ⟨a, ha, -⟩
    exact (getElem?_eq_some_iff.1 ha).1
  · rw [range_eq_range']
    exact map_some_firstsFrom hsame (nil_append l).symm (fun _ => Iff.rfl) (nil_subset l)

theorem firstsFrom_append (same : α → α → Bool) (seen l l' : List α) :
    firstsFrom same seen (l ++ l') =
      firstsFrom same seen l ++ firstsFrom same ((firstsFrom same seen l).reverse ++ seen) l' := by
  induction l generalizing seen with
  | nil => rfl
  | cons a l ih =>
    rw [cons_append, firstsFrom, firstsFrom]
    split
    · exact ih seen
    · rw [ih, reverse_cons, append_assoc, cons_append, singleton_append]

theorem firstsFrom_eq_nil {seen l : List α} (h : ∀ a ∈ l, seen.any (same a) = true) :
    firstsFrom same seen l = [] := by
  induction l with
  | nil => rfl
  | cons a l ih =>
    rw [firstsFrom, if_pos (h a mem_cons_self)]
    exact ih fun b hb => h b (mem_cons_of_mem a hb)

/-- The keys of those that are kept, and of those seen before, are all keys. -/
theorem mem_map_firstsFrom {seen l : List α}
    (hsame : ∀ a ∈ l, ∀ b ∈ seen ++ l, same a b = true ↔ key b = key a) (k : β) :
    k ∈ ((firstsFrom same seen l).reverse ++ seen).map key ↔ k ∈ (seen ++ l).map key := by
  induction l generalizing seen with
  | nil => rw [firstsFrom, reverse_nil, nil_append, append_nil]
  | cons a l ih =>
    have hany : seen.any (same a) = true ↔ key a ∈ seen.map key :=
      any_same_iff fun b hb => hsame a mem_cons_self b (mem_append_left _ hb)
    rw [firstsFrom]
    split
    · rename_i hold
      rw [ih fun b hb c hc => hsame b (mem_cons_of_mem a hb) c ?_]
      · have hkey := hany.1 hold
        simp only [map_append, map_cons, mem_append, mem_cons]
        constructor
        · exact fun h => h.imp_right .inr
        · rintro (h | rfl | h)
          · exact .inl h
          · exact .inl hkey
          · exact .inr h
      · exact (mem_append.1 hc).elim (mem_append_left _) fun h =>
          mem_append_right _ (mem_cons_of_mem a h)
    · rw [reverse_cons, append_assoc, singleton_append,
        ih fun b hb c hc => hsame b (mem_cons_of_mem a hb) c ?_]
      · simp only [map_append, map_cons, cons_append, mem_append, mem_cons]
        exact or_left_comm
      · simp only [mem_append, mem_cons] at hc ⊢
        exact or_assoc.1 (hc.imp_left Or.symm) |>.imp_right id

theorem firstsFrom_subset (same : α → α → Bool) (seen l : List α) :
    firstsFrom same seen l ⊆ l := by
  induction l generalizing seen with
  | nil => exact nil_subset _
  | cons a l ih =>
    rw [firstsFrom]
    split
    · exact subset_cons_of_subset a (ih seen)
    · exact cons_subset_cons a (ih (a :: seen))

/-- What has only keys of earlier elements adds nothing. -/
theorem firstsFrom_append_of_keys {l l' : List α}
    (hsame : ∀ a ∈ l ++ l', ∀ b ∈ l ++ l', same a b = true ↔ key b = key a)
    (hkeys : ∀ b ∈ l', key b ∈ l.map key) :
    firstsFrom same [] (l ++ l') = firstsFrom same [] l := by
  have hkept : ∀ k, k ∈ ((firstsFrom same [] l).reverse ++ []).map key ↔ k ∈ l.map key :=
    mem_map_firstsFrom fun a ha b hb => hsame a (mem_append_left _ ha) b (mem_append_left _ hb)
  have hnone : firstsFrom same ((firstsFrom same [] l).reverse ++ []) l' = [] := by
    refine firstsFrom_eq_nil fun b hb => (any_same_iff fun a ha => ?_).2 ((hkept _).2 (hkeys b hb))
    rw [append_nil, mem_reverse] at ha
    exact hsame b (mem_append_right _ hb) a
      (mem_append_left _ (firstsFrom_subset same [] l ha))
  rw [firstsFrom_append, hnone, append_nil]

end List

namespace QuadStore

/-! ## Rows and tuples -/

/-- What the variables of a table stand for in a tuple. -/
def Tuple.solution (slots : Slots) (t : Tuple) : Solution := fun v =>
  (slots.idxOf? v).bind t.terms

theorem Tuple.Shows.solution_eq {pl : Planner} {slots : Slots} {t : Tuple} {row : Row}
    (h : t.Shows pl slots row) : t.solution slots = row.terms :=
  funext fun v => (h.map_term v).symm

theorem Row.distinctFrom_eq (seen rows : List Row) :
    distinctFrom seen rows = List.firstsFrom Row.same seen rows := by
  induction rows generalizing seen with
  | nil => rfl
  | cons row rows ih => rw [distinctFrom, List.firstsFrom, ih, ih]

theorem Row.same_iff_terms {a b : Row} : a.same b = true ↔ b.terms = a.terms := by
  rw [same_iff, eq_comm]
  exact funext_iff.symm

theorem Tuple.distinctFrom_eq (hash : List (Option Term) → UInt64) (seen ts : List Tuple) :
    distinctFrom hash seen ts = List.firstsFrom
      (fun t other => hash other.key == hash t.key && other.same t) seen ts := by
  induction ts generalizing seen with
  | nil => rfl
  | cons t ts ih => rw [distinctFrom, List.firstsFrom, ih, ih]

namespace GraphPattern

variable {pl : Planner} {inner : GraphPattern} {slots : Slots} {t : Tuple}

/-- The tuples that a plan makes of one are told apart by what they stand for. -/
theorem hash_and_same_iff (hr : pl.reading.view.store.Readable)
    (ht : t.Labeled pl.dictionary) {u u' : Tuple} (hu : u ∈ (inner.plan pl slots).run t)
    (hu' : u' ∈ (inner.plan pl slots).run t) :
    (pl.hash u'.key == pl.hash u.key && u'.same u) = true ↔
      u'.solution (inner.plan pl slots).slots = u.solution (inner.plan pl slots).slots := by
  obtain ⟨row, hrow⟩ := Tuple.exists_shows ht (inner.plan pl slots).slots
  have hshows := inner.shows_plan hr (List.prefix_refl _) hrow
  obtain ⟨r, -, hur⟩ := hshows.exists_of_mem_left hu
  obtain ⟨r', -, hur'⟩ := hshows.exists_of_mem_left hu'
  rw [Tuple.hash_and_same_eq pl.hash hur'.labeled hur.labeled,
    Tuple.same_eq_of_grows (List.prefix_refl _) (inner.grows_of_mem_plan pl hu')
      (inner.grows_of_mem_plan pl hu) hur' hur, Row.same_iff_terms, hur.solution_eq,
    hur'.solution_eq]
  exact eq_comm

/-- How a pattern without repetitions goes with the pattern below it. Its rows are the first ones of
each class of those below, whatever row it is started on, and its tuples are so in whatever table of
slots. If the pattern below gives its rows twice, nothing changes, down to the answers. -/
structure KeepsFirsts (pl : Planner) (inner : GraphPattern) : Prop where
  rows : ∀ row, ∃ ls ds,
    inner.evaluator.Yields pl.reading (inner.evaluator.start pl.reading row) ls ∧
      (distinct inner).evaluator.Yields pl.reading
        ((distinct inner).evaluator.start pl.reading row) ds ∧
      (distinct (union inner inner)).evaluator.Yields pl.reading
        ((distinct (union inner inner)).evaluator.start pl.reading row) ds ∧
      List.IsFirsts (fun s r => s.terms = r.terms) ls ds
  tuples : ∀ (slots : Slots) (t : Tuple), t.Labeled pl.dictionary →
    List.IsFirsts (fun u' u => u'.solution (inner.plan pl slots).slots =
        u.solution (inner.plan pl slots).slots)
      ((inner.plan pl slots).run t) (((distinct inner).plan pl slots).run t) ∧
    ((distinct (union inner inner)).plan pl slots).run t = ((distinct inner).plan pl slots).run t
  answers : ∀ bindings limit? deadline,
    Session.evaluate pl.reading.view (distinct (union inner inner)) bindings pl.reading.inferred
        limit? deadline =
      Session.evaluate pl.reading.view (distinct inner) bindings pl.reading.inferred limit? deadline

theorem isFirsts_rows (inner : GraphPattern) (dataset : Dataset) (row : Row) :
    List.IsFirsts (fun s r => s.terms = r.terms) (inner.rows dataset row)
      ((distinct inner).rows dataset row) := by
  rw [rows, Row.distinct, Row.distinctFrom_eq]
  exact List.isFirsts_firstsFrom fun _ _ _ _ => Row.same_iff_terms

/-- Rows that are given once more are left out. -/
theorem rows_distinct_union_self (inner : GraphPattern) (dataset : Dataset) (row : Row) :
    (distinct (union inner inner)).rows dataset row = (distinct inner).rows dataset row := by
  rw [rows, rows, rows, Row.distinct, Row.distinct, Row.distinctFrom_eq, Row.distinctFrom_eq]
  exact List.firstsFrom_append_of_keys (fun _ _ _ _ => Row.same_iff_terms)
    fun r hr => List.mem_map_of_mem hr

theorem isFirsts_plan (inner : GraphPattern) (hr : pl.reading.view.store.Readable)
    (slots : Slots) (ht : t.Labeled pl.dictionary) :
    List.IsFirsts (fun u' u => u'.solution (inner.plan pl slots).slots =
        u.solution (inner.plan pl slots).slots)
      ((inner.plan pl slots).run t) (((distinct inner).plan pl slots).run t) := by
  simp only [plan, Tuple.distinctFrom_eq]
  exact List.isFirsts_firstsFrom fun u hu u' hu' => hash_and_same_iff hr ht hu hu'

/-- The second plan of a pattern may be another one, but its tuples stand for the same. -/
theorem plan_distinct_union_self (inner : GraphPattern) (hr : pl.reading.view.store.Readable)
    (slots : Slots) (ht : t.Labeled pl.dictionary) :
    ((distinct (union inner inner)).plan pl slots).run t =
      ((distinct inner).plan pl slots).run t := by
  have hboth : ∀ u ∈ ((union inner inner).plan pl slots).run t,
      ∀ u' ∈ ((union inner inner).plan pl slots).run t, _ ↔ _ := fun u hu u' hu' =>
    hash_and_same_iff hr ht hu hu'
  simp only [plan, Tuple.distinctFrom_eq] at hboth ⊢
  refine List.firstsFrom_append_of_keys hboth fun u' hu' => ?_
  -- the tuples of both plans show the same rows
  have hsecond := inner.prefix_plan pl (inner.plan pl slots).slots
  obtain ⟨row, hrow⟩ := Tuple.exists_shows ht
    (inner.plan pl (inner.plan pl slots).slots).slots
  obtain ⟨r, hr', hur'⟩ :=
    (inner.shows_plan hr (List.prefix_refl _) hrow).exists_of_mem_left hu'
  obtain ⟨u, hu, hur⟩ := (inner.shows_plan hr hsecond hrow).exists_of_mem_right hr'
  rw [hur'.solution_eq, ← hur.solution_eq]
  exact List.mem_map_of_mem hu

theorem columns_distinct_union_self (inner : GraphPattern) :
    (distinct (union inner inner)).columns = (distinct inner).columns := by
  rw [columns_eq, columns_eq, inScope, inScope, inScope, List.eraseDups_append]
  have hnew : inner.inScope.removeAll inner.inScope = [] :=
    List.filter_eq_nil_iff.2 fun v hv => by simp [hv]
  rw [hnew, List.eraseDups_nil, List.append_nil]

theorem evaluate_distinct_union_self (inner : GraphPattern) (view : View) (bindings : BindingSet)
    (inferred : Bool) (limit? : Option Nat) (deadline : Deadline) :
    Session.evaluate view (distinct (union inner inner)) bindings inferred limit? deadline =
      Session.evaluate view (distinct inner) bindings inferred limit? deadline := by
  have hfault : (distinct (union inner inner)).fault? = (distinct inner).fault? := by
    simp only [fault?]
    cases inner.fault? with
    | none => rfl
    | some _ => rfl
  cases hinner : (distinct inner).fault? with
  | some fault =>
    unfold Session.evaluate
    rw [Query.ofPattern_eq_error_iff.2 hinner, Query.ofPattern_eq_error_iff.2 (hfault.trans hinner)]
  | none =>
    obtain ⟨q, hq⟩ := Query.exists_ofPattern hinner bindings
    obtain ⟨q', hq'⟩ := Query.exists_ofPattern (hfault.trans hinner) bindings
    obtain ⟨hpattern, hstart⟩ := Query.eq_of_ofPattern hq
    obtain ⟨hpattern', hstart'⟩ := Query.eq_of_ofPattern hq'
    have hrows : q'.rows (view.dataset inferred) = q.rows (view.dataset inferred) := by
      rw [Query.rows, Query.rows, Query.columns, Query.columns, hpattern, hpattern', hstart,
        hstart', columns_distinct_union_self, rows_distinct_union_self]
    exact Session.evaluate_eq_of_rows_eq hq hq' inner.columns_distinct_union_self hrows limit?
      deadline

theorem keepsFirsts (inner : GraphPattern) (hr : pl.reading.view.store.Readable) :
    KeepsFirsts pl inner := by
  constructor
  case rows =>
    intro row
    have hunion : (distinct (union inner inner)).evaluator.Yields pl.reading
        ((distinct (union inner inner)).evaluator.start pl.reading row)
        ((distinct inner).rows pl.reading.dataset row) := by
      rw [← rows_distinct_union_self]
      exact computes_evaluator _ _ hr row
    exact ⟨_, _, inner.computes_evaluator _ hr row, (distinct inner).computes_evaluator _ hr row,
      hunion, inner.isFirsts_rows _ row⟩
  case tuples =>
    exact fun slots t ht =>
      ⟨inner.isFirsts_plan hr slots ht, inner.plan_distinct_union_self hr slots ht⟩
  case answers =>
    exact fun bindings limit? deadline =>
      inner.evaluate_distinct_union_self _ bindings _ limit? deadline

end GraphPattern

namespace Session

variable {session : Session}

/-- Whatever the session, the stamp and the hash, a pattern without repetitions keeps the first one
of each class of equal rows. -/
theorem Arises.keeps_firsts (h : session.Arises) {s : Store} (hs : session.store? = some s)
    (stamp : Nat) (inferred : Bool) (hash : List (Option Term) → UInt64) (inner : GraphPattern) :
    GraphPattern.KeepsFirsts ⟨⟨s.at stamp, inferred⟩, hash⟩ inner :=
  inner.keepsFirsts (h.readable s (by rw [← store?_eq, hs]))

/-- The steps, each with a truth value that is computed and once more with a given one. -/
def markedSteps : GraphPattern :=
  .union (.extend oneStep ⟨"c"⟩ (.call .isIri [.var ⟨"b"⟩]))
    (.extend oneStep ⟨"c"⟩ (.literal (.ofTyped "true" ⟨Xsd.boolean⟩)))

/-- Within the transaction, with a hash that tells no rows apart. -/
theorem keeps_firsts_inferring : inferring.Arises ∧ ∃ s, inferring.store? = some s ∧
    GraphPattern.KeepsFirsts ⟨⟨s.at Stamp.pending, true⟩, fun _ => 0⟩ markedSteps := by
  have harises : inferring.Arises := (Arises.start none {}).after _
  exact ⟨harises, _, rfl, harises.keeps_firsts rfl Stamp.pending true (fun _ => 0) markedSteps⟩

/-- The given value is the computed one. -/
example : inferring.store?.map (fun s => [markedSteps, .distinct markedSteps].map fun p =>
    (p.plannedRows ⟨⟨s.at Stamp.pending, true⟩, fun _ => 0⟩ ⟨[], []⟩).length) = some [4, 2] := by
  cbv

end Session
end QuadStore
