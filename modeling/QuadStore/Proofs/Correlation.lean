import QuadStore.Eval.Fault
import QuadStore.Proofs.Genuine
import QuadStore.Proofs.Solutions

/-!
# Correlated evaluation

A pattern is evaluated in a row: what the row binds is put in the place of variables, down to the
look-ups of quads. `GraphPattern.terms_rows` says that the rows are those that join the row with the
solutions that the pattern has on its own.
-/

/-! ## Multisets -/

section Multisets

variable {α β γ : Type}

theorem Multiset.filterMap_congr_of_mem {f g : α → Option β} {s : Multiset α}
    (h : ∀ a ∈ s, f a = g a) : s.filterMap f = s.filterMap g := by
  rw [Multiset.filterMap_eq_bind, Multiset.filterMap_eq_bind]
  exact Multiset.bind_congr fun a ha => by rw [h a ha]

/-- Duplicates stay duplicates under a map that keeps the others apart. -/
theorem Multiset.dedup_filterMap [DecidableEq α] [DecidableEq β] {f : α → Option β}
    {s : Multiset α} (h : ∀ a ∈ s, ∀ a' ∈ s, ∀ b, f a = some b → f a' = some b → a = a') :
    (s.filterMap f).dedup = s.dedup.filterMap f := by
  have hrestricted : s.dedup.filterMap f = s.dedup.filterMap fun a => if a ∈ s then f a else none :=
    Multiset.filterMap_congr_of_mem fun a ha => (if_pos (Multiset.mem_dedup.1 ha)).symm
  have hnodup : (s.dedup.filterMap f).Nodup := by
    rw [hrestricted]
    refine (Multiset.nodup_dedup s).filterMap _ fun a a' b hb hb' => ?_
    simp only [Option.mem_def, Option.ite_none_right_eq_some] at hb hb'
    exact h a hb.1 a' hb'.1 b hb.2 hb'.2
  refine ((Multiset.nodup_dedup _).ext hnodup).2 fun b => ?_
  simp only [Multiset.mem_dedup, Multiset.mem_filterMap]

end Multisets

namespace QuadStore

open Solution (joinBoth? joinBoth?_assoc)

/-! ## Quads -/

namespace Row

/-- Whether a row has all values of another one. -/
def Extends (r row : Row) : Prop := ∀ v d, row.get? v = some d → r.get? v = some d

/-- What comes of extending a row by a solution, if there is one. -/
structure Joins (row : Row) (r? : Option Row) (μ? : Option Solution) : Prop where
  terms : r?.map Row.terms = joinBoth? (some row.terms) μ?
  extend : ∀ r, r? = some r → r.Extends row

variable {row r : Row} {r? : Option Row} {μ? ν? : Option Solution}

/-- A row may be extended by one solution after the other. -/
theorem Joins.bind (h : row.Joins r? μ?) {f : Row → Option Row}
    (hf : ∀ r : Row, r.Extends row → r.Joins (f r) ν?) :
    row.Joins (r?.bind f) (joinBoth? μ? ν?) := by
  constructor
  · rw [← joinBoth?_assoc, ← h.terms]
    cases hr : r? with
    | none => rfl
    | some r => exact (hf r (h.extend r hr)).terms
  · intro s hs v d hd
    obtain ⟨r, hr, hs⟩ := Option.bind_eq_some_iff.1 hs
    exact (hf r (h.extend r hr)).extend s hs v d (h.extend r hr v d hd)

theorem joins_self (row : Row) : row.Joins (some row) (some .empty) :=
  ⟨(Solution.join?_empty _).symm, fun _ hr _ _ he => by rwa [← Option.some.inj hr]⟩

theorem joins_none (row : Row) : row.Joins none none := ⟨rfl, fun _ hr => by cases hr⟩

/-- A variable is checked in a row, and bound in one that extends it. -/
theorem joins_single (hr : r.Extends row) (v : Variable) (t : Term) :
    r.Joins (if ((row.get? v).map (·.term)).all (· == t) then r.bind? v (.ofTerm t) else none)
      (some (.single v t)) := by
  split
  · exact ⟨terms_bind? r v (.ofTerm t), fun _ hs _ _ he => get?_of_bind? hs he⟩
  · rename_i hchecked
    refine ⟨?_, fun _ hs => by cases hs⟩
    cases hv : row.get? v with
    | none => simp [hv] at hchecked
    | some d =>
      refine (Solution.join?_of_not_compatible fun h => hchecked ?_).symm
      have hterm := h v d.term (by simp [terms, hr v d hv]) t (by simp [Solution.single])
      simp [hv, hterm]

end Row

section Quads

variable {row r : Row}

/-- What a position asks for is checked in a row that the row to extend begins with. -/
theorem Position.joins {α : Type} (toTerm : α → Term) (p : Position α) (t : Term)
    (hr : r.Extends row) :
    r.Joins (if (p.wanted? row toTerm).all (· == t) then p.bind? r t else none)
      (p.solution? toTerm t) := by
  cases p with
  | given a =>
    by_cases ha : toTerm a = t
    · simp [wanted?, bind?, solution?, ha, r.joins_self]
    · simp [wanted?, solution?, ha, r.joins_none]
  | var v => exact Row.joins_single hr v t

theorem GraphPosition.joins (p : GraphPosition) (g : GraphName) (hr : r.Extends row) :
    r.Joins (if (p.shape row).covers g then p.bind? r g else none) (p.solution? g) := by
  cases p with
  | any => exact r.joins_self
  | default =>
    unfold solution? shape GraphShape.covers
    dsimp only
    split
    · exact r.joins_self
    · exact r.joins_none
  | given name =>
    unfold solution? shape GraphShape.covers
    simp only [beq_iff_eq]
    split
    · exact r.joins_self
    · exact r.joins_none
  | var v =>
    cases hg : g.toTerm? with
    | none =>
      simp only [bind?, solution?, hg, Option.bind_none, Option.map_none, ite_self]
      exact r.joins_none
    | some t =>
      have hcovers : ((GraphPosition.var v).shape row).covers g =
          ((row.get? v).map (·.term)).all (· == t) := by
        cases hv : row.get? v with
        | none => simp only [shape, hv, GraphShape.covers, Option.map_none, Option.all_none]
        | some d =>
          simp only [shape, hv, GraphShape.covers, hg, Option.map_some, Option.all_some]
          rw [Bool.eq_iff_iff, beq_iff_eq, beq_iff_eq, Option.some.injEq, eq_comm]
      rw [hcovers]
      simp only [bind?, solution?, hg, Option.bind_some, Option.map_some]
      exact Row.joins_single hr v t

/-- A quad extends a row by its solution, if it has the shape asked for. -/
theorem QuadPattern.terms_bind? (p : QuadPattern) (row : Row) (q : Quad) :
    (if (p.shape row).covers q then p.bind? row q else none).map Row.terms =
      (p.solution? q).bind row.terms.join? := by
  have hsubject := p.subject.joins id q.subject.toTerm (fun _ _ h => h : row.Extends row)
  have hjoins := ((hsubject.bind fun r hr => p.predicate.joins .iri (.iri q.predicate) hr).bind
    fun r hr => p.object.joins id q.object hr).bind fun r hr => p.graph.joins q.graph hr
  refine Eq.trans (congrArg _ ?_) hjoins.terms
  unfold QuadShape.covers shape QuadPattern.bind?
  dsimp only
  -- a quad without the shape fails at the position that does not fit
  cases (p.subject.wanted? row id).all (· == q.subject.toTerm) <;>
    cases (p.predicate.wanted? row .iri).all (· == .iri q.predicate) <;>
    cases (p.object.wanted? row id).all (· == q.object) <;>
    cases (p.graph.shape row).covers q.graph <;>
    simp [Option.bind_assoc]

end Quads

/-! ## Variables of solutions -/

theorem Solution.single_ne_none_iff {v w : Variable} {t : Term} : single v t w ≠ none ↔ w = v := by
  simp [single]

theorem Solution.merge_ne_none_iff {μ ν : Solution} {v : Variable} :
    μ.merge ν v ≠ none ↔ μ v ≠ none ∨ ν v ≠ none := by
  unfold merge
  cases μ v <;> simp

/-- Solutions that are there together bind what either of them does. -/
theorem Solution.bound_of_joinBoth? {μ? ν? : Option Solution} {vs ws : List Variable}
    (hμ : ∀ μ, μ? = some μ → ∀ v, μ v ≠ none ↔ v ∈ vs)
    (hν : ∀ ν, ν? = some ν → ∀ v, ν v ≠ none ↔ v ∈ ws) :
    ∀ ξ, joinBoth? μ? ν? = some ξ → ∀ v, ξ v ≠ none ↔ v ∈ vs ++ ws := by
  intro ξ h v
  obtain ⟨μ, hsome, h⟩ := Option.bind_eq_some_iff.1 h
  obtain ⟨ν, hsome', h⟩ := Option.bind_eq_some_iff.1 h
  obtain ⟨-, rfl⟩ := join?_eq_some_iff.1 h
  rw [merge_ne_none_iff, hμ μ hsome, hν ν hsome', List.mem_append]

theorem Position.bound_of_solution? {α : Type} {toTerm : α → Term} {t : Term} {p : Position α} :
    ∀ μ, p.solution? toTerm t = some μ → ∀ v, μ v ≠ none ↔ v ∈ p.var?.toList := by
  intro μ h v
  cases p with
  | given a =>
    simp only [solution?, Option.ite_none_right_eq_some, Option.some.injEq] at h
    rw [← h.2]
    simp [Solution.empty, var?]
  | var w =>
    rw [← Option.some.inj h, Solution.single_ne_none_iff]
    simp [var?]

theorem GraphPosition.bound_of_solution? {g : GraphName} {p : GraphPosition} :
    ∀ μ, p.solution? g = some μ → ∀ v, μ v ≠ none ↔ v ∈ p.var?.toList := by
  intro μ h v
  cases p with
  | any =>
    rw [← Option.some.inj h]
    simp [Solution.empty, var?]
  | default =>
    simp only [solution?, Option.ite_none_right_eq_some, Option.some.injEq] at h
    rw [← h.2]
    simp [Solution.empty, var?]
  | given name =>
    simp only [solution?, Option.ite_none_right_eq_some, Option.some.injEq] at h
    rw [← h.2]
    simp [Solution.empty, var?]
  | var w =>
    obtain ⟨t, -, rfl⟩ := Option.map_eq_some_iff.1 h
    rw [Solution.single_ne_none_iff]
    simp [var?]

/-- A solution of a quad pattern binds the variables of the pattern. -/
theorem QuadPattern.bound_of_solution? {p : QuadPattern} {q : Quad} {μ : Solution}
    (h : p.solution? q = some μ) (v : Variable) : μ v ≠ none ↔ v ∈ p.vars := by
  have hbound := Solution.bound_of_joinBoth? (Solution.bound_of_joinBoth?
    (Solution.bound_of_joinBoth? p.subject.bound_of_solution? p.predicate.bound_of_solution?)
    p.object.bound_of_solution?) p.graph.bound_of_solution? μ h v
  rw [hbound]
  unfold vars
  cases p.subject.var? <;> cases p.predicate.var? <;> cases p.object.var? <;>
    cases p.graph.var? <;> simp

variable {quads : List Quad}

/-- A solution binds what is certain, and nothing that is out of scope. -/
theorem GraphPattern.bound_of_mem : ∀ (p : GraphPattern) {μ : Solution}, μ ∈ p.solutions quads →
    (∀ v ∈ p.certain, μ v ≠ none) ∧ ∀ v, μ v ≠ none → v ∈ p.inScope
  | .quad pattern, μ, h => by
    simp only [solutions] at h
    obtain ⟨q, -, hq⟩ := (Multiset.mem_filterMap _ _).1 h
    have hbound := QuadPattern.bound_of_solution? hq
    exact ⟨fun v => (hbound v).2, fun v => (hbound v).1⟩
  | .join left right, μ, h => by
    simp only [solutions] at h
    obtain ⟨l, hl, h⟩ := Multiset.mem_bind.1 h
    obtain ⟨r, hr, h⟩ := (Multiset.mem_filterMap _ _).1 h
    obtain ⟨-, rfl⟩ := Solution.join?_eq_some_iff.1 h
    obtain ⟨hleft, hleft'⟩ := left.bound_of_mem hl
    obtain ⟨hright, hright'⟩ := right.bound_of_mem hr
    simp only [certain, inScope, List.mem_append, Solution.merge_ne_none_iff]
    exact ⟨fun v hv => hv.imp (hleft v) (hright v), fun v hv => hv.imp (hleft' v) (hright' v)⟩
  | .union left right, μ, h => by
    simp only [solutions] at h
    simp only [certain, inScope, List.mem_append, List.mem_filter, List.contains_iff_mem]
    rcases Multiset.mem_add.1 h with h | h
    · obtain ⟨hleft, hleft'⟩ := left.bound_of_mem h
      exact ⟨fun v hv => hleft v hv.1, fun v hv => .inl (hleft' v hv)⟩
    · obtain ⟨hright, hright'⟩ := right.bound_of_mem h
      exact ⟨fun v hv => hright v hv.2, fun v hv => .inr (hright' v hv)⟩
  | .filter condition inner, μ, h => by
    simp only [solutions] at h
    exact inner.bound_of_mem (Multiset.mem_of_mem_filter h)
  | .extend inner v value, μ, h => by
    simp only [solutions] at h
    obtain ⟨ν, hν, rfl⟩ := Multiset.mem_map.1 h
    obtain ⟨hinner, hinner'⟩ := inner.bound_of_mem hν
    simp only [certain, inScope, List.mem_append, List.mem_singleton]
    -- an expression without a value leaves the solution as it was
    cases (value.eval (.ofQuads quads) (ν.toRow inner.inScope)).map (·.term) with
    | none => exact ⟨hinner, fun w hw => .inl (hinner' w hw)⟩
    | some t =>
      simp only [Solution.set]
      refine ⟨fun w hw => ?_, fun w hw => ?_⟩
      · split
        · exact Option.some_ne_none t
        · exact hinner w hw
      · by_cases hv : w = v
        · exact .inr hv
        · rw [if_neg hv] at hw
          exact .inl (hinner' w hw)
  | .distinct inner, μ, h => by
    simp only [solutions] at h
    classical exact inner.bound_of_mem (Multiset.mem_dedup.1 h)
  | .project inner vs, μ, h => by
    simp only [solutions] at h
    obtain ⟨ν, hν, rfl⟩ := Multiset.mem_map.1 h
    obtain ⟨hinner, hinner'⟩ := inner.bound_of_mem hν
    simp only [certain, inScope, List.mem_filter, List.contains_iff_mem, Solution.restrict]
    refine ⟨fun v hv => ?_, fun v hv => ?_⟩
    · rw [if_pos hv.1]
      exact hinner v hv.2
    · by_contra hnot
      exact hv (if_neg hnot)
  | .leftJoin _ _ _, μ, h => by simp only [solutions, Multiset.notMem_zero] at h
  | .orderBy _ _, μ, h => by simp only [solutions, Multiset.notMem_zero] at h
  | .slice _ _ _, μ, h => by simp only [solutions, Multiset.notMem_zero] at h

/-- What is certain is in scope. -/
theorem GraphPattern.certain_subset : ∀ p : GraphPattern, p.certain ⊆ p.inScope
  | .quad _ => List.Subset.refl _
  | .join left right =>
    List.append_subset.2 ⟨List.subset_append_of_subset_left _ left.certain_subset,
      List.subset_append_of_subset_right _ right.certain_subset⟩
  | .leftJoin left _ _ => List.subset_append_of_subset_left _ left.certain_subset
  | .union left _ => List.subset_append_of_subset_left _
      (List.Subset.trans (List.filter_subset_self _) left.certain_subset)
  | .filter _ inner | .distinct inner | .orderBy inner _ | .slice inner _ _ => inner.certain_subset
  | .extend inner _ _ => List.subset_append_of_subset_left _ inner.certain_subset
  | .project _ _ => List.filter_subset_self _

/-! ## Expressions on solutions -/

/-- A solution as a row is alike to any row with the same terms. -/
theorem Row.alikeOn_toRow {r : Row} (hr : r.Genuine) {vs scope : List Variable} (hvs : vs ⊆ scope) :
    r.AlikeOn vs (r.terms.toRow scope) := by
  intro v hv
  rw [Solution.get?_toRow, if_pos (hvs hv)]
  unfold terms
  cases h : r.get? v with
  | none => exact .none
  | some d => exact .some (hr v d h)

theorem Solution.alikeOn_toRow {μ ν : Solution} {vs scope : List Variable}
    (h : ∀ v ∈ vs, μ v = ν v) : (μ.toRow scope).AlikeOn vs (ν.toRow scope) := by
  intro v hv
  rw [get?_toRow, get?_toRow, h v hv]
  exact .of_eq .refl rfl

/-! ## Patterns -/

/-- The solutions that some rows are. -/
def Solution.ofRows (rows : List Row) : Multiset Solution := (rows.map Row.terms : List Solution)

theorem Solution.mem_ofRows {rows : List Row} {μ : Solution} :
    μ ∈ ofRows rows ↔ ∃ r ∈ rows, r.terms = μ :=
  Multiset.mem_coe.trans List.mem_map

theorem Solution.terms_mem_ofRows_iff {seen : List Row} {row : Row} :
    row.terms ∈ ofRows seen ↔ seen.any row.same = true := by
  rw [mem_ofRows, List.any_eq_true]
  exact exists_congr fun r => and_congr_right fun _ => eq_comm.trans Row.terms_eq_iff

theorem Solution.mem_ofRows_cons {row : Row} {rows : List Row} {μ : Solution} :
    μ ∈ ofRows (row :: rows) ↔ μ = row.terms ∨ μ ∈ ofRows rows := by
  simp [mem_ofRows, eq_comm]

/-- Rows are the same just if they are the same solution. -/
theorem Solution.mem_ofRows_distinctFrom {seen rows : List Row} (μ : Solution) :
    μ ∈ ofRows (Row.distinctFrom seen rows) ↔ μ ∈ ofRows rows ∧ μ ∉ ofRows seen := by
  induction rows generalizing seen with
  | nil => simp [Row.distinctFrom, mem_ofRows]
  | cons row rest ih =>
    unfold Row.distinctFrom
    split
    · rename_i hseen
      rw [ih, mem_ofRows_cons]
      -- the row is among those already seen
      have hrow : μ = row.terms → μ ∈ ofRows seen := fun h => h ▸ terms_mem_ofRows_iff.2 hseen
      tauto
    · rename_i hnew
      rw [mem_ofRows_cons, mem_ofRows_cons, ih, mem_ofRows_cons]
      have hrow : μ = row.terms → μ ∉ ofRows seen := fun h => h ▸ mt terms_mem_ofRows_iff.1 hnew
      tauto

theorem Solution.nodup_ofRows_distinctFrom (seen rows : List Row) :
    (ofRows (Row.distinctFrom seen rows)).Nodup := by
  induction rows generalizing seen with
  | nil => exact Multiset.nodup_zero
  | cons row rest ih =>
    unfold Row.distinctFrom
    split
    · exact ih seen
    · refine Multiset.nodup_cons.2 ⟨fun h => ?_, ih (row :: seen)⟩
      exact ((mem_ofRows_distinctFrom _).1 h).2 (mem_ofRows_cons.2 (.inl rfl))

open Classical in
theorem Solution.ofRows_distinct (rows : List Row) :
    ofRows (Row.distinct rows) = (ofRows rows).dedup := by
  refine ((nodup_ofRows_distinctFrom [] rows).ext (Multiset.nodup_dedup _)).2 fun μ => ?_
  rw [mem_ofRows_distinctFrom, Multiset.mem_dedup]
  exact and_iff_left (Multiset.notMem_zero μ)

namespace GraphPattern

theorem ofRows_quad (p : QuadPattern) (row : Row) :
    Solution.ofRows (p.rows (.ofQuads quads) row) =
      ((quads : Multiset Quad).filterMap p.solution?).filterMap row.terms.join? := by
  unfold Solution.ofRows QuadPattern.rows Dataset.ofQuads
  rw [Multiset.filterMap_filterMap, Multiset.filterMap_coe, List.filterMap_filter,
    List.map_filterMap]
  exact congrArg _ (List.filterMap_congr fun q _ => p.terms_bind? row q)

/-- The rows of a pattern that extend a row are those that join it with the solutions that the
pattern has on its own. -/
def Corresponds (p : GraphPattern) (quads : List Quad) : Prop :=
  ∀ row : Row, row.Genuine →
    Solution.ofRows (p.rows (.ofQuads quads) row) = (p.solutions quads).filterMap row.terms.join?

variable {left right inner : GraphPattern}

theorem Corresponds.join (hleft : left.Corresponds quads) (hright : right.Corresponds quads) :
    (GraphPattern.join left right).Corresponds quads := by
  intro row hrow
  have hrows : Solution.ofRows ((GraphPattern.join left right).rows (.ofQuads quads) row) =
      (Solution.ofRows (left.rows (.ofQuads quads) row)).bind fun τ =>
        (right.solutions quads).filterMap τ.join? := by
    simp only [rows]
    unfold Solution.ofRows
    rw [List.map_flatMap, ← Multiset.coe_bind, ← Multiset.map_coe, Multiset.bind_map]
    exact Multiset.bind_congr fun r hr => hright r (left.genuine_rows _ hrow r hr)
  rw [solutions_join, hrows, hleft row hrow, Multiset.bind_filterMap, Multiset.filterMap_bind]
  refine Multiset.bind_congr fun μ _ => ?_
  simp only [Multiset.filterMap_filterMap, Solution.join?_assoc]
  cases row.terms.join? μ with
  | none =>
    show 0 = (right.solutions quads).filterMap fun _ => none
    simp [Multiset.filterMap_eq_bind]
  | some τ => rfl

theorem Corresponds.union (hleft : left.Corresponds quads) (hright : right.Corresponds quads) :
    (GraphPattern.union left right).Corresponds quads := by
  intro row hrow
  simp only [rows]
  rw [solutions_union, Multiset.filterMap_add, ← hleft row hrow, ← hright row hrow]
  unfold Solution.ofRows
  rw [List.map_append]
  rfl

/-- An expression has alike values on a solution and on what comes of joining it, since it sees only
what the solution binds. -/
theorem alike_eval_join? {e : Expression} (hmentions : e.mentionsOnly inner.certain = true)
    {t μ τ : Solution} (hμ : μ ∈ inner.solutions quads) (h : t.join? μ = some τ) :
    Option.Rel Datum.Alike (e.eval (.ofQuads quads) (τ.toRow inner.inScope))
      (e.eval (.ofQuads quads) (μ.toRow inner.inScope)) := by
  refine Expression.alike_eval _ (Solution.alikeOn_toRow fun v hv => ?_) e hmentions
  obtain ⟨hcompatible, rfl⟩ := Solution.join?_eq_some_iff.1 h
  obtain ⟨a, ha⟩ := Option.ne_none_iff_exists'.1 ((inner.bound_of_mem hμ).1 v hv)
  rw [Solution.merge_apply_of_some hcompatible ha, ha]

/-- An expression has alike values in a genuine row and on its terms. -/
theorem alike_eval_terms (quads : List Quad) {e : Expression}
    (hmentions : e.mentionsOnly inner.certain = true) {r : Row} (hr : r.Genuine) :
    Option.Rel Datum.Alike (e.eval (.ofQuads quads) r)
      (e.eval (.ofQuads quads) (r.terms.toRow inner.inScope)) :=
  Expression.alike_eval _ (Row.alikeOn_toRow hr inner.certain_subset) e hmentions

theorem Corresponds.filter (h : inner.Corresponds quads) {condition : Expression}
    (hmentions : condition.mentionsOnly inner.certain = true) :
    (GraphPattern.filter condition inner).Corresponds quads := by
  intro row hrow
  have hrows : Solution.ofRows ((GraphPattern.filter condition inner).rows (.ofQuads quads) row) =
      (Solution.ofRows (inner.rows (.ofQuads quads) row)).filter fun τ =>
        Datum.truthOf? (condition.eval (.ofQuads quads) (τ.toRow inner.inScope)) = some true := by
    simp only [rows]
    unfold Solution.ofRows
    rw [Multiset.filter_coe, List.filter_map]
    refine congrArg _ (congrArg _ (List.filter_congr fun r hr => ?_))
    have hvalue := alike_eval_terms quads hmentions (inner.genuine_rows _ hrow r hr)
    rw [Datum.truthOf?_eq hvalue, Bool.eq_iff_iff, beq_iff_eq]
    exact decide_eq_true_iff.symm
  rw [solutions_filter, hrows, h row hrow, Multiset.filter_filterMap, Multiset.filterMap_filter]
  refine Multiset.filterMap_congr_of_mem fun μ hμ => ?_
  cases hτ : row.terms.join? μ with
  | none => simp
  | some τ =>
    rw [Option.filter_some, Datum.truthOf?_eq (alike_eval_join? hmentions hμ hτ)]
    simp only [decide_eq_true_eq]

/-- What is computed for a solution is the same once the solution has been joined. -/
theorem Corresponds.extend (h : inner.Corresponds quads) {v : Variable} {value : Expression}
    (hmentions : value.mentionsOnly inner.certain = true) (hv : v ∉ inner.inScope) :
    (GraphPattern.extend inner v value).Corresponds quads := by
  intro row hrow
  have hrows : Solution.ofRows ((GraphPattern.extend inner v value).rows (.ofQuads quads) row) =
      (Solution.ofRows (inner.rows (.ofQuads quads) row)).filterMap fun τ =>
        τ.join? (Solution.empty.set v
          ((value.eval (.ofQuads quads) (τ.toRow inner.inScope)).map (·.term))) := by
    simp only [rows]
    unfold Solution.ofRows
    rw [Multiset.filterMap_coe, List.map_filterMap, List.filterMap_map]
    refine congrArg _ (List.filterMap_congr fun r hr => ?_)
    have hvalue := alike_eval_terms quads hmentions (inner.genuine_rows _ hrow r hr)
    rw [Row.terms_bindAny?, Datum.map_term_eq hvalue]
    rfl
  rw [solutions_extend, hrows, h row hrow, Multiset.filterMap_filterMap, Multiset.filterMap_map]
  refine Multiset.filterMap_congr_of_mem fun μ hμ => ?_
  have hnone : μ v = none := by
    by_contra hbound
    exact hv ((inner.bound_of_mem hμ).2 v hbound)
  have hset : ∀ t? : Option Term, (row.terms.join? μ).bind (·.join? (Solution.empty.set v t?)) =
      row.terms.join? (μ.set v t?) := by
    intro t?
    rw [← Solution.join?_assoc, Solution.join?_set hnone, Option.bind_some]
  rw [Function.comp_apply, ← hset]
  cases hτ : row.terms.join? μ with
  | none => rfl
  | some τ =>
    rw [Option.bind_some, Option.bind_some, Datum.map_term_eq (alike_eval_join? hmentions hμ hτ)]

theorem Corresponds.distinct (h : inner.Corresponds quads)
    (hcertain : ∀ v ∈ inner.inScope, v ∈ inner.certain) :
    (GraphPattern.distinct inner).Corresponds quads := by
  classical
  intro row hrow
  -- all solutions bind the same variables
  have hdomain : ∀ μ ∈ inner.solutions quads, ∀ v, μ v ≠ none ↔ v ∈ inner.certain := by
    intro μ hμ v
    obtain ⟨hbound, hbound'⟩ := inner.bound_of_mem hμ
    exact ⟨fun hv => hcertain v (hbound' v hv), hbound v⟩
  simp only [rows]
  rw [solutions_distinct, Solution.ofRows_distinct, h row hrow]
  have hdedup := Multiset.dedup_filterMap (f := row.terms.join?) (s := inner.solutions quads)
    fun μ hμ ν hν τ hμτ hντ => Solution.eq_of_join?_eq
      (fun w => not_iff_not.1 ((hdomain μ hμ w).trans (hdomain ν hν w).symm)) hμτ hντ
  exact hdedup

theorem Corresponds.project (h : inner.Corresponds quads) (vs : List Variable) :
    (GraphPattern.project inner vs).Corresponds quads := by
  intro row hrow
  have hrows : Solution.ofRows ((GraphPattern.project inner vs).rows (.ofQuads quads) row) =
      (Solution.ofRows (inner.rows (.ofQuads quads) (row.restrict vs))).filterMap fun τ =>
        row.terms.join? (τ.restrict vs) := by
    simp only [rows]
    unfold Solution.ofRows
    rw [Multiset.filterMap_coe, List.map_filterMap, List.filterMap_map]
    exact congrArg _ (List.filterMap_congr fun r _ => Row.terms_extend? row vs r)
  rw [solutions_project, hrows, h _ (hrow.restrict vs), Multiset.filterMap_filterMap,
    Multiset.filterMap_map, Row.terms_restrict]
  exact Multiset.filterMap_congr_of_mem fun μ _ => Solution.join?_restrict row.terms μ vs

/-- Correlated evaluation agrees with the solutions from the bottom up. -/
theorem corresponds : ∀ p : GraphPattern, p.isCompositional = true → p.fault? = none →
    p.Corresponds quads
  | .quad pattern, _, _ => by
    intro row _
    simp only [rows, solutions]
    exact ofRows_quad pattern row
  | .join left right, h, hfault => by
    simp only [isCompositional, Bool.and_eq_true] at h
    have hfault : left.fault? = none ∧ right.fault? = none := by simpa [fault?] using hfault
    exact (left.corresponds h.1 hfault.1).join (right.corresponds h.2 hfault.2)
  | .union left right, h, hfault => by
    simp only [isCompositional, Bool.and_eq_true] at h
    have hfault : left.fault? = none ∧ right.fault? = none := by simpa [fault?] using hfault
    exact (left.corresponds h.1 hfault.1).union (right.corresponds h.2 hfault.2)
  | .filter condition inner, h, hfault => by
    simp only [isCompositional, Bool.and_eq_true] at h
    have hfault : inner.fault? = none ∧ condition.fault? = none := by
      simpa [fault?] using hfault
    exact (inner.corresponds h.1 hfault.1).filter h.2
  | .extend inner v value, h, hfault => by
    simp only [isCompositional, Bool.and_eq_true] at h
    simp only [fault?, List.contains_iff_mem] at hfault
    split at hfault
    · cases hfault
    · rename_i hv
      have hfault : inner.fault? = none ∧ value.fault? = none := by simpa using hfault
      exact (inner.corresponds h.1 hfault.1).extend h.2 hv
  | .distinct inner, h, hfault => by
    simp only [isCompositional, Bool.and_eq_true, List.all_eq_true, List.contains_iff_mem] at h
    have hfault : inner.fault? = none := by simpa only [fault?] using hfault
    exact (inner.corresponds h.1 hfault).distinct h.2
  | .project inner vs, h, hfault => by
    simp only [isCompositional] at h
    have hfault : inner.fault? = none := by simpa only [fault?] using hfault
    exact (inner.corresponds h hfault).project vs
  | .leftJoin _ _ _, h, _ => by simp [isCompositional] at h
  | .orderBy _ _, h, _ => by simp [isCompositional] at h
  | .slice _ _ _, h, _ => by simp [isCompositional] at h

end GraphPattern

end QuadStore
