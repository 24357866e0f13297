import Mathlib
import QuadStore.Eval.Rows
import QuadStore.Store.Table

/-!
# Laws of rows

What the variables of a row are bound to after each operation on it. Rows are told apart by the
terms of their variables alone.
-/

namespace QuadStore
namespace Row

variable {row r other : Row} {v w : Variable} {d : Datum} {d? : Option Datum} {vs : List Variable}

/-! ## Entries -/

theorem get?_eq_some_iff : row.get? v = some d ↔ (v, d) ∈ row.entries :=
  Table.get?_eq_some_iff (t := ⟨row.entries, row.nodup⟩)

theorem get?_add (h : row.get? v = none) (w : Variable) :
    (row.add v d h).get? w = if w = v then some d else row.get? w := by
  unfold get? add
  rw [List.lookup_cons]
  by_cases hw : w = v
  · rw [if_pos hw, hw, beq_self_eq_true]
  · rw [if_neg hw, beq_false_of_ne hw]

theorem mem_variables_iff : v ∈ row.entries.map (·.1) ↔ row.get? v ≠ none := by
  constructor
  · exact fun hv hnone => not_mem_of_get?_eq_none hnone hv
  · intro hv
    obtain ⟨d, hd⟩ := Option.ne_none_iff_exists'.1 hv
    exact List.mem_map.2 ⟨(v, d), get?_eq_some_iff.1 hd, rfl⟩

/-- Rows are told apart by the terms of their variables. -/
theorem same_iff {a b : Row} :
    a.same b = true ↔ ∀ v, (a.get? v).map (·.term) = (b.get? v).map (·.term) := by
  unfold same
  rw [Bool.and_eq_true, beq_iff_eq, List.all_eq_true]
  constructor
  · rintro ⟨hlength, hall⟩ v
    have hfound : ∀ u d, a.get? u = some d → ∃ e, b.get? u = some e ∧ d.term = e.term := by
      intro u d hd
      obtain ⟨e, he, hsame⟩ := (Option.any_eq_true _ _).1 (hall _ (get?_eq_some_iff.1 hd))
      exact ⟨e, he, eq_of_beq hsame⟩
    cases ha : a.get? v with
    | some d =>
      obtain ⟨e, he, hterm⟩ := hfound v d ha
      rw [he, Option.map_some, Option.map_some, hterm]
    | none =>
      -- as there are as many variables, the other row has no more of them
      have hsub : a.entries.map (·.1) ⊆ b.entries.map (·.1) := by
        intro u hu
        obtain ⟨d, hd⟩ := Option.ne_none_iff_exists'.1 (mem_variables_iff.1 hu)
        obtain ⟨e, he, -⟩ := hfound u d hd
        exact mem_variables_iff.2 (by simp [he])
      have hperm := (a.nodup.subperm hsub).perm_of_length_le (by simp [hlength])
      have hnone : b.get? v = none := by
        by_contra hb
        exact mem_variables_iff.1 (hperm.mem_iff.2 (mem_variables_iff.2 hb)) ha
      rw [hnone]
  · intro h
    have hmem : ∀ u, u ∈ a.entries.map (·.1) ↔ u ∈ b.entries.map (·.1) := by
      intro u
      rw [mem_variables_iff, mem_variables_iff, ne_eq, ne_eq,
        ← Option.map_eq_none_iff (f := fun d : Datum => d.term), h u, Option.map_eq_none_iff]
    refine ⟨by simpa using ((List.perm_ext_iff_of_nodup a.nodup b.nodup).2 hmem).length_eq, ?_⟩
    rintro ⟨v, d⟩ hd
    have hterm := h v
    rw [get?_eq_some_iff.2 hd, Option.map_some] at hterm
    obtain ⟨e, he, heq⟩ := Option.map_eq_some_iff.1 hterm.symm
    exact (Option.any_eq_true _ _).2 ⟨e, he, beq_iff_eq.2 heq.symm⟩

/-! ## Binding -/

/-- A variable is bound unless it has another term already. -/
theorem bind?_cases (row : Row) (v : Variable) (d : Datum) :
    (row.bind? v d = none ∧ ∃ old, row.get? v = some old ∧ old.term ≠ d.term) ∨
      ∃ r, row.bind? v d = some r ∧ (∀ old, row.get? v = some old → old.term = d.term) ∧
        ∀ w, r.get? w = if w = v then (row.get? v).or (some d) else row.get? w := by
  unfold bind?
  split
  · rename_i old hold
    by_cases hsame : old.term = d.term
    · refine .inr ⟨row, if_pos (beq_iff_eq.2 hsame), ?_, fun w => ?_⟩
      · intro old' hold'
        rw [hold] at hold'
        rw [← Option.some.inj hold', hsame]
      · split
        · rename_i hw
          rw [hw, hold, Option.some_or]
        · rfl
    · exact .inl ⟨if_neg (mt eq_of_beq hsame), old, hold, hsame⟩
  · rename_i hnone
    refine .inr ⟨row.add v d hnone, rfl, fun old hold => ?_, fun w => ?_⟩
    · rw [hnone] at hold
      cases hold
    · rw [get?_add, hnone, Option.none_or]

/-- What is bound stays bound. -/
theorem get?_of_bind? (h : row.bind? v d = some r) {e : Datum} (he : row.get? w = some e) :
    r.get? w = some e := by
  rcases bind?_cases row v d with ⟨hnone, -⟩ | ⟨r', hr', -, hget⟩
  · rw [hnone] at h
    cases h
  · rw [h] at hr'
    rw [Option.some.inj hr', hget]
    split
    · rename_i hw
      rw [← hw, he, Option.some_or]
    · exact he

/-! ## Choices of variables -/

/-- A row that takes up the values of some variables has these values, besides those that it had
before. -/
theorem get?_foldl_bindAny? (f : Variable → Option Datum) (vs : List Variable) {acc : Row}
    (hacc : ∀ v d, acc.get? v = some d → f v = some d) (w : Variable) :
    (vs.foldl (fun r v => (r.bindAny? v (f v)).getD r) acc).get? w =
      if w ∈ vs then f w else acc.get? w := by
  induction vs generalizing acc with
  | nil => rfl
  | cons v vs ih =>
    -- one more variable has been taken up
    have hstep : ∀ u, ((acc.bindAny? v (f v)).getD acc).get? u =
        if u = v then f v else acc.get? u := by
      intro u
      cases hv : f v with
      | none =>
        have hnone : acc.get? v = none := by
          refine Option.eq_none_iff_forall_ne_some.2 fun d hd => ?_
          rw [hacc v d hd] at hv
          cases hv
        show acc.get? u = _
        split
        · rename_i hu
          rw [hu, hnone]
        · rfl
      | some d =>
        show ((acc.bind? v d).getD acc).get? u = _
        rcases bind?_cases acc v d with ⟨-, old, hold, hne⟩ | ⟨r, hr, -, hget⟩
        · rw [hacc v old hold] at hv
          exact absurd (congrArg Datum.term (Option.some.inj hv)) hne
        · rw [hr, Option.getD_some, hget]
          split
          · cases hold : acc.get? v with
            | none => rfl
            | some old => rw [Option.some_or, ← hv, hacc v old hold]
          · rfl
    rw [List.foldl_cons, ih]
    · rw [hstep]
      by_cases hw : w = v
      · simp [hw]
      · simp [hw]
    · intro u e he
      rw [hstep] at he
      split at he
      · rename_i hu
        rw [hu, he]
      · exact hacc u e he

/-- A restricted row has the values of some variables, and no others. -/
theorem get?_restrict (row : Row) (vs : List Variable) (w : Variable) :
    (row.restrict vs).get? w = if w ∈ vs then row.get? w else none :=
  get?_foldl_bindAny? row.get? vs (fun v d h => by cases h) w

end Row
end QuadStore
