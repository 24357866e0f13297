import Mathlib
import QuadStore.Proofs.Dictionary
import QuadStore.Store.Plan

/-!
# Laws of tuples

What stands in the slots of a tuple after each operation on it. Tuples are told apart by the terms
of their slots alone, whichever of them have numbers, and so are their hashes: `Tuple.same_iff` and
`Tuple.key_eq_iff`.
-/

namespace List

variable {α β : Type}

/-! ## Lists up to empty slots at their end -/

/-- A list whose last slot, if there is one, has a value. -/
def Trimmed (l : List (Option α)) : Prop := ∀ h : l ≠ [], (l.getLast h).isSome

theorem trimmed_rdropWhile (l : List (Option α)) : (l.rdropWhile Option.isNone).Trimmed := by
  intro h
  have hlast := rdropWhile_last_not Option.isNone l h
  rwa [Bool.not_eq_true, Option.isNone_eq_false_iff] at hlast

theorem Trimmed.map {l : List (Option α)} (hl : l.Trimmed) (f : α → β) :
    (l.map (Option.map f)).Trimmed := by
  intro h
  rw [getLast_map, Option.isSome_map]
  exact hl _

theorem join_getElem?_map (l : List (Option α)) (f : α → β) (i : Nat) :
    (l.map (Option.map f))[i]?.join = l[i]?.join.map f := by
  rw [getElem?_map]
  cases l[i]? <;> rfl

/-- Leaving out empty slots at the end changes no slot. -/
theorem join_getElem?_rdropWhile (l : List (Option α)) (i : Nat) :
    (l.rdropWhile Option.isNone)[i]?.join = l[i]?.join := by
  induction l using List.reverseRecOn with
  | nil => rfl
  | append_singleton l a ih =>
    rw [rdropWhile_concat]
    split
    · rename_i ha
      obtain rfl := Option.isNone_iff_eq_none.1 ha
      rw [ih]
      by_cases hi : i < l.length
      · rw [getElem?_append_left hi]
      · rw [getElem?_append_right (not_lt.1 hi), getElem?_eq_none (not_lt.1 hi)]
        cases i - l.length <;> rfl
    · rfl

/-- The last slot with a value is one of the other list, too. -/
theorem Trimmed.length_le {l l' : List (Option α)} (hl : l.Trimmed)
    (h : ∀ i : Nat, l[i]?.join = l'[i]?.join) : l.length ≤ l'.length := by
  rcases eq_or_ne l [] with rfl | hne
  · exact Nat.zero_le _
  · obtain ⟨a, ha⟩ := Option.isSome_iff_exists.1 (hl hne)
    have hlast : l[l.length - 1]? = some (some a) := by
      rw [← getLast?_eq_getElem?, getLast?_eq_some_getLast hne, ha]
    have hother := h (l.length - 1)
    rw [hlast] at hother
    by_contra hlt
    rw [getElem?_eq_none (by omega)] at hother
    cases hother

/-- Without empty slots at the end, a list is told by its slots. -/
theorem Trimmed.eq {l l' : List (Option α)} (hl : l.Trimmed) (hl' : l'.Trimmed)
    (h : ∀ i : Nat, l[i]?.join = l'[i]?.join) : l = l' := by
  have hlength : l.length = l'.length :=
    le_antisymm (hl.length_le h) (hl'.length_le fun i => (h i).symm)
  refine ext_getElem hlength fun i hi hi' => ?_
  have hslot := h i
  rwa [getElem?_eq_getElem hi, getElem?_eq_getElem hi', Option.join_some, Option.join_some] at hslot

end List

namespace QuadStore

/-! ## Cells -/

namespace Cell

/-- The number of a cell, if it has one, is that of its term. -/
def Labeled (d : Dictionary) (c : Cell) : Prop :=
  ∀ id, c.id? = some id → d.resolve id = .ok c.datum.term

variable {d : Dictionary} {a b : Cell}

theorem labeled_computed (x : Datum) : (computed x).Labeled d := fun _ h => nomatch h

/-- Numbers tell terms apart as well as the terms do. -/
theorem same_iff (ha : a.Labeled d) (hb : b.Labeled d) :
    a.same b = true ↔ a.datum.term = b.datum.term := by
  unfold same
  split
  · rename_i i j hi hj
    have hai := ha i hi
    have hbj := hb j hj
    rw [beq_iff_eq]
    constructor
    · rintro rfl
      exact Except.ok.inj (hai.symm.trans hbj)
    · intro hterm
      rw [hterm, ← Dictionary.lookup?_eq_some_iff] at hai
      rw [← Dictionary.lookup?_eq_some_iff] at hbj
      exact Option.some.inj (hai.symm.trans hbj)
  · exact beq_iff_eq

theorem same_self (c : Cell) : c.same c = true := by
  unfold same
  split
  · rename_i i j hi hj
    rw [hi] at hj
    exact beq_iff_eq.2 (Option.some.inj hj)
  · exact beq_self_eq_true c.datum.term

/-- The operator `=` is that of the data. -/
theorem equal?_eq (ha : a.Labeled d) (hb : b.Labeled d) : a.equal? b = a.datum.equal? b.datum := by
  unfold equal? Datum.equal?
  have hsame : a.same b = a.datum.same b.datum := by
    rw [Bool.eq_iff_iff, same_iff ha hb]
    exact beq_iff_eq.symm
  cases a.datum.value? with
  | none =>
    dsimp only
    rw [hsame]
  | some v =>
    cases b.datum.value? with
    | none =>
      dsimp only
      rw [hsame]
    | some w => rfl

end Cell

namespace Tuple

variable {d : Dictionary} {a b t u : Tuple} {slot i : Nat} {c : Cell} {c? : Option Cell}

/-! ## Slots -/

@[simp]
theorem get?_empty (i : Nat) : empty.get? i = none := rfl

theorem get?_set (t : Tuple) (slot : Nat) (c : Cell) (i : Nat) :
    (t.set slot c).get? i = if i = slot then some c else t.get? i := by
  unfold set get?
  rw [List.getElem?_set]
  by_cases hi : i = slot
  · subst hi
    have hlt : i < (t.cells ++ List.replicate (i + 1 - t.cells.length) none).length := by
      rw [List.length_append, List.length_replicate]
      omega
    rw [if_pos rfl, if_pos rfl, if_pos hlt, Option.join_some]
  · rw [if_neg (Ne.symm hi), if_neg hi]
    by_cases hlt : i < t.cells.length
    · rw [List.getElem?_append_left hlt]
    · rw [List.getElem?_append_right (not_lt.1 hlt), List.getElem?_eq_none (not_lt.1 hlt),
        List.getElem?_replicate]
      split <;> rfl

/-- A tuple has all cells of another one. -/
def Extends (u t : Tuple) : Prop := ∀ i c, t.get? i = some c → u.get? i = some c

theorem Extends.refl (t : Tuple) : t.Extends t := fun _ _ h => h

theorem Extends.trans {s : Tuple} (hsu : s.Extends u) (hut : u.Extends t) : s.Extends t :=
  fun i c h => hsu i c (hut i c h)

theorem extends_set (h : t.get? slot = none) (c : Cell) : (t.set slot c).Extends t := by
  intro i e he
  have hne : i ≠ slot := by
    rintro rfl
    rw [h] at he
    cases he
  rw [get?_set, if_neg hne, he]

/-- Every cell of a tuple is labelled. -/
def Labeled (d : Dictionary) (t : Tuple) : Prop := ∀ i c, t.get? i = some c → c.Labeled d

theorem labeled_empty : empty.Labeled d := fun _ _ h => nomatch h

theorem Labeled.set (h : t.Labeled d) (hc : c.Labeled d) (slot : Nat) :
    (t.set slot c).Labeled d := by
  intro i e he
  rw [get?_set] at he
  split at he
  · exact Option.some.inj he ▸ hc
  · exact h i e he

/-! ## Equality and hashes -/

/-- The terms of the slots. -/
def terms (t : Tuple) (i : Nat) : Option Term := (t.get? i).map (·.datum.term)

theorem boundPrefix_eq (t : Tuple) : t.boundPrefix = t.cells.rdropWhile Option.isNone := rfl

theorem trimmed_key (t : Tuple) : t.key.Trimmed := (List.trimmed_rdropWhile _).map _

theorem join_getElem?_key (t : Tuple) (i : Nat) : t.key[i]?.join = t.terms i := by
  unfold key
  rw [List.join_getElem?_map, boundPrefix_eq, List.join_getElem?_rdropWhile]
  rfl

/-- Tuples have the same hash if they have the same terms, however many empty slots they have. -/
theorem key_eq_iff : a.key = b.key ↔ a.terms = b.terms := by
  constructor
  · intro h
    funext i
    rw [← join_getElem?_key, ← join_getElem?_key, h]
  · intro h
    refine List.Trimmed.eq (trimmed_key a) (trimmed_key b) fun i => ?_
    rw [join_getElem?_key, join_getElem?_key, h]

theorem sameSlot_iff {a? b? : Option Cell} (ha : ∀ a, a? = some a → a.Labeled d)
    (hb : ∀ b, b? = some b → b.Labeled d) :
    sameSlot a? b? = true ↔ a?.map (·.datum.term) = b?.map (·.datum.term) := by
  cases a? with
  | none => cases b? <;> simp [sameSlot]
  | some a =>
    cases b? with
    | none => simp [sameSlot]
    | some b => simp [sameSlot, Cell.same_iff (ha a rfl) (hb b rfl)]

theorem isEqv_sameSlot_iff {as bs : List (Option Cell)}
    (ha : ∀ a, some a ∈ as → a.Labeled d) (hb : ∀ b, some b ∈ bs → b.Labeled d) :
    as.isEqv bs sameSlot = true ↔
      as.map (Option.map (·.datum.term)) = bs.map (Option.map (·.datum.term)) := by
  induction as generalizing bs with
  | nil => cases bs <;> simp [List.isEqv]
  | cons a as ih =>
    cases bs with
    | nil => simp [List.isEqv]
    | cons b bs =>
      have hhead : sameSlot a b = true ↔ _ :=
        sameSlot_iff (fun x hx => ha x (hx ▸ List.mem_cons_self))
          (fun x hx => hb x (hx ▸ List.mem_cons_self))
      have htail := ih (fun x hx => ha x (List.mem_cons_of_mem _ hx))
        (fun x hx => hb x (List.mem_cons_of_mem _ hx))
      rw [List.isEqv, Bool.and_eq_true, hhead, htail, List.map_cons, List.map_cons,
        List.cons.injEq]

theorem Labeled.of_mem_boundPrefix (h : t.Labeled d) (hc : some c ∈ t.boundPrefix) :
    c.Labeled d := by
  obtain ⟨i, hi⟩ := List.mem_iff_getElem?.1 hc
  refine h i c ?_
  have hslot := List.join_getElem?_rdropWhile t.cells i
  rw [← boundPrefix_eq, hi, Option.join_some] at hslot
  exact hslot.symm

/-- Tuples are told apart by the terms of their slots. -/
theorem same_iff (ha : a.Labeled d) (hb : b.Labeled d) : a.same b = true ↔ a.terms = b.terms := by
  rw [← key_eq_iff]
  exact isEqv_sameSlot_iff (fun _ => ha.of_mem_boundPrefix) (fun _ => hb.of_mem_boundPrefix)

/-! ## Binding -/

/-- A slot that is empty gets the cell, one that has the same term keeps its own. -/
theorem bindAny?_cases (t : Tuple) (slot : Nat) (c? : Option Cell) :
    (t.bindAny? slot c? = none ∧ ∃ old c, t.get? slot = some old ∧ c? = some c ∧
        old.same c = false) ∨
      ∃ u, t.bindAny? slot c? = some u ∧
        (∀ old c, t.get? slot = some old → c? = some c → old.same c = true) ∧
        ∀ i, u.get? i = if i = slot then (t.get? slot).or c? else t.get? i := by
  cases c? with
  | none =>
    refine .inr ⟨t, rfl, fun _ _ _ h => (nomatch h), fun i => ?_⟩
    split
    · rename_i hi
      rw [hi, Option.or_none]
    · rfl
  | some c =>
    unfold bindAny? bind?
    cases hslot : t.get? slot with
    | none =>
      refine .inr ⟨t.set slot c, rfl, fun _ _ h => (nomatch h), fun i => ?_⟩
      rw [get?_set, Option.none_or]
    | some old =>
      dsimp only
      by_cases hsame : old.same c = true
      · refine .inr ⟨t, if_pos hsame, fun old' c' hold hc => ?_, fun i => ?_⟩
        · rwa [← Option.some.inj hold, ← Option.some.inj hc]
        · split
          · rename_i hi
            rw [hi, hslot, Option.some_or]
          · rfl
      · exact .inl ⟨if_neg hsame, old, c, rfl, rfl, Bool.not_eq_true _ ▸ hsame⟩

theorem get?_of_bindAny? (h : t.bindAny? slot c? = some u) (i : Nat) :
    u.get? i = if i = slot then (t.get? slot).or c? else t.get? i := by
  rcases bindAny?_cases t slot c? with ⟨hnone, -⟩ | ⟨u', hu', -, hget⟩
  · rw [hnone] at h
    cases h
  · rw [h] at hu'
    rw [Option.some.inj hu', hget]

theorem extends_of_bindAny? (h : t.bindAny? slot c? = some u) : u.Extends t := by
  intro i c hc
  rw [get?_of_bindAny? h]
  split
  · rename_i hi
    rw [← hi, hc, Option.some_or]
  · exact hc

/-- A slot takes its own cell without a change. -/
theorem bindAny?_of_get? (h : c? = none ∨ t.get? slot = c?) : t.bindAny? slot c? = some t := by
  cases c? with
  | none => rfl
  | some c =>
    have hslot : t.get? slot = some c := h.resolve_left (by simp)
    unfold bindAny? bind?
    rw [hslot]
    exact if_pos (Cell.same_self c)

end Tuple
end QuadStore
