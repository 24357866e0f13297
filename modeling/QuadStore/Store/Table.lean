/-!
# Tables

Finite maps as lists of keys with their values, each key once. A key that is set keeps its place,
and a new one comes last.
-/

namespace QuadStore

/-- Keys with their values. -/
structure Table (κ α : Type) where
  entries : List (κ × α)
  /-- Each key stands once. -/
  nodup : (entries.map (·.1)).Nodup
deriving DecidableEq, Repr

namespace Table

variable {κ α : Type} [DecidableEq κ]

/-- No keys. -/
def empty : Table κ α := ⟨[], List.nodup_nil⟩

/-- The value of a key. -/
def get? (t : Table κ α) (k : κ) : Option α := t.entries.lookup k

/-- The number of keys. -/
def size (t : Table κ α) : Nat := t.entries.length

/-- Sets the value of a key among some entries. -/
def setIn (k : κ) (v : α) : List (κ × α) → List (κ × α)
  | [] => [(k, v)]
  | (j, w) :: rest => if j = k then (k, v) :: rest else (j, w) :: setIn k v rest

/-- Setting a key that is there keeps the keys, and a new key comes last. -/
theorem map_fst_setIn (k : κ) (v : α) (entries : List (κ × α)) :
    (setIn k v entries).map (·.1) =
      if k ∈ entries.map (·.1) then entries.map (·.1) else entries.map (·.1) ++ [k] := by
  induction entries with
  | nil => simp [setIn]
  | cons entry rest ih =>
    by_cases h : entry.1 = k
    · simp [setIn, h]
    · have h' : k ≠ entry.1 := fun e => h e.symm
      simp only [setIn, if_neg h, List.map_cons, ih, List.mem_cons, h', false_or]
      split <;> rfl

theorem nodup_setIn (k : κ) (v : α) {entries : List (κ × α)}
    (h : (entries.map (·.1)).Nodup) : ((setIn k v entries).map (·.1)).Nodup := by
  rw [map_fst_setIn]
  split
  · exact h
  · rename_i hk
    rw [List.nodup_append]
    exact ⟨h, by simp, by rintro a ha b hb rfl; simp_all⟩

omit [DecidableEq κ] in
theorem nodup_filter (p : κ × α → Bool) {entries : List (κ × α)}
    (h : (entries.map (·.1)).Nodup) : ((entries.filter p).map (·.1)).Nodup :=
  h.sublist (List.filter_sublist.map _)

omit [DecidableEq κ] in
/-- Keeping the images of some values keeps some of the keys. -/
theorem map_fst_filterMap_sublist {β : Type} (f : α → Option β) (entries : List (κ × α)) :
    ((entries.filterMap fun (k, v) => (f v).map (k, ·)).map (·.1)).Sublist
      (entries.map (·.1)) := by
  induction entries with
  | nil => simp
  | cons entry rest ih =>
    rw [List.filterMap_cons]
    cases h : f entry.2 with
    | none => simpa [h] using ih.cons entry.1
    | some b => simpa [h] using ih.cons_cons entry.1

/-- Sets the value of a key. -/
def set (t : Table κ α) (k : κ) (v : α) : Table κ α :=
  ⟨setIn k v t.entries, nodup_setIn k v t.nodup⟩

/-- Removes a key. -/
def erase (t : Table κ α) (k : κ) : Table κ α :=
  ⟨t.entries.filter (·.1 != k), nodup_filter _ t.nodup⟩

/-- The images of the values that have one, each under its key. -/
def filterMap {β : Type} (t : Table κ α) (f : α → Option β) : Table κ β :=
  ⟨t.entries.filterMap fun (k, v) => (f v).map (k, ·),
    t.nodup.sublist (map_fst_filterMap_sublist f t.entries)⟩

@[simp]
theorem get?_empty (k : κ) : (empty : Table κ α).get? k = none := rfl

/-- Setting a key among some entries changes what is found under this key alone. -/
theorem lookup_setIn (k j : κ) (v : α) (entries : List (κ × α)) :
    (setIn k v entries).lookup j = if j = k then some v else entries.lookup j := by
  induction entries with
  | nil => grind [setIn]
  | cons entry rest ih => grind [setIn]

/-- Leaving out a key among some entries leaves the others. -/
theorem lookup_filter_ne (k j : κ) (entries : List (κ × α)) :
    (entries.filter (·.1 != k)).lookup j = if j = k then none else entries.lookup j := by
  induction entries with
  | nil => simp
  | cons entry rest ih => grind [List.filter]

/-- Setting a key changes the value of this key alone. -/
@[simp]
theorem get?_set (t : Table κ α) (k j : κ) (v : α) :
    (t.set k v).get? j = if j = k then some v else t.get? j :=
  lookup_setIn k j v t.entries

/-- Removing a key leaves the others. -/
@[simp]
theorem get?_erase (t : Table κ α) (k j : κ) :
    (t.erase k).get? j = if j = k then none else t.get? j :=
  lookup_filter_ne k j t.entries

/-- A key is found with a value exactly if the two stand together. -/
theorem get?_eq_some_iff {t : Table κ α} {k : κ} {v : α} :
    t.get? k = some v ↔ (k, v) ∈ t.entries := by
  obtain ⟨entries, nodup⟩ := t
  simp only [get?]
  induction entries with
  | nil => simp
  | cons entry rest ih =>
    obtain ⟨j, w⟩ := entry
    rw [List.map_cons, List.nodup_cons] at nodup
    by_cases h : k = j
    · subst h
      have hk : (k, v) ∉ rest := fun hm => nodup.1 (List.mem_map_of_mem (f := (·.1)) hm)
      simp [hk, eq_comm]
    · have hb : (k == j) = false := by simpa using h
      simp only [List.lookup_cons, hb, List.mem_cons, Prod.mk.injEq, h, false_and, false_or]
      exact ih nodup.2

/-- The image of a table has the images of its values. -/
@[simp]
theorem get?_filterMap {β : Type} (t : Table κ α) (f : α → Option β) (k : κ) :
    (t.filterMap f).get? k = (t.get? k).bind f := by
  ext b
  rw [get?_eq_some_iff, Option.bind_eq_some_iff]
  simp only [filterMap, List.mem_filterMap, Option.map_eq_some_iff, get?_eq_some_iff,
    Prod.mk.injEq]
  constructor
  · rintro ⟨⟨j, v⟩, hm, b', hb, rfl, rfl⟩
    exact ⟨v, hm, hb⟩
  · rintro ⟨v, hm, hb⟩
    exact ⟨(k, v), hm, b, hb, rfl, rfl⟩

end Table
end QuadStore
