import Mathlib
import QuadStore.Store.Index

/-!
# Look-ups

The entries of an index have numbers in the order of their insertion, and the list of a term in a
role holds the numbers of the entries where the term plays this role. `Index.WellFormed` says so,
and every operation of the index keeps it. Whichever list a look-up reads, what it finds are the
entries looked for, in the order of their insertion: `Index.WellFormed.search_eq`.
-/

namespace QuadStore

/-- The covered quads are those with all parts asked for. -/
theorem EncodedShape.covers_eq_true_iff {shape : EncodedShape} {q : EncodedQuad} :
    shape.covers q = true ↔ ∀ role t, shape.part? role = some t → q.part role = t := by
  have hall : ∀ role, role ∈ Role.all := by intro role; cases role <;> simp [Role.all]
  unfold covers
  rw [List.all_eq_true]
  constructor
  · intro h role t hrole
    have := h role (hall role)
    rw [hrole] at this
    exact (eq_of_beq this).symm
  · intro h role _
    cases hrole : shape.part? role with
    | none => rfl
    | some t => simp [h role t hrole]

namespace Index

/-- The numbers of the entries are in order and below the next one, and the lists of the terms
agree with the entries. -/
structure WellFormed (index : Index) : Prop where
  ordered : index.entries.Pairwise fun a b => a.id.number < b.id.number
  fresh : ∀ e ∈ index.entries, e.id.number < index.nextId
  listed : ∀ role t, index.listOf role t =
    (index.entries.filter fun e => e.quad.part role == t).map (·.id)
  occupied : ∀ role t, index.occurrences.get? (role, t) ≠ some []

theorem wellFormed_empty : empty.WellFormed where
  ordered := .nil
  fresh := by simp [empty]
  listed := by simp [empty, listOf]
  occupied := by simp [empty]

/-! ## Entries by their numbers -/

/-- An entry has the number that it is asked for by. -/
theorem id_of_get? {index : Index} {id : EntryId} {e : Entry} (h : index.get? id = some e) :
    e.id = id :=
  eq_of_beq (List.find?_some (p := fun e : Entry => e.id == id) h)

theorem mem_of_get? {index : Index} {id : EntryId} {e : Entry} (h : index.get? id = some e) :
    e ∈ index.entries :=
  List.mem_of_find?_eq_some h

namespace WellFormed

variable {index : Index}

/-- Two entries with one number are the same. -/
theorem eq_of_id_eq (hw : index.WellFormed) {a b : Entry} (ha : a ∈ index.entries)
    (hb : b ∈ index.entries) (hid : a.id = b.id) : a = b := by
  obtain ⟨i, hi, rfl⟩ := List.getElem_of_mem ha
  obtain ⟨j, hj, rfl⟩ := List.getElem_of_mem hb
  have horder := List.pairwise_iff_getElem.1 hw.ordered
  have hnumber := congrArg EntryId.number hid
  rcases Nat.lt_trichotomy i j with hlt | rfl | hlt
  · have := horder i j hi hj hlt
    omega
  · rfl
  · have := horder j i hj hi hlt
    omega

theorem get?_eq_some_iff (hw : index.WellFormed) {id : EntryId} {e : Entry} :
    index.get? id = some e ↔ e ∈ index.entries ∧ e.id = id := by
  constructor
  · intro h
    exact ⟨mem_of_get? h, id_of_get? h⟩
  · rintro ⟨he, rfl⟩
    cases h : index.get? e.id with
    | none =>
      have := List.find?_eq_none.1 h e he
      simp at this
    | some other =>
      rw [hw.eq_of_id_eq (mem_of_get? h) he (id_of_get? h)]

theorem get?_id (hw : index.WellFormed) {e : Entry} (he : e ∈ index.entries) :
    index.get? e.id = some e :=
  hw.get?_eq_some_iff.2 ⟨he, rfl⟩

/-- Entries are found again by their numbers. -/
theorem filterMap_get? (hw : index.WellFormed) {es : List Entry}
    (hes : ∀ e ∈ es, e ∈ index.entries) : (es.map (·.id)).filterMap index.get? = es := by
  induction es with
  | nil => rfl
  | cons e rest ih =>
    have he := hw.get?_id (hes e List.mem_cons_self)
    rw [List.map_cons, List.filterMap_cons, he]
    simp only [List.cons.injEq, true_and]
    exact ih fun e h => hes e (List.mem_cons_of_mem _ h)

/-- The entries stand once each. -/
theorem nodup (hw : index.WellFormed) : (index.entries.map (·.id)).Nodup := by
  rw [List.Nodup, List.pairwise_map]
  refine hw.ordered.imp ?_
  intro a b hab heq
  rw [heq] at hab
  exact Nat.lt_irrefl _ hab

end WellFormed

/-! ## Insertion -/

/-- Noting an entry in all its roles adds it to the lists of its own terms. -/
theorem get?_note_all (q : EncodedQuad) (id : EntryId)
    (lists : Table (Role × TermId) (List EntryId)) (role : Role) (t : TermId) :
    (Role.all.foldl (note q id) lists).get? (role, t) =
      if q.part role = t then some ((lists.get? (role, t)).getD [] ++ [id])
      else lists.get? (role, t) := by
  by_cases h : q.part role = t
  · subst h
    cases role <;> simp [Role.all, note]
  · have h' : t ≠ q.part role := fun heq => h heq.symm
    rw [if_neg h]
    cases role <;> simp [Role.all, note, h']

variable {index : Index}

/-- The entry that is inserted. -/
def inserted (index : Index) (q : EncodedQuad) (explicit : Bool) (since : Nat) : Entry :=
  ⟨⟨index.nextId⟩, q, explicit, since, Stamp.never⟩

@[simp]
theorem entries_insert (index : Index) (q : EncodedQuad) (explicit : Bool) (since : Nat) :
    (index.insert q explicit since).2.entries =
      index.entries ++ [index.inserted q explicit since] := rfl

theorem WellFormed.insert (hw : index.WellFormed) (q : EncodedQuad) (explicit : Bool)
    (since : Nat) : (index.insert q explicit since).2.WellFormed where
  ordered := by
    rw [entries_insert, List.pairwise_append]
    refine ⟨hw.ordered, by simp, ?_⟩
    intro a ha b hb
    rw [List.mem_singleton.1 hb]
    exact hw.fresh a ha
  fresh := by
    intro e he
    rw [entries_insert] at he
    show e.id.number < index.nextId + 1
    rcases List.mem_append.1 he with he | he
    · have := hw.fresh e he
      omega
    · rw [List.mem_singleton.1 he]
      exact Nat.lt_succ_self _
  listed := by
    intro role t
    have hlists := hw.listed role t
    rw [entries_insert, List.filter_append, List.map_append, ← hlists]
    unfold listOf
    show ((Role.all.foldl (note q ⟨index.nextId⟩) index.occurrences).get? (role, t)).getD [] = _
    rw [get?_note_all]
    by_cases h : q.part role = t <;> simp [h, inserted]
  occupied := by
    intro role t
    show (Role.all.foldl (note q ⟨index.nextId⟩) index.occurrences).get? (role, t) ≠ some []
    rw [get?_note_all]
    split
    · simp
    · exact hw.occupied role t

/-- The inserted entry is found under its number, and the others as before. -/
theorem WellFormed.get?_insert (hw : index.WellFormed) (q : EncodedQuad) (explicit : Bool)
    (since : Nat) (id : EntryId) :
    (index.insert q explicit since).2.get? id =
      if id = ⟨index.nextId⟩ then some (index.inserted q explicit since) else index.get? id := by
  show (index.entries ++ [index.inserted q explicit since]).find? (·.id == id) = _
  rw [List.find?_append]
  by_cases h : id = ⟨index.nextId⟩
  · subst h
    have hnone : index.entries.find? (fun e => e.id == ⟨index.nextId⟩) = none := by
      rw [List.find?_eq_none]
      intro e he heq
      have := hw.fresh e he
      rw [eq_of_beq heq] at this
      exact Nat.lt_irrefl _ this
    rw [hnone]
    simp [inserted]
  · have hne : (index.inserted q explicit since).id ≠ id := fun heq => h heq.symm
    simp [get?, h, hne]

/-! ## Changes of entries -/

/-- A change that keeps the number and the quad of every entry. -/
def Faithful (f : Entry → Entry) : Prop := ∀ e, (f e).id = e.id ∧ (f e).quad = e.quad

theorem faithful_since (s : Nat) : Faithful fun e => { e with since := s } :=
  fun _ => ⟨rfl, rfl⟩

theorem faithful_till (s : Nat) : Faithful fun e => { e with till := s } :=
  fun _ => ⟨rfl, rfl⟩

/-- Changing the entry with some number changes the number of none. -/
theorem Faithful.changed {f : Entry → Entry} (hf : Faithful f) (id : EntryId) :
    Faithful fun e => if e.id = id then f e else e := by
  intro e
  dsimp only
  split
  · exact hf e
  · exact ⟨rfl, rfl⟩

theorem WellFormed.mapEntries (hw : index.WellFormed) {f : Entry → Entry} (hf : Faithful f) :
    WellFormed { index with entries := index.entries.map f } where
  ordered := by
    rw [List.pairwise_map]
    refine hw.ordered.imp ?_
    intro a b hab
    rwa [(hf a).1, (hf b).1]
  fresh := by
    intro e he
    obtain ⟨old, hold, rfl⟩ := List.mem_map.1 he
    rw [(hf old).1]
    exact hw.fresh old hold
  listed := by
    intro role t
    show index.listOf role t = ((index.entries.map f).filter _).map _
    rw [hw.listed, List.filter_map, List.map_map]
    have hquad : ((fun e : Entry => e.quad.part role == t) ∘ f) =
        fun e => e.quad.part role == t := by
      funext e
      rw [Function.comp_apply, (hf e).2]
    have hid : ((fun e : Entry => e.id) ∘ f) = fun e => e.id := by
      funext e
      exact (hf e).1
    rw [hquad, hid]
  occupied := hw.occupied

theorem WellFormed.modify (hw : index.WellFormed) (id : EntryId) {f : Entry → Entry}
    (hf : Faithful f) : (index.modify id f).WellFormed :=
  hw.mapEntries (hf.changed id)

/-- Only the entry with the number changes. -/
theorem get?_modify (index : Index) (id j : EntryId) {f : Entry → Entry} (hf : Faithful f) :
    (index.modify id f).get? j = (index.get? j).map fun e => if e.id = id then f e else e := by
  show (index.entries.map fun e => if e.id = id then f e else e).find? (fun e => e.id == j) = _
  rw [List.find?_map]
  have hid : ((fun e : Entry => e.id == j) ∘ fun e => if e.id = id then f e else e) =
      fun e => e.id == j := by
    funext e
    rw [Function.comp_apply, (hf.changed id e).1]
  rw [hid]
  rfl

/-! ## Deletion -/

/-- Deleting leaves the lists of the terms without the deleted entries. -/
theorem listOf_removeAll (index : Index) (dead : List EntryId) (role : Role) (t : TermId) :
    (index.removeAll dead).listOf role t =
      (index.listOf role t).filter fun id => !dead.contains id := by
  unfold listOf removeAll
  rw [Table.get?_filterMap]
  cases index.occurrences.get? (role, t) with
  | none => rfl
  | some ids =>
    rw [Option.bind_some]
    split
    · rename_i hnil
      exact hnil.symm
    · rfl

theorem WellFormed.removeAll (hw : index.WellFormed) (dead : List EntryId) :
    (index.removeAll dead).WellFormed where
  ordered := hw.ordered.filter _
  fresh := fun e he => hw.fresh e ((List.mem_filter.1 he).1)
  listed := by
    intro role t
    rw [listOf_removeAll, hw.listed, List.filter_map]
    show _ = ((index.entries.filter _).filter _).map _
    rw [List.filter_filter, List.filter_filter]
    congr 2
    funext e
    exact Bool.and_comm _ _
  occupied := by
    intro role t
    show (index.occurrences.filterMap _).get? (role, t) ≠ some []
    rw [Table.get?_filterMap]
    intro h
    obtain ⟨ids, -, hids⟩ := Option.bind_eq_some_iff.1 h
    split at hids
    · simp at hids
    · rename_i hne
      exact hne (Option.some.inj hids)

/-! ## Looking up -/

/-- A list of numbers in which no entry of a shape is missing. -/
def Holds (index : Index) (shape : EncodedShape) (ids : List EntryId) : Prop :=
  ∃ p : Entry → Bool, ids = (index.entries.filter p).map (·.id) ∧
    ∀ e ∈ index.entries, shape.covers e.quad = true → p e = true

/-- The list of a term asked for misses no entry of the shape. -/
theorem WellFormed.holds_listOf (hw : index.WellFormed) {shape : EncodedShape} {role : Role}
    {t : TermId} (hrole : shape.part? role = some t) :
    index.Holds shape (index.listOf role t) := by
  refine ⟨fun e => e.quad.part role == t, hw.listed role t, ?_⟩
  intro e _ hcovers
  have := EncodedShape.covers_eq_true_iff.1 hcovers role t hrole
  simpa using this

/-- However the best list is chosen, it misses no entry of the shape. -/
theorem WellFormed.holds_bestList (hw : index.WellFormed) {shape : EncodedShape}
    {best? : Option (List EntryId)} (hbest : ∀ ids, best? = some ids → index.Holds shape ids)
    {roles : List Role} {ids : List EntryId}
    (h : index.bestList shape best? roles = some ids) : index.Holds shape ids := by
  induction roles generalizing best? with
  | nil => exact hbest ids h
  | cons role rest ih =>
    rw [bestList] at h
    cases hrole : shape.part? role with
    | none =>
      rw [hrole] at h
      exact ih hbest h
    | some t =>
      simp only [hrole] at h
      have hlist := hw.holds_listOf hrole
      unfold listOf at hlist
      cases hids : index.occurrences.get? (role, t) with
      | none =>
        -- the term occurs nowhere, so that no entry is of the shape
        simp only [hids] at h hlist
        rw [← Option.some.inj h]
        exact hlist
      | some found =>
        simp only [hids] at h hlist
        refine ih ?_ h
        intro ids hids
        rw [← Option.some.inj hids]
        unfold shorter
        cases best? with
        | none => exact hlist
        | some best =>
          dsimp only
          split
          · exact hlist
          · exact hbest best rfl

theorem WellFormed.holds_candidates (hw : index.WellFormed) (shape : EncodedShape) :
    index.Holds shape (index.candidates shape) := by
  unfold candidates
  cases h : index.bestList shape none searchOrder with
  | none =>
    refine ⟨fun _ => true, ?_, fun _ _ _ => rfl⟩
    rw [List.filter_eq_self.2 fun _ _ => rfl]
    rfl
  | some ids => exact hw.holds_bestList (by simp) h

/-- Whatever else stands in a list in which no entry of a shape is missing, a look-up that reads it
finds the entries that it is for, in the order of their insertion. -/
theorem WellFormed.found_eq (hw : index.WellFormed) {scan : Scan}
    (hholds : index.Holds scan.shape scan.rest) :
    index.found scan = index.entries.filter scan.accepts := by
  obtain ⟨p, hids, hp⟩ := hholds
  unfold found
  rw [hids, hw.filterMap_get? fun e he => (List.mem_filter.1 he).1, List.filter_filter]
  refine List.filter_congr ?_
  intro e he
  rw [Bool.and_eq_left_iff_imp]
  intro haccepts
  refine hp e he ?_
  simp only [Scan.accepts, Bool.and_eq_true] at haccepts
  exact haccepts.1.2

/-- So does the look-up that reads the list of its choice. -/
theorem WellFormed.search_eq (hw : index.WellFormed) (shape : EncodedShape) (stamp : Nat)
    (inferred : Bool) :
    index.search shape stamp inferred =
      index.entries.filter (index.scan shape stamp inferred).accepts :=
  hw.found_eq (hw.holds_candidates shape)

/-! ## Reading on -/

/-- Reading on gives what is found first, and what is found after it remains to be read. -/
theorem found_eq_nextAmong (index : Index) (scan : Scan) (ids : List EntryId) :
    (ids.filterMap index.get?).filter scan.accepts =
      match index.nextAmong scan ids with
      | none => []
      | some (e, rest) => e :: (rest.filterMap index.get?).filter scan.accepts := by
  induction ids with
  | nil => rfl
  | cons id rest ih =>
    rw [nextAmong, List.filterMap_cons]
    cases index.get? id with
    | none => exact ih
    | some e =>
      dsimp only
      by_cases h : scan.accepts e
      · rw [List.filter_cons_of_pos h, if_pos h]
      · rw [List.filter_cons_of_neg h, if_neg h]
        exact ih

/-- What a look-up finds is its next entry and what it finds afterwards. -/
theorem found_eq_next? (index : Index) (scan : Scan) :
    index.found scan =
      match index.next? scan with
      | none => []
      | some (e, scan) => e :: index.found scan := by
  unfold found next?
  rw [found_eq_nextAmong]
  cases index.nextAmong scan scan.rest <;> rfl

end Index
end QuadStore
