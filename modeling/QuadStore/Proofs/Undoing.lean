import QuadStore.Proofs.Staging

/-!
# Undoing

Taking back the changes of a transaction leads to the store that it began with, and more exactly to
one that resumes it: `Store.Resumes` allows further terms and further entries that have been taken
back and wait to be deleted. Each change is undone on its own, and undoing a change carries over
from a store to one that resumes it, so that the changes of a transaction can be undone one after
the other: `Transaction.Stages.resumes`.
-/

namespace QuadStore

/-- A store that goes on as another one: it has the same entries with the same stamps, and perhaps
more that have been taken back and wait to be deleted. -/
structure Store.Resumes (s s' : Store) : Prop where
  dictionary : s.dictionary.Within s'.dictionary
  entries : ∃ more : List Entry, s'.index.entries = s.index.entries ++ more ∧
    s'.garbage.Perm (s.garbage ++ more.map (·.id)) ∧
      ∀ e ∈ more, e.since = Stamp.never ∧ e.till = Stamp.never
  live : ∀ q, s'.live.get? q = s.live.get? q
  current : s'.current = s.current
  namespaces : s'.namespaces = s.namespaces
  journal : s'.journal? = s.journal?
  options : s'.options = s.options

namespace Store.Resumes

theorem refl (s : Store) : s.Resumes s where
  dictionary := .refl _
  entries := ⟨[], by simp, by simp, by simp⟩
  live := fun _ => rfl
  current := rfl
  namespaces := rfl
  journal := rfl
  options := rfl

theorem trans {a b c : Store} (hab : a.Resumes b) (hbc : b.Resumes c) : a.Resumes c where
  dictionary := hab.dictionary.trans hbc.dictionary
  entries := by
    obtain ⟨more, hentries, hgarbage, hmore⟩ := hab.entries
    obtain ⟨more', hentries', hgarbage', hmore'⟩ := hbc.entries
    refine ⟨more ++ more', ?_, ?_, ?_⟩
    · rw [hentries', hentries, List.append_assoc]
    · rw [List.map_append, ← List.append_assoc]
      exact hgarbage'.trans (hgarbage.append_right _)
    · intro e he
      rcases List.mem_append.1 he with he | he
      · exact hmore e he
      · exact hmore' e he
  live := fun q => (hbc.live q).trans (hab.live q)
  current := hbc.current.trans hab.current
  namespaces := hbc.namespaces.trans hab.namespaces
  journal := hbc.journal.trans hab.journal
  options := hbc.options.trans hab.options

/-- The further entries have further numbers. -/
theorem exists_more {s s' : Store} (h : s.Resumes s') (hw : s'.index.WellFormed) :
    ∃ more : List Entry, s'.index.entries = s.index.entries ++ more ∧
      s'.garbage.Perm (s.garbage ++ more.map (·.id)) ∧
      (∀ e ∈ more, e.since = Stamp.never ∧ e.till = Stamp.never) ∧
      (∀ e ∈ s.index.entries, e.id ∉ more.map (·.id)) ∧ (more.map (·.id)).Nodup := by
  obtain ⟨more, hentries, hgarbage, hmore⟩ := h.entries
  have hnodup := hw.nodup
  rw [hentries, List.map_append, List.nodup_append] at hnodup
  refine ⟨more, hentries, hgarbage, hmore, fun e he hid => ?_, hnodup.2.1⟩
  exact hnodup.2.2 _ (List.mem_map_of_mem he) _ hid rfl

end Store.Resumes

/-! ## Undoing one change -/

namespace Transaction

/-- A change of the stamps of one entry, by which a change is undone. -/
def restored : Change → Entry → Entry
  | .insert _, e => { e with since := Stamp.never }
  | .remove _, e => { e with till := Stamp.never }
  | .discard _, e => { e with since := Stamp.pending }

theorem faithful_restored (c : Change) : Index.Faithful (restored c) := by
  intro e
  cases c <;> exact ⟨rfl, rfl⟩

theorem index_revert (s : Store) (c : Change) :
    (revert s c).index = s.index.modify c.entry (restored c) := by
  cases c <;> rfl

theorem dictionary_revert (s : Store) (c : Change) :
    (revert s c).dictionary = s.dictionary := by
  cases c <;> rfl

theorem garbage_revert (s : Store) (c : Change) :
    (revert s c).garbage = s.garbage ++
      match c with
      | .insert id => [id]
      | _ => [] := by
  cases c <;> simp [revert]

/-- Which quads are live after undoing a change depends on the entry that was changed. -/
theorem get?_live_revert {s s' : Store} {c : Change} (hlive : ∀ q, s'.live.get? q = s.live.get? q)
    (hentry : s'.index.get? c.entry = s.index.get? c.entry) (q : EncodedQuad) :
    (revert s' c).live.get? q = (revert s c).live.get? q := by
  cases c with
  | insert id =>
    replace hentry : s'.index.get? id = s.index.get? id := hentry
    simp only [revert, hentry]
    cases s.index.get? id with
    | none => exact hlive q
    | some e =>
      simp only [hlive e.quad]
      split
      · simp [hlive q]
      · exact hlive q
  | remove id =>
    replace hentry : s'.index.get? id = s.index.get? id := hentry
    simp only [revert, hentry]
    cases s.index.get? id with
    | none => exact hlive q
    | some e => simp [hlive q]
  | discard id =>
    replace hentry : s'.index.get? id = s.index.get? id := hentry
    simp only [revert, hentry]
    cases s.index.get? id with
    | none => exact hlive q
    | some e => simp [hlive q]

/-- A change of an entry that both stores have is undone in both alike. -/
theorem resumes_revert {s s' : Store} (h : s.Resumes s') (hw : s'.index.WellFormed) {c : Change}
    (hc : ∃ e ∈ s.index.entries, e.id = c.entry) : (revert s c).Resumes (revert s' c) := by
  obtain ⟨more, hentries, hgarbage, hmore, hdistinct, -⟩ := h.exists_more hw
  obtain ⟨e, he, hid⟩ := hc
  have hother : ∀ x ∈ more, x.id ≠ c.entry := by
    intro x hx heq
    refine hdistinct e he ?_
    rw [hid, ← heq]
    exact List.mem_map_of_mem hx
  have hget : s'.index.get? c.entry = s.index.get? c.entry := by
    unfold Index.get?
    rw [hentries, List.find?_append]
    have hsome : (s.index.entries.find? (·.id == c.entry)).isSome := by
      rw [List.find?_isSome]
      exact ⟨e, he, by simpa using hid⟩
    obtain ⟨x, hx⟩ := Option.isSome_iff_exists.1 hsome
    rw [hx]
    rfl
  refine ⟨?_, ⟨more, ?_, ?_, hmore⟩, get?_live_revert h.live hget, ?_, ?_, ?_, ?_⟩
  · rw [dictionary_revert, dictionary_revert]
    exact h.dictionary
  · rw [index_revert, index_revert]
    show s'.index.entries.map _ = s.index.entries.map _ ++ more
    rw [hentries, List.map_append]
    congr 1
    refine (List.map_congr_left ?_).trans (List.map_id _)
    intro x hx
    rw [if_neg (hother x hx), id]
  · rw [garbage_revert, garbage_revert]
    cases c <;> simp only [List.append_nil]
    · refine (hgarbage.append_right _).trans ?_
      rw [List.append_assoc, List.append_assoc]
      exact List.perm_append_comm.append_left _
    · exact hgarbage
    · exact hgarbage
  all_goals cases c
  all_goals first
    | exact h.current
    | exact h.namespaces
    | exact h.journal
    | exact h.options

theorem wellFormed_revert {s : Store} (hw : s.index.WellFormed) (c : Change) :
    (revert s c).index.WellFormed := by
  rw [index_revert]
  exact hw.modify _ (faithful_restored c)

/-- Undoing a change keeps the numbers of the entries. -/
theorem map_id_revert (s : Store) (c : Change) :
    (revert s c).index.entries.map (·.id) = s.index.entries.map (·.id) := by
  rw [index_revert]
  show (s.index.entries.map _).map _ = _
  rw [List.map_map]
  refine List.map_congr_left ?_
  intro e _
  exact ((faithful_restored c).changed c.entry e).1

/-- Several changes are undone in two stores alike. -/
theorem resumes_foldl_revert {changes : List Change} {s s' : Store} (h : s.Resumes s')
    (hw : s'.index.WellFormed) (hchanges : ∀ c ∈ changes, ∃ e ∈ s.index.entries, e.id = c.entry) :
    (changes.foldl revert s).Resumes (changes.foldl revert s') := by
  induction changes generalizing s s' with
  | nil => exact h
  | cons c rest ih =>
    refine ih (resumes_revert h hw (hchanges c List.mem_cons_self)) (wellFormed_revert hw c) ?_
    intro d hd
    have hmem := List.mem_map.2 (hchanges d (List.mem_cons_of_mem _ hd))
    rw [← map_id_revert s c] at hmem
    exact List.mem_map.1 hmem

/-! ## Undoing a step -/

variable {t : Transaction}

/-- Taking back an inserted entry leaves the entry among those that wait to be deleted. -/
theorem resumes_stageInsertion (h : t.Sound) {q : EncodedQuad} {explicit : Bool}
    (hfree : t.store.live.get? q = none) :
    t.store.Resumes
      (revert (t.stageInsertion q explicit).store (.insert ⟨t.store.index.nextId⟩)) where
  dictionary := .refl _
  entries := by
    refine ⟨[t.store.index.inserted q explicit Stamp.never], ?_, .refl _, ?_⟩
    · show (t.store.index.entries ++ [_]).map _ = _
      rw [List.map_append]
      congr 1
      · refine (List.map_congr_left ?_).trans (List.map_id _)
        intro x hx
        rw [if_neg (h.id_ne_next hx), id]
      · simp [Index.inserted]
    · intro e he
      rw [List.mem_singleton.1 he]
      exact ⟨rfl, rfl⟩
  live := by
    intro p
    have hget := h.readable.indexed.get?_insert q explicit Stamp.pending ⟨t.store.index.nextId⟩
    rw [if_pos rfl] at hget
    have hindex : (t.stageInsertion q explicit).store.index =
        (t.store.index.insert q explicit Stamp.pending).2 := rfl
    have hlive : (t.stageInsertion q explicit).store.live =
        t.store.live.set q ⟨t.store.index.nextId⟩ := rfl
    simp only [revert, hindex, hget, hlive, Index.inserted, Table.get?_set, ↓reduceIte,
      Table.get?_erase]
    split
    · rename_i hp
      rw [hp, hfree]
    · rfl
  current := rfl
  namespaces := rfl
  journal := rfl
  options := rfl

/-- Undoing a removal gives a shown entry its stamps back. -/
theorem restored_removed {e : Entry} (htill : e.till = Stamp.never) :
    restored (removal e) e.removed = e := by
  obtain ⟨id, quad, explicit, since, till⟩ := e
  unfold removal Entry.removed
  split
  · rename_i hpending
    simp_all [restored]
  · simp_all [restored]

/-- Undoing a removal brings the entry back. -/
theorem resumes_stageRemoval (h : t.Sound) {e : Entry} (he : e ∈ t.view.visible) :
    t.store.Resumes (revert (t.stageRemoval e).store (removal e)) := by
  obtain ⟨hmem, hvisible⟩ : e ∈ t.store.index.entries ∧ e.isVisible Stamp.pending = true :=
    View.mem_visible.1 he
  have hw := h.readable.indexed
  have hshown := ((h.lawful e hmem).isVisible_pending_iff h.below).1 hvisible
  have hlive := (h.live e.quad e.id).2 ⟨e, hmem, rfl, rfl, hvisible⟩
  rw [stageRemoval_eq hw hmem]
  refine
    { dictionary := ?dictionary
      entries := ⟨[], ?entries, ?garbage, by simp⟩
      live := ?live
      current := ?_
      namespaces := ?_
      journal := ?_
      options := ?_ }
  case dictionary =>
    rw [dictionary_revert]
    exact .refl _
  case entries =>
    rw [index_revert, entry_removal, List.append_nil]
    show (t.store.index.entries.map _).map _ = _
    rw [List.map_map]
    refine (List.map_congr_left ?_).trans (List.map_id _)
    intro x hx
    by_cases hid : x.id = e.id
    · rw [Function.comp_apply, if_pos hid, hw.eq_of_id_eq hx hmem hid,
        (Entry.faithful_removed e).1, if_pos rfl, restored_removed hshown.2, id]
    · rw [Function.comp_apply, if_neg hid, if_neg hid, id]
  case garbage =>
    rw [garbage_revert]
    unfold removal
    split <;> simp
  case live =>
    intro q
    have hget : (t.store.index.modify e.id Entry.removed).get? e.id = some e.removed := by
      rw [Index.get?_modify _ _ _ Entry.faithful_removed, hw.get?_id hmem]
      simp
    have hquad := (Entry.faithful_removed e).2
    unfold removal
    split <;>
      simp only [revert, hget, Option.elim_some, hquad, Table.get?_set, Table.get?_erase] <;> split
    · rename_i hq
      rw [hq, hlive]
    · rfl
    · rename_i hq
      rw [hq, hlive]
    · rfl
  -- the rest of the store is the same whichever way the entry was removed
  all_goals
    unfold removal
    split <;> rfl

/-! ## Undoing a transaction -/

/-- The store after all changes are taken back. -/
def unwound (t : Transaction) : Store := t.changes.reverse.foldl revert t.store

theorem changed_reverse (h : t.Sound) :
    ∀ c ∈ t.changes.reverse, ∃ e ∈ t.store.index.entries, e.id = c.entry :=
  fun c hc => h.changed c (List.mem_reverse.1 hc)

/-- If undoing the last change leads back, then undoing all of them does. -/
theorem resumes_unwound (h : t.Sound) {u : Transaction} {c : Change}
    (hchanges : u.changes = t.changes ++ [c]) (hw : u.store.index.WellFormed)
    (hlast : t.store.Resumes (revert u.store c)) : t.unwound.Resumes u.unwound := by
  unfold unwound
  rw [hchanges, List.reverse_append, List.reverse_singleton, List.singleton_append,
    List.foldl_cons]
  exact resumes_foldl_revert hlast (wellFormed_revert hw c) (changed_reverse h)

/-- However a transaction goes on, taking everything back leads to where it came from. -/
theorem Stages.resumes {u : Transaction} (hs : t.Stages u) (h : t.Sound) :
    t.unwound.Resumes u.unwound := by
  induction hs with
  | refl => exact .refl _
  | @learn u d hs hd ih =>
    have hu := hs.sound h
    have hlearn : u.store.Resumes { u.store with dictionary := d } :=
      { Store.Resumes.refl u.store with dictionary := hd }
    exact ih.trans (resumes_foldl_revert hlearn hu.readable.indexed (changed_reverse hu))
  | @remove u e hs he ih =>
    have hu := hs.sound h
    have hchanges : (u.stageRemoval e).changes = u.changes ++ [removal e] := by
      rw [stageRemoval_eq hu.readable.indexed (View.mem_visible.1 he).1]
    exact ih.trans (resumes_unwound hu hchanges (hu.stageRemoval he).readable.indexed
      (resumes_stageRemoval hu he))
  | @insert u q explicit hs hknown hfree ih =>
    have hu := hs.sound h
    exact ih.trans (resumes_unwound hu (changes_stageInsertion u q explicit)
      (hu.stageInsertion hknown hfree explicit).readable.indexed (resumes_stageInsertion hu hfree))
  | changeNamespaces change _ ih => exact ih

/-- Undoing changes is about the entries alone. -/
theorem frame_foldl_revert (changes : List Change) (s : Store) :
    ∃ index live garbage, changes.foldl revert s = { s with
      index := index, live := live, garbage := garbage } := by
  induction changes generalizing s with
  | nil => exact ⟨s.index, s.live, s.garbage, rfl⟩
  | cons c rest ih =>
    obtain ⟨index, live, garbage, hrest⟩ := ih (revert s c)
    refine ⟨index, live, garbage, hrest.trans ?_⟩
    cases c <;> rfl

/-- Undoing changes keeps what each entry stands for. -/
theorem readable_foldl_revert {s : Store} (h : s.Readable) (changes : List Change) :
    (changes.foldl revert s).Readable := by
  induction changes generalizing s with
  | nil => exact h
  | cons c rest ih =>
    exact ih (h.modify c.entry (faithful_restored c) (index_revert s c) (dictionary_revert s c))

end Transaction

namespace Store.Resumes

variable {s s' : Store}

/-- In a store that resumes one in agreement nothing is staged, and the entries that are removed or
taken back wait to be deleted. -/
theorem mem_garbage_iff (h : s.Resumes s') (hs : s.Sound) (hw : s'.index.WellFormed) {e : Entry}
    (he : e ∈ s'.index.entries) :
    e.id ∈ s'.garbage ↔ e.till ≤ s'.current ∨ e.since = Stamp.never := by
  obtain ⟨more, hentries, hgarbage, hmore, hdistinct, -⟩ := h.exists_more hw
  rw [hgarbage.mem_iff, List.mem_append, h.current]
  rw [hentries, List.mem_append] at he
  rcases he with he | he
  · rw [or_iff_left (hdistinct e he)]
    exact hs.mem_garbage_iff he
  · have hid : e.id ∈ more.map (·.id) := List.mem_map_of_mem he
    simp [hid, (hmore e he).1]

theorem settled (h : s.Resumes s') (hs : s.Sound) {e : Entry} (he : e ∈ s'.index.entries) :
    e.since ≠ Stamp.pending ∧ e.till ≠ Stamp.pending := by
  obtain ⟨more, hentries, -, hmore⟩ := h.entries
  rw [hentries, List.mem_append] at he
  rcases he with he | he
  · exact hs.settled he
  · have hnever := Stamp.pending_lt_never
    have htaken := hmore e he
    omega

theorem accounts (h : s.Resumes s') (hs : s.Sound) (hw : s'.index.WellFormed) {e : Entry}
    (he : e ∈ s'.index.entries) : s'.begin.Accounts e where
  inserted := by simp [Store.begin, h.settled hs he]
  removed := by simp [Store.begin, h.settled hs he]
  discarded := by simp [Store.begin]
  waiting := by simpa [Store.begin] using h.mem_garbage_iff hs hw he

/-- What has been taken back is shown at no snapshot. -/
theorem live_iff (h : s.Resumes s') (hs : s.Sound) (q : EncodedQuad) (id : EntryId) :
    s'.live.get? q = some id ↔
      ∃ e ∈ s'.index.entries, e.id = id ∧ e.quad = q ∧ e.isVisible Stamp.pending = true := by
  obtain ⟨more, hentries, -, hmore⟩ := h.entries
  rw [h.live]
  refine (Transaction.Sound.live hs q id).trans ?_
  simp only [hentries, List.mem_append, or_and_right, exists_or]
  rw [or_iff_left]
  · rfl
  · rintro ⟨e, he, -, -, hvisible⟩
    have hnever := Stamp.pending_lt_never
    have htaken := hmore e he
    rw [Entry.isVisible_iff] at hvisible
    omega

/-- What resumes a store in agreement is in agreement. -/
theorem sound (h : s.Resumes s') (hs : s.Sound) (hr : s'.Readable)
    (hpins : ∀ p ∈ s'.pins.held, p.stamp ≤ s'.current) : s'.Sound := by
  obtain ⟨more, hentries, hgarbage, hmore, hdistinct, hnodup⟩ := h.exists_more hr.indexed
  have hsplit : ∀ {e : Entry}, e ∈ s'.begin.store.index.entries →
      e ∈ s.index.entries ∨ e ∈ more := by
    intro e he
    rw [← List.mem_append, ← hentries]
    exact he
  refine ⟨hr, ?below, hpins, ?lawful, ?apart, h.live_iff hs, fun e => h.accounts hs hr.indexed,
    .nil, ?nodupGarbage, nofun, ?garbage⟩
  case below =>
    show s'.current < Stamp.pending
    rw [h.current]
    exact hs.below
  case lawful =>
    intro e he
    show Entry.Lawful s'.current e
    rw [h.current]
    rcases hsplit he with he | he
    · exact hs.lawful e he
    · exact .inl (hmore e he)
  case apart =>
    show s'.index.entries.Pairwise _
    rw [hentries, List.pairwise_append]
    refine ⟨Transaction.Sound.apart hs, ?_, fun a _ b hb _ => .inr (.inl (hmore b hb).1)⟩
    exact List.pairwise_of_forall_mem_list fun a ha b _ _ => .inl (hmore a ha).1
  case nodupGarbage =>
    show s'.garbage.Nodup
    rw [hgarbage.nodup_iff, List.nodup_append]
    refine ⟨Transaction.Sound.nodupGarbage hs, hnodup, ?_⟩
    rintro id hid _ hmem rfl
    obtain ⟨e, he, hid⟩ := Transaction.Sound.garbage hs id hid
    exact hdistinct e he (hid ▸ hmem)
  case garbage =>
    intro id hid
    show ∃ e ∈ s'.index.entries, e.id = id
    replace hid : id ∈ s'.garbage := hid
    rw [hgarbage.mem_iff, List.mem_append] at hid
    rw [hentries]
    rcases hid with hid | hid
    · obtain ⟨e, he, hid⟩ := Transaction.Sound.garbage hs id hid
      exact ⟨e, List.mem_append_left _ he, hid⟩
    · obtain ⟨e, he, hid⟩ := List.mem_map.1 hid
      exact ⟨e, List.mem_append_right _ he, hid⟩

end Store.Resumes
end QuadStore
