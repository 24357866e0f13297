import QuadStore.Proofs.Validity

/-!
# Collection

A collection deletes the entries that no reader can see any more, and all of them. `Store.Collects`
says what this means for one store. Collections are asked for, or are the first part of a compaction
or the last part of a commit or a rollback: `Session.Reachable.collects` says of each of them that
it does so, whatever the session has gone through.
-/

namespace QuadStore

/-- What a collection does to a store in which some snapshots are pinned. -/
structure Store.Collects (s : Store) (pinned : List Nat) : Prop where
  /-- An entry is deleted if it has been taken back, or removed before all pinned snapshots. -/
  deleted : ∀ e ∈ s.index.entries, e ∉ s.collect.2.index.entries ↔
    e.since = Stamp.never ∨ e.till ≤ s.current ∧ ∀ stamp ∈ pinned, e.till ≤ stamp
  /-- The other entries stay as they are. -/
  kept : s.collect.2.index.entries.Sublist s.index.entries
  /-- The answer is how many entries have been deleted. -/
  counted : s.collect.1 + s.collect.2.index.entries.length = s.index.entries.length
  /-- No entry is deleted that is visible at a pinned snapshot or at the latest one. -/
  safe : ∀ e ∈ s.index.entries, ∀ stamp, stamp = s.current ∨ stamp ∈ pinned →
    e.isVisible stamp = true → e ∈ s.collect.2.index.entries
  /-- Every entry is either live or waits to be deleted, each once. -/
  partitioned : (s.index.entries.map (·.id)).Nodup ∧
    (s.index.entries.map (·.id)).Perm (s.live.entries.map (·.2) ++ s.garbage)
  /-- Without readers, the entries that are left are those of the latest snapshot. -/
  complete : pinned = [] →
    s.collect.2.index.entries = s.index.entries.filter (·.isVisible s.current)

/-! ## One store -/

namespace Store.Sound

variable {s : Store}

/-- The watermark is before or at a snapshot exactly if no reader needs anything older. -/
theorem le_watermark_iff (h : s.Sound) {pinned : List Nat}
    (hpinned : ∀ stamp, stamp ∈ pinned ↔ ∃ p ∈ s.pins.held, p.stamp = stamp) {till : Nat}
    (htill : till ≤ s.current ∨ Stamp.pending < till) :
    till ≤ s.pins.watermark s.current ↔
      till ≤ s.current ∧ ∀ stamp ∈ pinned, till ≤ stamp := by
  have hnext := Stamp.next_eq h.below
  have hbelow := h.below
  unfold Pins.watermark Pins.oldest?
  cases hmin : (s.pins.held.map (·.stamp)).min? with
  | none =>
    rw [List.min?_eq_none_iff, List.map_eq_nil_iff] at hmin
    have hnone : ∀ stamp, stamp ∉ pinned := by
      intro stamp hstamp
      obtain ⟨p, hp, -⟩ := (hpinned stamp).1 hstamp
      rw [hmin] at hp
      exact absurd hp List.not_mem_nil
    rw [Option.getD_none, hnext]
    constructor
    · intro hle
      exact ⟨by omega, fun stamp hstamp => absurd hstamp (hnone stamp)⟩
    · rintro ⟨hle, -⟩
      omega
  | some least =>
    obtain ⟨hmem, hleast⟩ := List.min?_eq_some_iff.1 hmin
    obtain ⟨p, hp, rfl⟩ := List.mem_map.1 hmem
    have hcurrent := h.pinned p hp
    rw [Option.getD_some]
    constructor
    · intro hle
      refine ⟨Nat.le_trans hle hcurrent, fun stamp hstamp => ?_⟩
      obtain ⟨p', hp', rfl⟩ := (hpinned stamp).1 hstamp
      exact Nat.le_trans hle (hleast _ (List.mem_map_of_mem hp'))
    · rintro ⟨-, hall⟩
      exact hall _ ((hpinned _).2 ⟨p, hp, rfl⟩)

/-- An entry is dead if it has been taken back, or removed before all pinned snapshots. -/
theorem mem_dead_iff_pinned (h : s.Sound) {pinned : List Nat}
    (hpinned : ∀ stamp, stamp ∈ pinned ↔ ∃ p ∈ s.pins.held, p.stamp = stamp) {e : Entry}
    (he : e ∈ s.index.entries) :
    e.id ∈ s.dead ↔
      e.since = Stamp.never ∨ e.till ≤ s.current ∧ ∀ stamp ∈ pinned, e.till ≤ stamp := by
  have hlaw := h.lawful e he
  have hsettled := h.settled he
  have hbelow := h.below
  have hnever := Stamp.pending_lt_never
  have htill : e.till ≤ s.current ∨ Stamp.pending < e.till := by
    unfold Entry.Lawful at hlaw
    omega
  rw [h.mem_dead_iff he, h.mem_garbage_iff he, h.le_watermark_iff hpinned htill]
  constructor
  · rintro ⟨-, hdead⟩
    exact hdead
  · rintro (haborted | hremoved)
    · exact ⟨.inr haborted, .inl haborted⟩
    · exact ⟨.inl hremoved.1, .inr hremoved⟩

/-- As many entries are deleted as are dead. -/
theorem length_dead (h : s.Sound) :
    s.dead.length + s.collect.2.index.entries.length = s.index.entries.length := by
  have hperm : s.dead.Perm ((s.index.entries.filter fun e => s.dead.contains e.id).map (·.id)) := by
    have hdead : s.dead.Nodup := h.nodupGarbage.filter _
    have hentries : ((s.index.entries.filter fun e => s.dead.contains e.id).map (·.id)).Nodup :=
      h.readable.indexed.nodup.sublist (List.filter_sublist.map _)
    rw [List.perm_ext_iff_of_nodup hdead hentries]
    intro id
    rw [List.mem_map]
    constructor
    · intro hid
      obtain ⟨e, he, rfl⟩ := Transaction.Sound.garbage h id (List.mem_filter.1 hid).1
      exact ⟨e, List.mem_filter.2 ⟨he, List.contains_iff_mem.2 hid⟩, rfl⟩
    · rintro ⟨e, he, rfl⟩
      exact List.contains_iff_mem.1 (List.mem_filter.1 he).2
  rw [hperm.length_eq, List.length_map, entries_collect]
  exact (List.length_eq_length_filter_add _).symm

/-- The entries are the live ones and those that wait to be deleted. -/
theorem perm_ids (h : s.Sound) :
    (s.index.entries.map (·.id)).Perm (s.live.entries.map (·.2) ++ s.garbage) := by
  have hlive : (s.live.entries.map (·.2)).Perm (s.latest.visible.map (·.id)) := by
    have hperm := (Transaction.perm_live h).map (·.2)
    rw [List.map_map] at hperm
    have hvisible : s.begin.view.visible = s.latest.visible :=
      List.filter_congr fun e he => Bool.eq_iff_iff.2 (h.isVisible_pending_iff he)
    rw [hvisible] at hperm
    exact hperm
  have hids := h.readable.indexed.nodup
  have hshown : (s.latest.visible.map (·.id)).Nodup :=
    hids.sublist (List.filter_sublist.map _)
  refine List.Perm.trans ?_ (hlive.symm.append_right _)
  have hbelow := h.below
  have hnever := Stamp.pending_lt_never
  have hwaits : ∀ e ∈ s.index.entries, (e.id ∈ s.garbage ↔ e.isVisible s.current = false) := by
    intro e he
    have hlaw := h.lawful e he
    have hsettled := h.settled he
    rw [h.mem_garbage_iff he, ← Bool.not_eq_true, Entry.isVisible_iff]
    unfold Entry.Lawful at hlaw
    omega
  have hdisjoint : (s.latest.visible.map (·.id) ++ s.garbage).Nodup := by
    rw [List.nodup_append]
    refine ⟨hshown, h.nodupGarbage, ?_⟩
    rintro _ hid _ hgarbage rfl
    obtain ⟨e, he, rfl⟩ := List.mem_map.1 hid
    obtain ⟨he, hvisible⟩ := View.mem_visible.1 he
    have hhidden := (hwaits e he).1 hgarbage
    rw [show e.isVisible s.current = true from hvisible] at hhidden
    exact Bool.false_ne_true hhidden.symm
  -- no number stands twice on either side, so it is enough that the same numbers stand there
  rw [List.perm_ext_iff_of_nodup hids hdisjoint]
  intro id
  rw [List.mem_append, List.mem_map, List.mem_map]
  constructor
  · rintro ⟨e, he, rfl⟩
    cases hvisible : e.isVisible s.current with
    | true => exact .inl ⟨e, View.mem_visible.2 ⟨he, hvisible⟩, rfl⟩
    | false => exact .inr ((hwaits e he).2 hvisible)
  · rintro (⟨e, he, rfl⟩ | hid)
    · exact ⟨e, (View.mem_visible.1 he).1, rfl⟩
    · exact Transaction.Sound.garbage h id hid

/-- A collection of a store in agreement is safe and complete. -/
theorem collects_pinned (h : s.Sound) {pinned : List Nat}
    (hpinned : ∀ stamp, stamp ∈ pinned ↔ ∃ p ∈ s.pins.held, p.stamp = stamp) :
    s.Collects pinned where
  deleted := by
    intro e he
    rw [← h.mem_dead_iff_pinned hpinned he, mem_entries_collect, not_and, not_not]
    exact ⟨fun hdead => hdead he, fun hdead _ => hdead⟩
  kept := by
    rw [entries_collect]
    exact List.filter_sublist
  counted := h.length_dead
  safe := by
    intro e he stamp hstamp hvisible
    have hprotects : s.Protects stamp := hstamp.imp_right (hpinned stamp).1
    refine mem_entries_collect.2 ⟨he, fun hdead => ?_⟩
    rw [h.isVisible_of_mem_dead he hdead hprotects] at hvisible
    exact Bool.false_ne_true hvisible
  partitioned := ⟨h.readable.indexed.nodup, h.perm_ids⟩
  complete := by
    rintro rfl
    rw [entries_collect]
    refine List.filter_congr fun e he => ?_
    have hlaw := h.lawful e he
    have hsettled := h.settled he
    have hbelow := h.below
    have hnever := Stamp.pending_lt_never
    have hdead := h.mem_dead_iff_pinned hpinned he
    rw [Bool.eq_iff_iff, Bool.not_eq_true', ← Bool.not_eq_true, List.contains_iff_mem, hdead,
      Entry.isVisible_iff]
    simp only [List.not_mem_nil, false_implies, implies_true, and_true]
    unfold Entry.Lawful at hlaw
    omega

end Store.Sound

/-! ## Commits and rollbacks -/

namespace Transaction

/-- The transaction in a store that leaves everything to a later collection. -/
def deferring (t : Transaction) : Transaction :=
  { t with store := { t.store with options := { t.store.options with collects := false } } }

/-- The store after a commit, before the collection. -/
def committed (t : Transaction) : Store := { t.deferring.commit.2 with options := t.store.options }

/-- The store after a rollback, before the collection. -/
def rolledBack (t : Transaction) : Store := { t.deferring.rollback with options := t.store.options }

variable {t : Transaction}

theorem foldl_revert_options (changes : List Change) (s : Store) (options : StoreOptions) :
    changes.foldl revert { s with options := options } =
      { changes.foldl revert s with options := options } := by
  induction changes generalizing s with
  | nil => rfl
  | cons c rest ih =>
    rw [List.foldl_cons, List.foldl_cons, ← ih]
    cases c <;> rfl

/-- Before the collection, a rollback has taken all changes back. -/
theorem rolledBack_eq (t : Transaction) : t.rolledBack = t.unwound := by
  obtain ⟨index, live, garbage, hframe⟩ := frame_foldl_revert t.changes.reverse t.store
  have hoptions : t.unwound.options = t.store.options := by
    unfold unwound
    rw [hframe]
  have hdeferring : t.deferring.rollback =
      { t.unwound with options := { t.store.options with collects := false } } := by
    unfold rollback deferring
    rw [foldl_revert_options]
    rfl
  unfold rolledBack
  rw [hdeferring, ← hoptions]

/-- Before the collection, a commit has made all changes part of the new snapshot, or it has taken
them back as they could not be recorded. -/
theorem committed_cases (h : t.Sound) :
    t.commit.2 = t.rollback ∧ t.committed = t.rolledBack ∨
      ∃ journal?, t.commit.2 = Transaction.publish
          { t with store := { t.store with journal? := journal? } } (Stamp.next t.store.current) ∧
        t.committed = settledStore { t with store := { t.store with journal? := journal? } }
          (Stamp.next t.store.current) := by
  have hdeferring : t.deferring.journalAfter (Stamp.next t.deferring.store.current) =
      t.journalAfter (Stamp.next t.store.current) := rfl
  unfold committed rolledBack
  cases hafter : t.journalAfter (Stamp.next t.store.current) with
  | error e =>
    rw [commit_of_error hafter, commit_of_error (hdeferring.trans hafter)]
    exact .inl ⟨rfl, rfl⟩
  | ok journal? =>
    rw [commit_of_ok hafter, commit_of_ok (hdeferring.trans hafter)]
    refine .inr ⟨journal?, rfl, ?_⟩
    have hsound : Transaction.Sound
        { t.deferring with store := { t.deferring.store with journal? := journal? } } :=
      h.transfer (.refl _) h.pinned ⟨rfl, rfl, rfl, rfl⟩ rfl
    rw [hsound.publish_eq]
    rfl

/-- How a transaction ends: the changes are made part of a snapshot or taken back, and then, if the
options ask for it, there is a collection. -/
structure Ends (t : Transaction) (pinned : List Nat) : Prop where
  rollback : t.rollback = t.rolledBack.collectIfAsked
  rolledBack : t.rolledBack.Collects pinned
  commit : t.commit.2 = t.committed.collectIfAsked
  committed : t.committed.current < Stamp.pending → t.committed.Collects pinned

theorem Since.ends {s : Store} (h : t.Since s) {pinned : List Nat}
    (hpinned : ∀ stamp, stamp ∈ pinned ↔ ∃ p ∈ t.store.pins.held, p.stamp = stamp) :
    t.Ends pinned := by
  have hrollback : t.rollback = t.rolledBack.collectIfAsked := by
    rw [rolledBack_eq]
    rfl
  have hrolledBack : t.rolledBack.Collects pinned := by
    obtain ⟨index, live, garbage, hframe⟩ := frame_foldl_revert t.changes.reverse t.store
    have hpins : t.unwound.pins = t.store.pins := by
      unfold unwound
      rw [hframe]
    rw [rolledBack_eq]
    exact h.sound_unwound.collects_pinned (by rw [hpins]; exact hpinned)
  rcases committed_cases h.sound with ⟨hcommit, hcommitted⟩ | ⟨journal?, hcommit, hcommitted⟩
  · refine ⟨hrollback, hrolledBack, ?_, ?_⟩
    · rw [hcommit, hcommitted]
      exact hrollback
    · rw [hcommitted]
      exact fun _ => hrolledBack
  · have hsound := h.sound.withJournal journal?
    refine ⟨hrollback, hrolledBack, ?_, ?_⟩
    · rw [hcommit, hcommitted]
      exact hsound.publish_eq _
    · rw [hcommitted]
      intro hbelow
      exact (hsound.settledStore h.sound.current_lt_next hbelow).collects_pinned hpinned

end Transaction

/-! ## Sessions -/

/-- Every collection that the next step can do: one that is asked for, the one of a compaction and
those at the end of a transaction, be it the open one or one that a step begins itself. -/
def SessionState.Collects (a : SessionState) (pinned : List Nat) : Prop :=
  match a with
  | .closed _ => True
  | .idle s => s.Collects pinned ∧
      s.compact.2 = { s.collect.2 with journal? := s.compact.2.journal? } ∧
      (∀ q, (s.begin.insert q true).2.Ends pinned ∧ (s.begin.remove q true).2.Ends pinned) ∧
      ∀ quads : List Quad, (quads.foldl (fun t q => (t.insert q true).2) s.begin).Ends pinned
  | .writing _ t => t.Ends pinned

namespace Session

/-- The snapshots that are pinned by the readers of a session. -/
def pinned (session : Session) : List Nat :=
  (readers session.snapshots session.cursors).map (·.2)

/-- Whatever has been done to a store, its collections are safe and complete. -/
theorem Reachable.collects {session : Session} (h : session.Reachable) :
    session.state.Collects session.pinned := by
  obtain ⟨hsound, hserves⟩ := h.consistent
  have hpinned : ∀ s, session.state.store? = some s → ∀ stamp,
      stamp ∈ session.pinned ↔ ∃ p ∈ s.pins.held, p.stamp = stamp :=
    fun s hs stamp => ((hserves s hs).exists_stamp_iff stamp).symm
  cases hstate : session.state with
  | closed file => trivial
  | idle s =>
    rw [hstate] at hsound hpinned
    replace hsound : s.Sound := hsound
    have hends : ∀ t : Transaction, s.begin.Stages t → t.Ends session.pinned := by
      intro t ht
      obtain ⟨dictionary, index, live, hstore⟩ := ht.frame hsound
      refine ((Transaction.Since.begin hsound).stages ht).ends ?_
      rw [hstore]
      exact hpinned s rfl
    obtain ⟨journal?, hcompact, -⟩ := s.frame_compact
    refine ⟨hsound.collects_pinned (hpinned s rfl), ?_, fun q => ⟨?_, ?_⟩, fun quads => ?_⟩
    · rw [hcompact]
    · exact hends _ (Transaction.stages_insert hsound q true)
    · exact hends _ (Transaction.stages_remove hsound q true)
    · exact hends _ (stages_insertAll hsound quads)
  | writing w t =>
    rw [hstate] at hsound hpinned
    obtain ⟨base, hsince⟩ := hsound
    exact hsince.ends (hpinned t.store rfl)

/-- A session that leaves collections to be asked for: a quad is removed while a snapshot shows it,
and another one is inserted and removed while none does. -/
def deferred : Session :=
  (start none { collects := false }).2.after [
    .insert ⟨.iri ⟨"s"⟩, ⟨"p"⟩, .iri ⟨"o"⟩, .default⟩,
    .takeSnapshot "first" none,
    .remove ⟨.iri ⟨"s"⟩, ⟨"p"⟩, .iri ⟨"o"⟩, .default⟩,
    .begin .transaction,
    .write .transaction (.insert ⟨.iri ⟨"s"⟩, ⟨"p"⟩, .iri ⟨"s"⟩, .default⟩ true),
    .write .transaction (.remove ⟨.iri ⟨"s"⟩, ⟨"p"⟩, .iri ⟨"s"⟩, .default⟩),
    .commit .transaction]

theorem reachable_deferred : deferred.Reachable := by
  have hsound : (start none { collects := false }).2.state.Sound := Store.sound_empty _
  have hbelow : (start none { collects := false }).2.state.Below := by
    intro n hn
    rw [← Option.some.inj hn]
    decide
  exact (Reachable.start none _ hbelow).after
    (runs_of_length hsound (n := 0) rfl (by simp [Step.keepsOpen]) (by decide))

/-- Of the two entries that wait to be deleted, the one that was never committed is. -/
theorem collects_deferred : deferred.Reachable ∧ deferred.state.Collects deferred.pinned :=
  ⟨reachable_deferred, reachable_deferred.collects⟩

example : deferred.store?.map (fun s => (s.garbage, s.collect.1, s.collect.2.garbage)) =
    some ([⟨0⟩, ⟨1⟩], 1, [⟨0⟩]) := by rfl

/-! ### The reserved number -/

/-- A session that is opened on a journal whose record has the number of staged changes, and takes a
snapshot. -/
def overtaken : Session :=
  (start (some (Store.insertionJournal [255, 255, 255, 255, 255, 255, 255, 254]))
    { collects := false }).2.after [.takeSnapshot "snapshot" none]

/-- The session after the quad of the journal has been removed. -/
def overtakenRemoved : Session :=
  overtaken.after [
    .begin .transaction,
    .write .transaction (.remove ⟨.iri ⟨"s"⟩, ⟨"p"⟩, .iri ⟨"o"⟩, .default⟩),
    .commit .transaction]

/-- At the reserved number, an entry that a pinned snapshot shows is deleted when it is removed by a
later commit, as it is taken for one that was never committed. -/
theorem collect_overtaken :
    overtaken.Holds ⟨0⟩ Stamp.pending ∧ overtakenRemoved.Holds ⟨0⟩ Stamp.pending ∧
      ∃ s s' e, overtaken.state = .idle s ∧ overtakenRemoved.state = .idle s' ∧
        s.index.get? ⟨0⟩ = some e ∧ e.isVisible Stamp.pending = true ∧
        Stamp.pending < s'.current ∧ (s'.index.get? ⟨0⟩).isSome = true ∧
        s'.collect.1 = 1 ∧ s'.collect.2.index.get? ⟨0⟩ = none :=
  ⟨⟨_, rfl, _, List.mem_cons_self, rfl, rfl⟩, ⟨_, rfl, _, List.mem_cons_self, rfl, rfl⟩,
    _, _, _, rfl, rfl, rfl, rfl, by decide, rfl, rfl, rfl⟩

end Session
end QuadStore
