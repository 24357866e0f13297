import QuadStore.Proofs.Undoing

/-!
# Publishing

What happens to the entries of a store when a transaction ends and when entries are deleted. A
commit puts the new snapshot in the place of the pending stamp; a collection deletes entries that no
snapshot of interest shows. `Store.Keeps` says that a snapshot shows the same entries in the same
order before and after: every step of a transaction keeps all committed snapshots, and a collection
keeps those that are pinned and the latest one.
-/

namespace QuadStore

/-! ## Snapshots that are kept -/

/-- What a reader is shown of an entry. -/
def Entry.face (e : Entry) : EntryId × EncodedQuad × Bool := (e.id, e.quad, e.explicit)

/-- A snapshot shows the same in two stores, the second of which has all terms of the first. -/
structure Store.Keeps (stamp : Nat) (s s' : Store) : Prop where
  dictionary : s.dictionary.Within s'.dictionary
  visible : (s'.at stamp).visible.map Entry.face = (s.at stamp).visible.map Entry.face

namespace Store.Keeps

variable {stamp : Nat} {a b c : Store}

theorem refl (stamp : Nat) (s : Store) : Keeps stamp s s := ⟨.refl _, rfl⟩

theorem trans (hab : Keeps stamp a b) (hbc : Keeps stamp b c) : Keeps stamp a c :=
  ⟨hab.dictionary.trans hbc.dictionary, hbc.visible.trans hab.visible⟩

end Store.Keeps

/-- Entries with the same faces stand for the same quads. -/
theorem filterMap_statement?_eq {d d' : Dictionary} (hd : d.Within d') {es es' : List Entry}
    (hfaces : es'.map Entry.face = es.map Entry.face)
    (hknown : ∀ e ∈ es, ∃ q, d.resolveQuad e.quad = .ok q) :
    es'.filterMap d'.statement? = es.filterMap d.statement? := by
  induction es generalizing es' with
  | nil =>
    rw [List.map_nil, List.map_eq_nil_iff] at hfaces
    rw [hfaces]
    rfl
  | cons e rest ih =>
    obtain ⟨e', rest', rfl, hface, hrest⟩ := List.map_eq_cons_iff.1 hfaces
    obtain ⟨-, hquad, hexplicit⟩ : e'.id = e.id ∧ e'.quad = e.quad ∧ e'.explicit = e.explicit := by
      simpa [Entry.face] using hface
    obtain ⟨q, hq⟩ := hknown e List.mem_cons_self
    have hst : d.statement? e = some ⟨q, e.explicit⟩ :=
      Dictionary.statement?_eq_some_iff.2 ⟨hq, rfl⟩
    have hst' : d'.statement? e' = some ⟨q, e.explicit⟩ := by
      refine Dictionary.statement?_eq_some_iff.2 ⟨?_, hexplicit⟩
      rw [hquad]
      exact hd.resolveQuad hq
    rw [List.filterMap_cons_some hst, List.filterMap_cons_some hst',
      ih hrest fun x hx => hknown x (List.mem_cons_of_mem _ hx)]

/-- A snapshot that is kept shows the same quads. -/
theorem Store.Keeps.statements {stamp : Nat} {s s' : Store} (h : Keeps stamp s s')
    (hr : s.Readable) : (s'.at stamp).statements = (s.at stamp).statements :=
  filterMap_statement?_eq h.dictionary h.visible fun e he => hr.known e (View.mem_visible.1 he).1

/-- Changes of stamps that do not concern a snapshot are not seen there. -/
theorem map_face_filter_map {stamp : Nat} {f : Entry → Entry} {es : List Entry}
    (hface : ∀ e, (f e).face = e.face)
    (hvisible : ∀ e ∈ es, (f e).isVisible stamp = e.isVisible stamp) :
    ((es.map f).filter (·.isVisible stamp)).map Entry.face =
      (es.filter (·.isVisible stamp)).map Entry.face := by
  have hfilter : es.filter ((fun e => e.isVisible stamp) ∘ f) = es.filter (·.isVisible stamp) :=
    List.filter_congr hvisible
  rw [List.filter_map, List.map_map, hfilter]
  exact List.map_congr_left fun e _ => hface e

namespace Transaction

variable {t u : Transaction}

/-- Removing an entry is not seen at the snapshots. -/
theorem keeps_stageRemoval (h : t.Sound) {e : Entry} (he : e ∈ t.view.visible) {stamp : Nat}
    (hstamp : stamp ≤ t.store.current) : t.store.Keeps stamp (t.stageRemoval e).store := by
  obtain ⟨hmem, hvisible⟩ : e ∈ t.store.index.entries ∧ e.isVisible Stamp.pending = true :=
    View.mem_visible.1 he
  have hlaw := h.lawful e hmem
  have hshown := (hlaw.isVisible_pending_iff h.below).1 hvisible
  have hstamps := hlaw.removed_stamps hshown
  have hbelow := h.below
  have hnever := Stamp.pending_lt_never
  rw [stageRemoval_eq h.readable.indexed hmem]
  refine ⟨.refl _, map_face_filter_map ?_ ?_⟩
  · intro x
    split
    · unfold Entry.removed
      split <;> rfl
    · rfl
  · intro x hx
    show (if x.id = e.id then x.removed else x).isVisible stamp = x.isVisible stamp
    split
    · rename_i hid
      rw [h.readable.indexed.eq_of_id_eq hx hmem hid, Bool.eq_iff_iff, Entry.isVisible_iff,
        Entry.isVisible_iff]
      omega
    · rfl

/-- Inserting an entry is not seen at the snapshots. -/
theorem keeps_stageInsertion (h : t.Sound) (q : EncodedQuad) (explicit : Bool) {stamp : Nat}
    (hstamp : stamp ≤ t.store.current) :
    t.store.Keeps stamp (t.stageInsertion q explicit).store := by
  refine ⟨.refl _, ?_⟩
  have hbelow := h.below
  have hhidden : (t.store.index.inserted q explicit Stamp.pending).isVisible stamp = false := by
    rw [← Bool.not_eq_true, Entry.isVisible_iff]
    show ¬ (Stamp.pending ≤ stamp ∧ _)
    omega
  show ((t.store.index.entries ++ [t.store.index.inserted q explicit Stamp.pending]).filter
    (·.isVisible stamp)).map Entry.face = _
  rw [List.filter_append, List.filter_cons, hhidden]
  simp [View.visible, Store.at]

/-- What does not change during a transaction. -/
theorem Stages.frame (hs : t.Stages u) (h : t.Sound) :
    ∃ dictionary index live, u.store = { t.store with
      dictionary := dictionary, index := index, live := live } := by
  induction hs with
  | refl => exact ⟨t.store.dictionary, t.store.index, t.store.live, rfl⟩
  | @learn u d _ _ ih =>
    obtain ⟨_, index, live, hu⟩ := ih
    exact ⟨d, index, live, by rw [hu]⟩
  | @remove u e hs he ih =>
    obtain ⟨_, _, _, hu⟩ := ih
    have hmem : e ∈ u.store.index.entries := (View.mem_visible.1 he).1
    rw [stageRemoval_eq (hs.sound h).readable.indexed hmem]
    exact ⟨u.store.dictionary, u.store.index.modify e.id Entry.removed,
      u.store.live.erase e.quad, by rw [hu]⟩
  | @insert u q explicit _ _ _ ih =>
    obtain ⟨_, _, _, hu⟩ := ih
    refine ⟨u.store.dictionary, (u.store.index.insert q explicit Stamp.pending).2,
      u.store.live.set q ⟨u.store.index.nextId⟩, ?_⟩
    rw [store_stageInsertion, hu]
  | changeNamespaces _ _ ih => exact ih

/-- Nothing that a transaction does is seen at the snapshots. -/
theorem Stages.keeps (hs : t.Stages u) (h : t.Sound) {stamp : Nat}
    (hstamp : stamp ≤ t.store.current) : t.store.Keeps stamp u.store := by
  induction hs with
  | refl => exact .refl _ _
  | learn _ hd ih => exact ih.trans ⟨hd, rfl⟩
  | @remove u e hs he ih =>
    obtain ⟨_, _, _, hu⟩ := hs.frame h
    exact ih.trans (keeps_stageRemoval (hs.sound h) he (by rw [hu]; exact hstamp))
  | @insert u q explicit hs _ _ ih =>
    obtain ⟨_, _, _, hu⟩ := hs.frame h
    exact ih.trans (keeps_stageInsertion (hs.sound h) q explicit (by rw [hu]; exact hstamp))
  | changeNamespaces _ _ ih => exact ih

end Transaction

/-- What resumes a store shows the same at all its snapshots. -/
theorem Store.Resumes.keeps {s s' : Store} (h : s.Resumes s') {stamp : Nat}
    (hstamp : stamp < Stamp.never) : s.Keeps stamp s' := by
  obtain ⟨more, hentries, -, hmore⟩ := h.entries
  refine ⟨h.dictionary, ?_⟩
  have hnone : more.filter (·.isVisible stamp) = [] := by
    rw [List.filter_eq_nil_iff]
    intro e he hvisible
    have := (hmore e he).1
    rw [Entry.isVisible_iff] at hvisible
    omega
  show (s'.index.entries.filter (·.isVisible stamp)).map Entry.face = _
  rw [hentries, List.filter_append, hnone, List.append_nil]
  rfl

/-! ## Collection -/

/-- A snapshot whose entries are not deleted: the latest one, or a pinned one. -/
def Store.Protects (s : Store) (stamp : Nat) : Prop :=
  stamp = s.current ∨ ∃ p ∈ s.pins.held, p.stamp = stamp

theorem Store.protects_current (s : Store) : s.Protects s.current := .inl rfl

/-- The watermark is not after any pinned snapshot. -/
theorem Pins.watermark_le {pins : Pins} {p : Pin} (hp : p ∈ pins.held) (current : Nat) :
    pins.watermark current ≤ p.stamp := by
  have hmem : p.stamp ∈ pins.held.map (·.stamp) := List.mem_map_of_mem hp
  unfold watermark oldest?
  cases hmin : (pins.held.map (·.stamp)).min? with
  | none =>
    rw [List.min?_eq_none_iff] at hmin
    rw [hmin] at hmem
    simp at hmem
  | some least => exact (List.min?_eq_some_iff.1 hmin).2 _ hmem

namespace Store

variable {s : Store}

/-- What the next transaction will begin with is what the latest snapshot shows. -/
theorem Sound.isVisible_pending_iff (h : s.Sound) {e : Entry} (he : e ∈ s.index.entries) :
    e.isVisible Stamp.pending = true ↔ e.isVisible s.current = true := by
  have hlaw := h.lawful e he
  have hsettled := h.settled he
  have hbelow := h.below
  have hnever := Stamp.pending_lt_never
  rw [hlaw.isVisible_pending_iff hbelow, Entry.isVisible_iff]
  unfold Entry.Lawful at hlaw
  omega

theorem Sound.statements_begin (h : s.Sound) :
    s.begin.view.statements = s.latest.statements := by
  have hvisible : s.begin.view.visible = s.latest.visible := by
    refine List.filter_congr ?_
    intro e he
    rw [Bool.eq_iff_iff]
    exact h.isVisible_pending_iff he
  unfold View.statements
  rw [hvisible]
  rfl

/-- The entries that a collection deletes. -/
def dead (s : Store) : List EntryId := s.garbage.filter s.isUnreachable

theorem Sound.mem_dead_iff (h : s.Sound) {e : Entry} (he : e ∈ s.index.entries) :
    e.id ∈ s.dead ↔
      e.id ∈ s.garbage ∧ (e.since = Stamp.never ∨ e.till ≤ s.pins.watermark s.current) := by
  unfold dead isUnreachable
  rw [List.mem_filter, h.readable.indexed.get?_id he]
  simp [Entry.isAborted]

/-- A dead entry is visible neither at a pinned snapshot nor at the latest one. -/
theorem Sound.isVisible_of_mem_dead (h : s.Sound) {e : Entry} (he : e ∈ s.index.entries)
    (hdead : e.id ∈ s.dead) {stamp : Nat} (hstamp : s.Protects stamp) :
    e.isVisible stamp = false := by
  obtain ⟨hgarbage, hreach⟩ := (h.mem_dead_iff he).1 hdead
  have hbelow := h.below
  have hnever := Stamp.pending_lt_never
  have hwaiting := (h.mem_garbage_iff he).1 hgarbage
  rw [← Bool.not_eq_true, Entry.isVisible_iff]
  rcases hstamp with rfl | ⟨p, hp, rfl⟩
  · omega
  · have hpinned : p.stamp ≤ s.current := h.pinned p hp
    have hmark := Pins.watermark_le hp s.current
    omega

theorem entries_collect (s : Store) :
    s.collect.2.index.entries = s.index.entries.filter fun e => !s.dead.contains e.id := by
  show (if s.dead.isEmpty then s.index else s.index.removeAll s.dead).entries = _
  split
  · rename_i hempty
    rw [List.isEmpty_iff.1 hempty, eq_comm, List.filter_eq_self]
    intro e _
    rfl
  · rfl

theorem mem_entries_collect {e : Entry} :
    e ∈ s.collect.2.index.entries ↔ e ∈ s.index.entries ∧ e.id ∉ s.dead := by
  rw [entries_collect, List.mem_filter]
  simp

/-- Whatever is deleted, the other entries are found. -/
theorem Readable.collect (h : s.Readable) : s.collect.2.Readable := by
  refine ⟨?_, fun e he => h.known e (mem_entries_collect.1 he).1⟩
  show (if s.dead.isEmpty then s.index else s.index.removeAll s.dead).WellFormed
  split
  · exact h.indexed
  · exact h.indexed.removeAll s.dead

/-- What is deleted does not wait any more. -/
theorem mem_garbage_collect {id : EntryId} :
    id ∈ s.collect.2.garbage ↔ id ∈ s.garbage ∧ id ∉ s.dead := by
  show id ∈ s.garbage.filter _ ↔ _
  unfold dead
  rw [List.mem_filter, List.mem_filter, Bool.not_eq_true', not_and, Bool.not_eq_true]
  exact and_congr_right fun hid => ⟨fun h _ => h, fun h => h hid⟩

/-- A collection keeps everything in agreement. -/
theorem Sound.collect (h : s.Sound) : s.collect.2.Sound where
  readable := h.readable.collect
  below := h.below
  pinned := h.pinned
  lawful := fun e he => h.lawful e (mem_entries_collect.1 he).1
  apart := by
    show s.collect.2.index.entries.Pairwise _
    rw [entries_collect]
    exact h.apart.filter _
  live := by
    intro q id
    refine (h.live q id).trans (exists_congr fun e => ?_)
    rw [show e ∈ s.collect.2.begin.store.index.entries ↔ _ from mem_entries_collect, and_assoc]
    refine and_congr_right fun he => ?_
    rw [iff_and_self]
    rintro ⟨-, -, hvisible⟩ hdead
    -- a live entry is visible at the latest snapshot too
    have hcurrent := (h.isVisible_pending_iff he).1 hvisible
    rw [h.isVisible_of_mem_dead he hdead s.protects_current] at hcurrent
    exact Bool.false_ne_true hcurrent
  accounts := by
    intro e he
    obtain ⟨he, hdead⟩ := mem_entries_collect.1 he
    have ⟨hinserted, hremoved, hdiscarded, hwaiting⟩ := h.accounts e he
    refine ⟨hinserted, hremoved, hdiscarded, Iff.trans ?_ hwaiting⟩
    exact mem_garbage_collect.trans (and_iff_left hdead)
  nodupChanges := .nil
  nodupGarbage := h.nodupGarbage.filter _
  changed := by simp [begin]
  garbage := by
    intro id hid
    obtain ⟨hid, hdead⟩ := mem_garbage_collect.1 hid
    obtain ⟨e, he, rfl⟩ := h.garbage id hid
    exact ⟨e, mem_entries_collect.2 ⟨he, hdead⟩, rfl⟩

/-- A collection is not seen at a pinned snapshot nor at the latest one. -/
theorem Sound.keeps_collect (h : s.Sound) {stamp : Nat} (hstamp : s.Protects stamp) :
    s.Keeps stamp s.collect.2 := by
  refine ⟨.refl _, ?_⟩
  show (s.collect.2.index.entries.filter (·.isVisible stamp)).map Entry.face =
    (s.index.entries.filter (·.isVisible stamp)).map Entry.face
  rw [entries_collect, List.filter_filter]
  congr 1
  refine List.filter_congr ?_
  intro e he
  by_cases hdead : e.id ∈ s.dead
  · rw [h.isVisible_of_mem_dead he hdead hstamp]
    rfl
  · simp [hdead]

theorem Sound.collectIfAsked (h : s.Sound) : s.collectIfAsked.Sound := by
  unfold Store.collectIfAsked
  split
  · exact h.collect
  · exact h

theorem Sound.keeps_collectIfAsked (h : s.Sound) {stamp : Nat} (hstamp : s.Protects stamp) :
    s.Keeps stamp s.collectIfAsked := by
  unfold Store.collectIfAsked
  split
  · exact h.keeps_collect hstamp
  · exact .refl _ _

/-- What a collection leaves alone. -/
theorem frame_collectIfAsked (s : Store) :
    ∃ index garbage, s.collectIfAsked = { s with index := index, garbage := garbage } := by
  unfold Store.collectIfAsked
  split
  · exact ⟨_, _, rfl⟩
  · exact ⟨s.index, s.garbage, rfl⟩

end Store

/-! ## Commits -/

/-- The entry with a snapshot in the place of the pending stamp. -/
def Entry.settled (stamp : Nat) (e : Entry) : Entry :=
  { e with
    since := if e.since = Stamp.pending then stamp else e.since
    till := if e.till = Stamp.pending then stamp else e.till }

/-- What is shown of an entry inside of the transaction is shown of it in the new snapshot, and
nothing changes at the older ones. -/
theorem Entry.Lawful.isVisible_settled {current stamp : Nat} {e : Entry} (h : e.Lawful current)
    (hnew : current < stamp) (hstamp : stamp < Stamp.pending) :
    (e.settled stamp).isVisible stamp = e.isVisible Stamp.pending ∧
      (e.settled stamp).isVisible Stamp.pending = e.isVisible Stamp.pending ∧
        ∀ old ≤ current, (e.settled stamp).isVisible old = e.isVisible old := by
  have hnever := Stamp.pending_lt_never
  unfold Lawful at h
  have hsince : (e.settled stamp).since = if e.since = Stamp.pending then stamp else e.since := rfl
  have htill : (e.settled stamp).till = if e.till = Stamp.pending then stamp else e.till := rfl
  refine ⟨?_, ?_, fun old hold => ?_⟩ <;>
    rw [Bool.eq_iff_iff, isVisible_iff, isVisible_iff, hsince, htill] <;>
      split <;> split <;> omega

theorem Entry.Lawful.settled {current stamp : Nat} {e : Entry} (h : e.Lawful current)
    (hnew : current < stamp) (hstamp : stamp < Stamp.pending) : (e.settled stamp).Lawful stamp := by
  have hnever := Stamp.pending_lt_never
  unfold Lawful Entry.settled at *
  dsimp only
  split <;> split <;> omega

theorem Entry.Apart.settled {current stamp : Nat} {a b : Entry} (hab : a.Apart b)
    (ha : a.Lawful current) (hb : b.Lawful current) (hnew : current < stamp)
    (hstamp : stamp < Stamp.pending) : (a.settled stamp).Apart (b.settled stamp) := by
  intro hq
  have hapart := hab hq
  have hnever := Stamp.pending_lt_never
  unfold Lawful at ha hb
  unfold Entry.settled
  dsimp only
  split <;> split <;> split <;> omega

/-- The entry that waits to be deleted after a change is made part of a snapshot. -/
def Change.retired? : Change → Option EntryId
  | insert _ => none
  | remove id => some id
  | discard id => some id

namespace Transaction

variable {t : Transaction}

/-- The entry after some changes have been made part of a snapshot. -/
def settledBy (stamp : Nat) (changes : List Change) (e : Entry) : Entry :=
  { e with
    since := if .insert e.id ∈ changes ∧ e.since = Stamp.pending then stamp else e.since
    till := if .remove e.id ∈ changes then stamp else e.till }

/-- Entries without an insertion or a removal among the changes stay as they are. -/
theorem map_settledBy_eq {changes : List Change} (hinsert : ∀ id, .insert id ∉ changes)
    (hremove : ∀ id, .remove id ∉ changes) (stamp : Nat) (es : List Entry) :
    es.map (settledBy stamp changes) = es := by
  refine (List.map_congr_left fun e _ => ?_).trans (List.map_id _)
  simp [settledBy, hinsert, hremove]

/-- One change is made part of a snapshot in the entry that it is about. -/
theorem settle_eq (stamp : Nat) (s : Store) (c : Change) :
    settle stamp s c = { s with
      index := { s.index with entries := s.index.entries.map (settledBy stamp [c]) }
      garbage := s.garbage ++ c.retired?.toList } := by
  obtain ⟨d, ⟨entries, occurrences, nextId⟩, current, pins, live, garbage, namespaces, journal?,
    options⟩ := s
  cases c with
  | insert id =>
    simp only [settle, Index.modify, Change.retired?, Option.toList_none, List.append_nil,
      Store.mk.injEq, Index.mk.injEq, and_true, true_and]
    refine List.map_congr_left fun e _ => ?_
    obtain ⟨id', quad, explicit, since, till⟩ := e
    grind [settledBy]
  | remove id =>
    simp only [settle, Index.setTill, Index.modify, Change.retired?, Option.toList_some,
      Store.mk.injEq, Index.mk.injEq, and_true, true_and]
    refine List.map_congr_left fun e _ => ?_
    obtain ⟨id', quad, explicit, since, till⟩ := e
    grind [settledBy]
  | discard id =>
    rw [map_settledBy_eq (by simp) (by simp)]
    rfl

/-- Changes are made part of a snapshot all at once. -/
theorem foldl_settle (stamp : Nat) (changes : List Change) (s : Store) :
    changes.foldl (settle stamp) s = { s with
      index := { s.index with entries := s.index.entries.map (settledBy stamp changes) }
      garbage := s.garbage ++ changes.filterMap Change.retired? } := by
  induction changes generalizing s with
  | nil =>
    rw [map_settledBy_eq (by simp) (by simp)]
    simp
  | cons c rest ih =>
    have hentries : settledBy stamp rest ∘ settledBy stamp [c] = settledBy stamp (c :: rest) := by
      funext e
      grind [settledBy]
    rw [List.foldl_cons, ih, settle_eq]
    simp only [List.map_map, hentries, List.append_assoc]
    congr 2
    cases h : c.retired? <;> simp [h]

/-- The store with the changes of a transaction in it, before dead entries are deleted. -/
def settledStore (t : Transaction) (stamp : Nat) : Store :=
  { t.store with
    index := { t.store.index with entries := t.store.index.entries.map (Entry.settled stamp) }
    garbage := t.store.garbage ++ t.changes.filterMap Change.retired?
    namespaces := t.namespaces
    current := stamp }

/-- A commit makes every staged stamp the new snapshot. -/
theorem Sound.publish_eq (h : t.Sound) (stamp : Nat) :
    t.publish stamp = (t.settledStore stamp).collectIfAsked := by
  unfold publish settledStore
  rw [foldl_settle]
  dsimp only
  congr 3
  refine List.map_congr_left ?_
  intro e he
  have haccounts := h.accounts e he
  have hinserted := haccounts.inserted
  have hremoved := haccounts.removed
  unfold settledBy Entry.settled
  grind

theorem faithful_settled (stamp : Nat) : Index.Faithful (Entry.settled stamp) :=
  fun _ => ⟨rfl, rfl⟩

theorem mem_retired_iff (t : Transaction) (id : EntryId) :
    id ∈ t.changes.filterMap Change.retired? ↔
      .remove id ∈ t.changes ∨ .discard id ∈ t.changes := by
  rw [List.mem_filterMap]
  constructor
  · rintro ⟨c, hc, hid⟩
    cases c with
    | insert _ => simp [Change.retired?] at hid
    | remove other => exact .inl (Option.some.inj hid ▸ hc)
    | discard other => exact .inr (Option.some.inj hid ▸ hc)
  · rintro (hc | hc)
    · exact ⟨_, hc, rfl⟩
    · exact ⟨_, hc, rfl⟩

/-- No entry is both removed and taken back. -/
theorem Sound.nodup_retired (h : t.Sound) : (t.changes.filterMap Change.retired?).Nodup := by
  rw [List.Nodup, List.pairwise_filterMap]
  refine h.nodupChanges.imp_of_mem ?_
  intro c d hc hd hcd a ha b hb hab
  subst hab
  have hnever := Stamp.pending_lt_never
  have hboth : .remove a ∈ t.changes ∧ .discard a ∈ t.changes := by
    cases c <;> cases d <;> simp_all [Change.retired?]
  obtain ⟨e, he, hid⟩ := h.changed _ hboth.1
  replace hid : e.id = a := hid
  have haccounts := h.accounts e he
  rw [← hid] at hboth
  have hlaw := h.lawful e he
  have htill := haccounts.removed.1 hboth.1
  have hsince := haccounts.discarded hboth.2
  have hbelow := h.below
  unfold Entry.Lawful at hlaw
  omega

/-- An entry that waits to be deleted is not removed or taken back again. -/
theorem Sound.not_mem_retired (h : t.Sound) {id : EntryId} (hid : id ∈ t.store.garbage) :
    id ∉ t.changes.filterMap Change.retired? := by
  obtain ⟨e, he, rfl⟩ := h.garbage id hid
  obtain ⟨-, hremoved, hdiscarded, hwaiting⟩ := h.accounts e he
  have hnever := Stamp.pending_lt_never
  have hbelow := h.below
  have hlaw := h.lawful e he
  unfold Entry.Lawful at hlaw
  rw [mem_retired_iff, hremoved]
  rw [hwaiting] at hid
  rintro (htill | hdiscard)
  · omega
  · have hsince := hdiscarded hdiscard
    simp only [hdiscard, not_true_eq_false, and_false, or_false] at hid
    omega

/-- After the commit nothing is staged of an entry, and those that were removed or taken back wait
to be deleted. -/
theorem Accounts.settled {e : Entry} (h : t.Accounts e) (hlaw : e.Lawful t.store.current)
    {stamp : Nat} (hnew : t.store.current < stamp) (hstamp : stamp < Stamp.pending) :
    (t.settledStore stamp).begin.Accounts (e.settled stamp) := by
  have hnever := Stamp.pending_lt_never
  unfold Entry.Lawful at hlaw
  refine ⟨?_, ?_, by simp [Store.begin], ?_⟩
  · simp only [Store.begin, List.not_mem_nil, or_false, false_iff, Entry.settled]
    split <;> omega
  · simp only [Store.begin, List.not_mem_nil, false_iff, Entry.settled]
    split <;> omega
  · show e.id ∈ t.store.garbage ++ _ ↔ _
    rw [List.mem_append, mem_retired_iff, h.waiting, h.removed]
    simp only [Store.begin, List.not_mem_nil, not_false_eq_true, and_true, Entry.settled,
      Transaction.settledStore]
    by_cases hdiscard : Change.discard e.id ∈ t.changes
    · have hsince := h.discarded hdiscard
      simp only [hdiscard, or_true, true_iff]
      split <;> split <;> omega
    · simp only [hdiscard, not_false_eq_true, and_true, or_false]
      split <;> split <;> omega

/-- A commit keeps everything in agreement. -/
theorem Sound.settledStore (h : t.Sound) {stamp : Nat} (hnew : t.store.current < stamp)
    (hstamp : stamp < Stamp.pending) : (t.settledStore stamp).Sound := by
  refine ⟨h.readable.mapEntries (faithful_settled stamp) rfl rfl, hstamp, ?pinned, ?lawful, ?apart,
    ?live, ?accounts, .nil, ?nodupGarbage, nofun, ?garbage⟩
  case pinned =>
    intro p hp
    exact Nat.le_of_lt (Nat.lt_of_le_of_lt (h.pinned p hp) hnew)
  case lawful =>
    intro e he
    obtain ⟨old, hold, rfl⟩ := List.mem_map.1 he
    exact (h.lawful old hold).settled hnew hstamp
  case apart =>
    refine List.pairwise_map.2 (h.apart.imp_of_mem ?_)
    intro a b ha hb hab
    exact hab.settled (h.lawful a ha) (h.lawful b hb) hnew hstamp
  case live =>
    intro q id
    refine (h.live q id).trans ?_
    show _ ↔ ∃ e ∈ t.store.index.entries.map _, _
    simp only [List.mem_map, exists_exists_and_eq_and]
    refine exists_congr fun e => and_congr_right fun he => ?_
    rw [((h.lawful e he).isVisible_settled hnew hstamp).2.1]
    rfl
  case accounts =>
    intro e he
    obtain ⟨old, hold, rfl⟩ := List.mem_map.1 he
    exact (h.accounts old hold).settled (h.lawful old hold) hnew hstamp
  case nodupGarbage =>
    refine List.nodup_append.2 ⟨h.nodupGarbage, h.nodup_retired, ?_⟩
    rintro id hid _ hretired rfl
    exact h.not_mem_retired hid hretired
  case garbage =>
    intro id hid
    have hexists : ∃ e ∈ t.store.index.entries, e.id = id := by
      rcases List.mem_append.1 hid with hid | hid
      · exact h.garbage id hid
      · rcases (mem_retired_iff t id).1 hid with hc | hc
        · exact h.changed _ hc
        · exact h.changed _ hc
    obtain ⟨e, he, rfl⟩ := hexists
    exact ⟨_, List.mem_map_of_mem he, rfl⟩

theorem Sound.publish (h : t.Sound) {stamp : Nat} (hnew : t.store.current < stamp)
    (hstamp : stamp < Stamp.pending) : (t.publish stamp).Sound := by
  rw [h.publish_eq]
  exact (h.settledStore hnew hstamp).collectIfAsked

/-- What a commit leaves alone. -/
theorem frame_publish (t : Transaction) (stamp : Nat) :
    ∃ index garbage, t.publish stamp = { t.store with
      index := index, garbage := garbage, namespaces := t.namespaces, current := stamp } := by
  unfold publish
  rw [foldl_settle]
  dsimp only
  obtain ⟨index, garbage, hcollect⟩ := Store.frame_collectIfAsked { t.store with
    index := { t.store.index with entries := t.store.index.entries.map (settledBy stamp t.changes) }
    garbage := t.store.garbage ++ t.changes.filterMap Change.retired?
    namespaces := t.namespaces
    current := stamp }
  exact ⟨index, garbage, hcollect⟩

theorem current_publish (t : Transaction) (stamp : Nat) : (t.publish stamp).current = stamp := by
  obtain ⟨_, _, hpublish⟩ := t.frame_publish stamp
  rw [hpublish]

/-- Where the record cannot be written, the changes are taken back. -/
theorem commit_of_error {e : StoreError}
    (h : t.journalAfter (Stamp.next t.store.current) = .error e) :
    t.commit = (.error e, t.rollback) := by
  unfold commit
  dsimp only
  rw [h]

/-- Else they are part of the next snapshot. -/
theorem commit_of_ok {journal? : Option Bytes}
    (h : t.journalAfter (Stamp.next t.store.current) = .ok journal?) :
    t.commit = (.ok (Stamp.next t.store.current),
      publish { t with store := { t.store with journal? := journal? } }
        (Stamp.next t.store.current)) := by
  unfold commit
  dsimp only
  rw [h]

/-- A commit is not seen at the pinned snapshots. -/
theorem Sound.keeps_publish (h : t.Sound) {stamp : Nat} (hnew : t.store.current < stamp)
    (hstamp : stamp < Stamp.pending) {p : Pin} (hp : p ∈ t.store.pins.held) :
    t.store.Keeps p.stamp (t.publish stamp) := by
  have hold := h.pinned p hp
  have hsettled : t.store.Keeps p.stamp (t.settledStore stamp) :=
    ⟨.refl _, map_face_filter_map (fun _ => rfl) fun e he =>
      ((h.lawful e he).isVisible_settled hnew hstamp).2.2 p.stamp hold⟩
  rw [h.publish_eq]
  exact hsettled.trans ((h.settledStore hnew hstamp).keeps_collectIfAsked (.inr ⟨p, hp, rfl⟩))

/-- The new snapshot shows what the transaction showed. -/
theorem Sound.statements_publish (h : t.Sound) {stamp : Nat} (hnew : t.store.current < stamp)
    (hstamp : stamp < Stamp.pending) :
    ((t.publish stamp).at stamp).statements = t.view.statements := by
  have hfaces : ((t.settledStore stamp).at stamp).visible.map Entry.face =
      t.view.visible.map Entry.face := by
    show ((t.store.index.entries.map (Entry.settled stamp)).filter (·.isVisible stamp)).map
      Entry.face = (t.store.index.entries.filter (·.isVisible Stamp.pending)).map Entry.face
    have hfilter : t.store.index.entries.filter ((·.isVisible stamp) ∘ Entry.settled stamp) =
        t.store.index.entries.filter (·.isVisible Stamp.pending) :=
      List.filter_congr fun e he => ((h.lawful e he).isVisible_settled hnew hstamp).1
    rw [List.filter_map, List.map_map, hfilter]
    rfl
  have hsound := h.settledStore hnew hstamp
  have hkeeps : (t.settledStore stamp).Keeps stamp (t.settledStore stamp).collectIfAsked :=
    hsound.keeps_collectIfAsked (t.settledStore stamp).protects_current
  rw [h.publish_eq, hkeeps.statements hsound.readable]
  exact filterMap_statement?_eq (.refl _) hfaces fun e he =>
    h.readable.known e (View.mem_visible.1 he).1

/-! ## Transactions that can go back -/

/-- A transaction that began with a store: taking everything back leads to the store again, and its
snapshots have not changed. -/
structure Since (s : Store) (t : Transaction) : Prop where
  sound : t.Sound
  base : s.Sound
  resumes : s.Resumes t.unwound
  keeps : ∀ stamp ≤ s.current, s.Keeps stamp t.store

namespace Since

variable {s : Store}

theorem begin (h : s.Sound) : s.begin.Since s := ⟨h, h, .refl s, fun _ _ => .refl _ s⟩

/-- What a transaction has in common with the store that it began with. -/
theorem frame (h : t.Since s) : t.store.current = s.current ∧ t.store.namespaces = s.namespaces ∧
    t.store.journal? = s.journal? ∧ t.store.options = s.options := by
  have hresumes := h.resumes
  unfold unwound at hresumes
  obtain ⟨index, live, garbage, hunwound⟩ := frame_foldl_revert t.changes.reverse t.store
  rw [hunwound] at hresumes
  exact ⟨hresumes.current, hresumes.namespaces, hresumes.journal, hresumes.options⟩

/-- A transaction can go back however it goes on. -/
theorem stages {u : Transaction} (h : t.Since s) (hs : t.Stages u) : u.Since s where
  sound := hs.sound h.sound
  base := h.base
  resumes := h.resumes.trans (hs.resumes h.sound)
  keeps := fun stamp hstamp =>
    (h.keeps stamp hstamp).trans (hs.keeps h.sound (by rw [h.frame.1]; exact hstamp))

/-- Undoing changes does not read the pins. -/
theorem foldl_revert_pins (changes : List Change) (s : Store) (pins : Pins) :
    changes.foldl revert { s with pins := pins } =
      { changes.foldl revert s with pins := pins } := by
  induction changes generalizing s with
  | nil => rfl
  | cons c rest ih =>
    rw [List.foldl_cons, List.foldl_cons, ← ih]
    cases c <;> rfl

/-- Readers may come and go while the transaction is open. -/
theorem pin (h : t.Since s) {pins : Pins} (hpins : ∀ p ∈ pins.held, p.stamp ≤ s.current) :
    Since s { t with store := { t.store with pins := pins } } where
  sound := h.sound.transfer (.refl _) (by rw [h.frame.1]; exact hpins) ⟨rfl, rfl, rfl, rfl⟩ rfl
  base := h.base
  resumes := by
    have hresumes := h.resumes
    unfold unwound at hresumes ⊢
    rw [foldl_revert_pins]
    exact ⟨hresumes.dictionary, hresumes.entries, hresumes.live, hresumes.current,
      hresumes.namespaces, hresumes.journal, hresumes.options⟩
  keeps := fun stamp hstamp => ⟨(h.keeps stamp hstamp).dictionary, (h.keeps stamp hstamp).visible⟩

/-- Before dead entries are deleted, a rollback leads to a store in agreement. -/
theorem sound_unwound (h : t.Since s) : t.unwound.Sound := by
  obtain ⟨index, live, garbage, hframe⟩ := frame_foldl_revert t.changes.reverse t.store
  refine h.resumes.sound h.base (readable_foldl_revert h.sound.readable _) ?_
  unfold unwound
  rw [hframe]
  exact h.sound.pinned

theorem rollback (h : t.Since s) : t.rollback.Sound := h.sound_unwound.collectIfAsked

/-- What a rollback leaves alone. -/
theorem frame_rollback (t : Transaction) : ∃ index live garbage, t.rollback = { t.store with
    index := index, live := live, garbage := garbage } := by
  obtain ⟨index, live, garbage, hframe⟩ := frame_foldl_revert t.changes.reverse t.store
  obtain ⟨index', garbage', hcollect⟩ := t.unwound.frame_collectIfAsked
  refine ⟨index', live, garbage', ?_⟩
  unfold Transaction.rollback
  unfold unwound at hcollect
  rw [hcollect, hframe]

/-- A rollback is not seen at the latest snapshot nor at the pinned ones. -/
theorem keeps_rollback (h : t.Since s) {stamp : Nat} (hstamp : t.store.Protects stamp) :
    t.store.Keeps stamp t.rollback := by
  obtain ⟨index, live, garbage, hframe⟩ := frame_foldl_revert t.changes.reverse t.store
  have hcurrent := h.frame.1
  have hbelow := h.base.below
  have hnever := Stamp.pending_lt_never
  have hle : stamp ≤ s.current := by
    rw [← hcurrent]
    rcases hstamp with rfl | ⟨p, hp, rfl⟩
    · exact Nat.le_refl _
    · exact h.sound.pinned p hp
  have hunwound : t.store.Keeps stamp t.unwound := by
    refine ⟨?_, ?_⟩
    · unfold unwound
      rw [hframe]
      exact .refl _
    · rw [(h.resumes.keeps (by omega)).visible, (h.keeps stamp hle).visible]
  refine hunwound.trans (h.sound_unwound.keeps_collectIfAsked ?_)
  unfold Store.Protects unwound
  rw [hframe]
  exact hstamp

end Since
end Transaction
end QuadStore
