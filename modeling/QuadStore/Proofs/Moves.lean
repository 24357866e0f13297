import QuadStore.Proofs.Writes

/-!
# Moves

What a step of a session can do to the store: readers come and go, a transaction begins, stages
changes and ends, dead entries are deleted and the journal is compacted. `Session.step_does` goes
through the steps once and says what each of them does, other than the reopening of the store. In a
sound session that is a row of moves, perhaps with a commit at its end: `Session.step_goes`. An
invariant of all runs has to be shown for what a step does, or for the moves alone.
-/

namespace QuadStore

/-! ## Pins -/

/-- A pin that is shared is the pin it was, with one reader more. -/
theorem Pins.exists_of_mem_share {pins : Pins} {id : PinId} {p : Pin}
    (h : p ∈ (pins.share id).held) :
    ∃ old ∈ pins.held, p.id = old.id ∧ p.stamp = old.stamp ∧
      p.holders = if old.id = id then old.holders + 1 else old.holders := by
  obtain ⟨old, hold, rfl⟩ := List.mem_map.1 h
  refine ⟨old, hold, ?_⟩
  split <;> exact ⟨rfl, rfl, rfl⟩

/-- A pin that outlasts the release is the pin it was, with one reader less if it was the one that
is released, and then this reader was not the last. -/
theorem Pins.exists_of_mem_release {pins : Pins} {id : PinId} {p : Pin}
    (h : p ∈ (pins.release id).held) :
    ∃ old ∈ pins.held, p.id = old.id ∧ p.stamp = old.stamp ∧
      (old.id = id ∧ 1 < old.holders ∧ p.holders = old.holders - 1 ∨
        old.id ≠ id ∧ p.holders = old.holders) := by
  obtain ⟨old, hold, hnew⟩ := List.mem_filterMap.1 h
  refine ⟨old, hold, ?_⟩
  split at hnew
  · rename_i hid
    split at hnew
    · exact nomatch hnew
    · rename_i hmore
      rw [← Option.some.inj hnew]
      exact ⟨rfl, rfl, .inl ⟨hid, Nat.lt_of_not_le hmore, rfl⟩⟩
  · rename_i hid
    rw [← Option.some.inj hnew]
    exact ⟨rfl, rfl, .inr ⟨hid, rfl⟩⟩

theorem Pins.map_id_release_sublist (pins : Pins) (id : PinId) :
    ((pins.release id).held.map (·.id)).Sublist (pins.held.map (·.id)) := by
  unfold Pins.release
  dsimp only
  induction pins.held with
  | nil => exact .slnil
  | cons p rest ih =>
    rw [List.filterMap_cons]
    split
    · exact ih.cons _
    · rename_i kept hkept
      have hid : kept.id = p.id := by
        split at hkept
        · split at hkept
          · exact nomatch hkept
          · rw [← Option.some.inj hkept]
        · rw [← Option.some.inj hkept]
      rw [List.map_cons, List.map_cons, hid]
      exact ih.cons_cons _

/-- What readers that come and go do to a store. -/
inductive Store.Repins (s : Store) : Store → Prop
  | refl : s.Repins s
  | add {s' : Store} : s.Repins s' → s.Repins s'.snapshot.2
  | share {s' : Store} (id : PinId) : s.Repins s' → s.Repins (s'.share id)
  | release {s' : Store} (id : PinId) : s.Repins s' → s.Repins (s'.release id)

/-- Readers change the pins alone, and pin no snapshot that is not there yet. -/
theorem Store.Repins.frame {s s' : Store} (h : s.Repins s')
    (hpinned : ∀ p ∈ s.pins.held, p.stamp ≤ s.current) :
    ∃ pins, s' = { s with pins := pins } ∧ ∀ p ∈ pins.held, p.stamp ≤ s.current := by
  induction h with
  | refl => exact ⟨s.pins, rfl, hpinned⟩
  | add _ ih =>
    obtain ⟨pins, rfl, hpins⟩ := ih
    refine ⟨(pins.add s.current).2, rfl, ?_⟩
    intro p hp
    rcases List.mem_append.1 hp with hp | hp
    · exact hpins p hp
    · exact Nat.le_of_eq (congrArg Pin.stamp (List.mem_singleton.1 hp))
  | share id _ ih =>
    obtain ⟨pins, rfl, hpins⟩ := ih
    refine ⟨pins.share id, rfl, ?_⟩
    intro p hp
    obtain ⟨old, hold, -, hstamp, -⟩ := Pins.exists_of_mem_share hp
    rw [hstamp]
    exact hpins old hold
  | release id _ ih =>
    obtain ⟨pins, rfl, hpins⟩ := ih
    refine ⟨pins.release id, rfl, ?_⟩
    intro p hp
    obtain ⟨old, hold, -, hstamp, -⟩ := Pins.exists_of_mem_release hp
    rw [hstamp]
    exact hpins old hold

theorem Store.Repins.trans {a b c : Store} (hab : a.Repins b) (hbc : b.Repins c) :
    a.Repins c := by
  induction hbc with
  | refl => exact hab
  | add _ ih => exact .add ih
  | share id _ ih => exact .share id ih
  | release id _ ih => exact .release id ih

/-- Readers change no entry. -/
theorem Store.Repins.readable {s s' : Store} (h : s.Repins s') (hr : s.Readable) :
    s'.Readable := by
  induction h with
  | refl => exact hr
  | add _ ih => exact ⟨ih.indexed, ih.known⟩
  | share id _ ih => exact ⟨ih.indexed, ih.known⟩
  | release id _ ih => exact ⟨ih.indexed, ih.known⟩

/-! ## Moves of a session -/

/-- Whether the store stays open in a step. -/
def Step.keepsOpen : Step → Bool
  | .reopen _ _ => false
  | _ => true

namespace SessionState

/-- Readers come and go, whether or not a transaction is open. -/
inductive Repins : SessionState → SessionState → Prop
  | closed (file : Bytes) : Repins (.closed file) (.closed file)
  | idle {s s' : Store} : s.Repins s' → Repins (.idle s) (.idle s')
  | writing {w : Writer} {t : Transaction} {s' : Store} : t.store.Repins s' →
      Repins (.writing w t) (.writing w { t with store := s' })

theorem Repins.refl (a : SessionState) : a.Repins a := by
  cases a with
  | closed file => exact .closed file
  | idle s => exact .idle .refl
  | writing w t => exact .writing .refl

theorem Repins.trans {a b c : SessionState} (hab : a.Repins b) (hbc : b.Repins c) :
    a.Repins c := by
  cases hab with
  | closed file => exact hbc
  | idle h =>
    cases hbc with
    | idle h' => exact .idle (h.trans h')
  | writing h =>
    cases hbc with
    | writing h' => exact .writing (h.trans h')

/-- A bit of what a step does, other than a commit. -/
inductive Moves : SessionState → SessionState → Prop
  | repin {a b : SessionState} : a.Repins b → Moves a b
  | begin {s : Store} (w : Writer) : Moves (.idle s) (.writing w s.begin)
  | stage {w : Writer} {t u : Transaction} : t.Stages u → Moves (.writing w t) (.writing w u)
  | rollback {w : Writer} {t : Transaction} : Moves (.writing w t) (.idle t.rollback)
  | collect {s : Store} : Moves (.idle s) (.idle s.collect.2)
  | compact {s : Store} : Moves (.idle s) (.idle s.compact.2)

/-- What a step does to a session that stays open. Readers come and go, or nothing happens; a
transaction begins, stages a change or ends; or a store in which none is open is changed at once. A
transaction is rolled back by its writer or because the connection that holds it is dropped. -/
inductive Does : SessionState → Step → SessionState → Prop
  | repin {a b : SessionState} {step : Step} : a.Repins b → Does a step b
  | begin {s : Store} (w : Writer) : Does (.idle s) (.begin w) (.writing w s.begin)
  | stage {w : Writer} {t : Transaction} (change : Write) :
      Does (.writing w t) (.write w change) (.writing w (Session.stage t change).2)
  | commit {w : Writer} {t : Transaction} : Does (.writing w t) (.commit w) (.idle t.commit.2)
  | rollback {w : Writer} {t : Transaction} {step : Step} :
      Does (.writing w t) step (.idle t.rollback)
  | insert {s : Store} (q : Quad) : Does (.idle s) (.insert q) (.idle (s.insert q).2)
  | remove {s : Store} (q : Quad) : Does (.idle s) (.remove q) (.idle (s.remove q).2)
  | extend {s : Store} (quads : List Quad) :
      Does (.idle s) (.extend quads) (.idle (s.extend quads).2)
  | collect {s : Store} : Does (.idle s) .collect (.idle s.collect.2)
  | compact {s : Store} : Does (.idle s) .compact (.idle s.compact.2)

/-- A commit whose record, if there is one, could be written. -/
inductive Commits : SessionState → SessionState → Prop
  | publish {w : Writer} {t : Transaction} {journal? : Option Bytes} :
      t.journalAfter (Stamp.next t.store.current) = .ok journal? →
      Commits (.writing w t) (.idle (Transaction.publish
        { t with store := { t.store with journal? := journal? } } (Stamp.next t.store.current)))

/-- A row of moves. -/
inductive Reaches (a : SessionState) : SessionState → Prop
  | refl : a.Reaches a
  | tail {b c : SessionState} : a.Reaches b → b.Moves c → a.Reaches c

/-- A row of moves, perhaps with a commit at its end. -/
inductive Goes (a : SessionState) : SessionState → Prop
  | quiet {b : SessionState} : a.Reaches b → a.Goes b
  | commit {b c : SessionState} : a.Reaches b → b.Commits c → a.Goes c

theorem Moves.reaches {a b : SessionState} (h : a.Moves b) : a.Reaches b := .tail .refl h

/-- The store of a session, with what is staged in it. -/
def store? : SessionState → Option Store
  | .closed _ => none
  | .idle s => some s
  | .writing _ t => some t.store

theorem Repins.exists_store {a b : SessionState} (h : a.Repins b) {s : Store}
    (hs : a.store? = some s) : ∃ s', b.store? = some s' ∧ s.Repins s' := by
  cases h with
  | closed file => exact absurd hs (Option.some_ne_none _).symm
  | idle h =>
    obtain rfl := Option.some.inj hs
    exact ⟨_, rfl, h⟩
  | writing h =>
    obtain rfl := Option.some.inj hs
    exact ⟨_, rfl, h⟩

/-- The number of the latest snapshot. -/
def number? (a : SessionState) : Option Nat := a.store?.map (·.current)

/-- The number of the latest snapshot is not reserved. -/
def Below (a : SessionState) : Prop := ∀ n, a.number? = some n → n < Stamp.pending

theorem Below.idle {s : Store} (h : (idle s).Below) : s.current < Stamp.pending := h _ rfl

/-- The entries, the live quads and the garbage agree, and an open transaction can go back. -/
def Sound : SessionState → Prop
  | .closed _ => True
  | .idle s => s.Sound
  | .writing _ t => ∃ s, t.Since s

/-- Whether or not a transaction is open, the store is that of a sound transaction. -/
theorem Sound.exists_transaction {a : SessionState} (h : a.Sound) {s : Store}
    (hs : a.store? = some s) : ∃ t : Transaction, t.Sound ∧ t.store = s := by
  cases a with
  | closed file => exact absurd hs (Option.some_ne_none _).symm
  | idle s' => exact ⟨s'.begin, h, Option.some.inj hs⟩
  | writing w t =>
    obtain ⟨base, hsince⟩ := h
    exact ⟨t, hsince.sound, Option.some.inj hs⟩

theorem Sound.readable {a : SessionState} (h : a.Sound) {s : Store} (hs : a.store? = some s) :
    s.Readable := by
  obtain ⟨t, ht, rfl⟩ := h.exists_transaction hs
  exact ht.readable

end SessionState

/-! ## Soundness -/

namespace Store

/-- The pins and the journal have nothing to do with the agreement. -/
theorem Sound.transfer {s s' : Store} (h : s.Sound)
    (hpins : ∀ p ∈ s'.pins.held, p.stamp ≤ s.current) (hdictionary : s'.dictionary = s.dictionary)
    (hstore : s'.index = s.index ∧ s'.live = s.live ∧ s'.garbage = s.garbage ∧
      s'.current = s.current) : s'.Sound :=
  Transaction.Sound.transfer (u := s'.begin) h (by
    show s.dictionary.Within s'.dictionary
    rw [hdictionary]
    exact .refl _) hpins hstore rfl

theorem Sound.repins {s s' : Store} (h : s.Sound) (hs : s.Repins s') : s'.Sound := by
  obtain ⟨pins, rfl, hpins⟩ := hs.frame h.pinned
  exact h.transfer hpins rfl ⟨rfl, rfl, rfl, rfl⟩

/-- A compaction deletes what is dead and replaces the journal, if there is one. -/
theorem frame_compact (s : Store) : ∃ journal?, s.compact.2 =
    { s.collect.2 with journal? := journal? } ∧ journal?.isSome = s.journal?.isSome := by
  unfold compact
  dsimp only
  split
  · exact ⟨s.collect.2.journal?, rfl, rfl⟩
  · rename_i bytes hjournal
    replace hjournal : s.journal? = some bytes := hjournal
    split
    · exact ⟨s.collect.2.journal?, rfl, rfl⟩
    · split
      · exact ⟨_, rfl, by rw [hjournal]; rfl⟩
      · exact ⟨s.collect.2.journal?, rfl, rfl⟩

theorem Sound.compact {s : Store} (h : s.Sound) : s.compact.2.Sound := by
  obtain ⟨journal?, hcompact, -⟩ := s.frame_compact
  rw [hcompact]
  exact h.collect.transfer h.collect.pinned rfl ⟨rfl, rfl, rfl, rfl⟩

end Store

namespace SessionState

/-- Every move keeps the session sound. -/
theorem Moves.sound {a b : SessionState} (hm : a.Moves b) (h : a.Sound) : b.Sound := by
  cases hm with
  | repin hs =>
    cases hs with
    | closed file => exact h
    | idle hs => exact Store.Sound.repins h hs
    | @writing w t s' hs =>
      obtain ⟨base, hsince⟩ := h
      obtain ⟨pins, rfl, hpins⟩ := hs.frame hsince.sound.pinned
      exact ⟨base, hsince.pin (by rw [← hsince.frame.1]; exact hpins)⟩
  | begin w => exact ⟨_, .begin h⟩
  | stage hs =>
    obtain ⟨base, hsince⟩ := h
    exact ⟨base, hsince.stages hs⟩
  | rollback =>
    obtain ⟨base, hsince⟩ := h
    exact hsince.rollback
  | collect => exact Store.Sound.collect h
  | compact => exact Store.Sound.compact h

theorem Reaches.sound {a b : SessionState} (hr : a.Reaches b) (h : a.Sound) : b.Sound := by
  induction hr with
  | refl => exact h
  | tail _ hm ih => exact hm.sound ih

/-- A commit keeps the session sound while the numbers last. -/
theorem Commits.sound {a b : SessionState} (hc : a.Commits b) (h : a.Sound) (hb : b.Below) :
    b.Sound := by
  cases hc with
  | @publish w t journal? hjournal =>
    obtain ⟨base, hsince⟩ := h
    have hbelow := hb.idle
    rw [Transaction.current_publish] at hbelow
    exact (hsince.sound.withJournal journal?).publish hsince.sound.current_lt_next hbelow

theorem Goes.sound {a b : SessionState} (hg : a.Goes b) (h : a.Sound) (hb : b.Below) :
    b.Sound := by
  cases hg with
  | quiet hr => exact hr.sound h
  | commit hr hc => exact hc.sound (hr.sound h) hb

end SessionState

/-! ## Journals -/

namespace SessionState

variable {a b c : SessionState}

/-- The bytes of the journal, if the store is open and has one. -/
def journal? (a : SessionState) : Option Bytes := a.store?.bind (·.journal?)

/-- A row of moves that leaves the journal as it is. -/
structure Drifts (a b : SessionState) : Prop where
  reaches : a.Reaches b
  journal : b.journal? = a.journal?

/-- Such a row of moves, perhaps with a commit at its end. -/
inductive Ends (a : SessionState) : SessionState → Prop
  | quiet {b : SessionState} : a.Drifts b → a.Ends b
  | commit {b c : SessionState} : a.Drifts b → b.Commits c → a.Ends c

theorem Ends.goes (h : a.Ends b) : a.Goes b := by
  cases h with
  | quiet hd => exact .quiet hd.reaches
  | commit hd hc => exact .commit hd.reaches hc

theorem Drifts.refl (a : SessionState) : a.Drifts a := ⟨.refl, rfl⟩

theorem Drifts.tail (h : a.Drifts b) (hm : b.Moves c) (hjournal : c.journal? = b.journal?) :
    a.Drifts c :=
  ⟨.tail h.reaches hm, hjournal.trans h.journal⟩

theorem Drifts.stage {w : Writer} {t u : Transaction} (h : a.Drifts (.writing w t))
    (hsound : t.Sound) (hstages : t.Stages u) : a.Drifts (.writing w u) := by
  obtain ⟨dictionary, index, live, hu⟩ := hstages.frame hsound
  refine h.tail (.stage hstages) ?_
  show u.store.journal? = t.store.journal?
  rw [hu]

theorem Drifts.rollback {w : Writer} {t : Transaction} (h : a.Drifts (.writing w t)) :
    a.Drifts (.idle t.rollback) := by
  obtain ⟨index, live, garbage, hframe⟩ := Transaction.Since.frame_rollback t
  refine h.tail .rollback ?_
  show t.rollback.journal? = t.store.journal?
  rw [hframe]

theorem Repins.drifts (h : a.Repins b) : a.Drifts b := by
  have hstore : ∀ {s s' : Store}, s.Repins s' → s'.journal? = s.journal? := by
    intro s s' hs
    induction hs with
    | refl => rfl
    | add _ ih => exact ih
    | share id _ ih => exact ih
    | release id _ ih => exact ih
  refine (Drifts.refl a).tail (.repin h) ?_
  cases h with
  | closed file => rfl
  | idle hs => exact hstore hs
  | writing hs => exact hstore hs

end SessionState

/-! ## Counting -/

namespace SessionState

/-- Only a commit counts up. -/
theorem Moves.number?_eq {a b : SessionState} (hm : a.Moves b) (h : a.Sound) :
    b.number? = a.number? := by
  cases hm with
  | repin hr =>
    cases hr with
    | closed file => rfl
    | idle hr =>
      obtain ⟨pins, rfl, -⟩ := hr.frame (Store.Sound.pinned h)
      rfl
    | writing hr =>
      obtain ⟨base, hsince⟩ := h
      obtain ⟨pins, rfl, -⟩ := hr.frame hsince.sound.pinned
      rfl
  | begin w => rfl
  | @stage w t u hstages =>
    obtain ⟨base, hsince⟩ := h
    obtain ⟨dictionary, index, live, hu⟩ := hstages.frame hsince.sound
    show some u.store.current = some t.store.current
    rw [hu]
  | @rollback w t =>
    obtain ⟨index, live, garbage, hframe⟩ := Transaction.Since.frame_rollback t
    show some t.rollback.current = some t.store.current
    rw [hframe]
  | collect => rfl
  | @compact s =>
    obtain ⟨journal?, hcompact, -⟩ := s.frame_compact
    show some s.compact.2.current = some s.current
    rw [hcompact]
    rfl

theorem Reaches.number?_eq {a b : SessionState} (hr : a.Reaches b) (h : a.Sound) :
    b.number? = a.number? := by
  induction hr with
  | refl => rfl
  | tail hr hm ih => rw [hm.number?_eq (hr.sound h), ih]

/-- A row of moves with a commit counts up by one, and one without a commit does not. -/
theorem Goes.number?_cases {a b : SessionState} (hg : a.Goes b) (h : a.Sound) :
    b.number? = a.number? ∨ b.number? = a.number?.map (· + 1) := by
  cases hg with
  | quiet hr => exact .inl (hr.number?_eq h)
  | commit hr hc =>
    rw [← hr.number?_eq h]
    cases hc with
    | @publish w t journal? hjournal =>
      obtain ⟨base, hsince⟩ := hr.sound h
      right
      show some (Transaction.publish _ _).current = some (t.store.current + 1)
      rw [Transaction.current_publish, Stamp.next_eq hsince.sound.below]

end SessionState

namespace Session

open SessionState

variable {session : Session}

theorem store?_eq (session : Session) : session.store? = session.state.store? := by
  unfold Session.store? SessionState.store?
  cases session.state <;> rfl

theorem repins_mapStore {f : Store → Store}
    (hf : ∀ s, session.store? = some s → s.Repins (f s)) :
    session.state.Repins (session.mapStore f).state := by
  unfold mapStore
  unfold Session.store? at hf
  cases hstate : session.state with
  | closed file =>
    dsimp only
    rw [hstate]
    exact .closed file
  | idle s => exact .idle (hf s (by rw [hstate]))
  | writing w t => exact .writing (hf t.store (by rw [hstate]))

/-! ### Snapshots and cursors -/

theorem repins_dropSnapshot (name : String) :
    session.state.Repins (session.dropSnapshot name).state := by
  unfold dropSnapshot
  split
  · exact .refl _
  · exact repins_mapStore fun s _ => .release _ .refl

theorem repins_keepSnapshot (name : String) (snapshot : Snapshot) :
    session.state.Repins (session.keepSnapshot name snapshot).2.state :=
  repins_dropSnapshot name

theorem repins_takeSnapshot (name : String) (source? : Option String) :
    session.state.Repins (session.takeSnapshot name source?).2.state := by
  unfold takeSnapshot
  split
  · exact .refl _
  · split
    · exact (repins_mapStore fun s _ => .add .refl).trans (repins_keepSnapshot _ _)
    · split
      · exact .refl _
      · exact (repins_mapStore fun s _ => .share _ .refl).trans (repins_keepSnapshot _ _)

theorem repins_closeQuads (c : QuadCursor) (s : Store) : s.Repins (c.close s).2 := by
  unfold QuadCursor.close
  cases c.pin? with
  | none => exact .refl
  | some pin => exact .release pin .refl

theorem repins_drop (s : Store) (c : OpenCursor) : s.Repins (OpenCursor.drop s c) := by
  cases c with
  | quads c => exact repins_closeQuads c s
  | rows c => exact .release _ .refl

theorem repins_dropCursor (name : String) :
    session.state.Repins (session.dropCursor name).state := by
  unfold dropCursor
  split
  · exact .refl _
  · exact repins_mapStore fun s _ => repins_drop s _

theorem repins_keepCursor (name : String) (c : OpenCursor) :
    session.state.Repins (session.keepCursor name c).2.state :=
  repins_dropCursor name

theorem repins_openQuads (name : String) (q : QuadQuery) (inferred : Bool)
    (snapshot? : Option String) :
    session.state.Repins (session.openQuads name q inferred snapshot?).2.state := by
  unfold openQuads
  split
  · exact .refl _
  · split
    · exact (repins_mapStore fun s _ => .add .refl).trans (repins_keepCursor _ _)
    · split
      · exact .refl _
      · exact (repins_mapStore fun s _ => .share _ .refl).trans (repins_keepCursor _ _)

theorem repins_openRows (name : String) (pattern : GraphPattern) (bindings : BindingSet)
    (inferred : Bool) (source : String) :
    session.state.Repins (session.openRows name pattern bindings inferred source).2.state := by
  unfold openRows
  split
  · exact .refl _
  · split
    · exact .refl _
    · split
      · exact .refl _
      · exact (repins_mapStore fun s _ => .share _ .refl).trans (repins_keepCursor _ _)

theorem repins_pull (s : Store) (c : OpenCursor) : s.Repins (pull s c).2.2 := by
  cases c with
  | quads c =>
    show s.Repins (c.next s).2.2
    unfold QuadCursor.next
    split
    · exact repins_closeQuads c s
    · split
      · exact .refl
      · exact repins_closeQuads c s
  | rows c => exact .refl

theorem repins_pullMany (s : Store) (c : OpenCursor) (count : Nat) :
    s.Repins (pullMany s c count).2.2 := by
  induction count generalizing s c with
  | zero => exact .refl
  | succ n ih => exact (repins_pull s c).trans (ih _ _)

theorem repins_withCursor {name : String} {f : Store → OpenCursor → Answer × OpenCursor × Store}
    (hf : ∀ (s : Store) c, s.Repins (f s c).2.2) :
    session.state.Repins (session.withCursor name f).2.state := by
  unfold withCursor
  split
  · exact .refl _
  · rename_i s hs
    split
    · exact .refl _
    · rename_i c _
      refine repins_mapStore fun s' hs' => ?_
      rw [hs] at hs'
      rw [← Option.some.inj hs']
      exact hf s c

theorem repins_next (name : String) (count : Nat) :
    session.state.Repins (session.next name count).2.state :=
  repins_withCursor fun s c => repins_pullMany s c count

theorem repins_close (name : String) : session.state.Repins (session.close name).2.state := by
  refine repins_withCursor fun s c => ?_
  cases c with
  | quads c => exact repins_closeQuads c s
  | rows c => exact .refl

/-! ### Transactions -/

/-- The end of a transaction is a commit or a rollback. -/
theorem ends_commit {a : SessionState} {w : Writer} {t : Transaction}
    (h : a.Drifts (.writing w t)) : a.Ends (.idle t.commit.2) := by
  cases hjournal : t.journalAfter (Stamp.next t.store.current) with
  | error e =>
    rw [Transaction.commit_of_error hjournal]
    exact .quiet h.rollback
  | ok journal? =>
    rw [Transaction.commit_of_ok hjournal]
    exact .commit h (.publish hjournal)

theorem committing_eq {α : Type} (result : α × Transaction) :
    Store.committing result =
      (result.2.commit.1.map fun _ => result.1, result.2.commit.2) := by
  unfold Store.committing
  split <;> rename_i heq <;> rw [heq] <;> rfl

/-- A step of its own begins a transaction, stages its changes and commits them. -/
theorem ends_committing {α : Type} {s : Store} {result : α × Transaction} (hs : s.Sound)
    (h : s.begin.Stages result.2) :
    SessionState.Ends (.idle s) (.idle (Store.committing result).2) := by
  have hbegun : Drifts (.idle s) (.writing .transaction s.begin) :=
    (Drifts.refl _).tail (.begin _) rfl
  rw [committing_eq]
  exact ends_commit (hbegun.stage hs h)

theorem stages_insertAll {t : Transaction} (h : t.Sound) (quads : List Quad) :
    t.Stages (quads.foldl (fun t q => (t.insert q true).2) t) := by
  induction quads generalizing t with
  | nil => exact .refl
  | cons q rest ih =>
    have hq := Transaction.stages_insert h q true
    exact hq.trans (ih (hq.sound h))

/-! ### What a step does -/

/-- A writer that holds a transaction is the one who writes. -/
theorem transactionOf?_eq_some_iff {w : Writer} {t : Transaction} :
    session.transactionOf? w = some t ↔ session.state = .writing w t := by
  unfold transactionOf?
  split
  · rename_i holder t' hstate
    rw [hstate]
    simp only [Option.ite_none_right_eq_some, Option.some.injEq, SessionState.writing.injEq]
  · rename_i hstate
    simp only [reduceCtorEq, false_iff]
    exact hstate w t

theorem does_withIdle {step : Step} {f : Store → Answer × Store}
    (hf : ∀ s, Does (.idle s) step (.idle (f s).2)) :
    session.state.Does step (session.withIdle f).2.state := by
  unfold withIdle
  split
  · exact .repin (.refl _)
  · exact .repin (.refl _)
  · rename_i s hs
    rw [hs]
    exact hf s

theorem does_withTransaction {step : Step} {w : Writer} {f : Transaction → Answer × SessionState}
    (hf : ∀ t, Does (.writing w t) step (f t).2) :
    session.state.Does step (session.withTransaction w f).2.state := by
  unfold withTransaction
  split
  · exact .repin (.refl _)
  · rename_i t ht
    rw [transactionOf?_eq_some_iff.1 ht]
    exact hf t

theorem does_begin (w : Writer) : session.state.Does (.begin w) (session.begin w).2.state := by
  unfold begin
  split
  · exact .repin (.refl _)
  · rename_i s hs
    rw [hs]
    split
    · exact .begin w
    · rw [hs]
      exact .repin (.refl _)
  · split
    · exact .repin (.refl _)
    · split <;> exact .repin (.refl _)

theorem does_rollback (step : Step) (w : Writer) :
    session.state.Does step (session.rollback w).2.state :=
  does_withTransaction fun _ => .rollback

/-- Where there is no store, nothing is done. -/
theorem keeps_unlessClosed {P : Session → Prop} {a b : Answer} {after : Session} (h : P session)
    (hafter : P after) : P (if session.store?.isNone then (a, session) else (b, after)).2 := by
  split
  · exact h
  · exact hafter

theorem does_unlessClosed {step : Step} {a b : Answer} {after : Session}
    (h : session.state.Does step after.state) :
    session.state.Does step
      (if session.store?.isNone then (a, session) else (b, after)).2.state :=
  keeps_unlessClosed (P := fun s => session.state.Does step s.state) (.repin (.refl _)) h

/-- A step that keeps the store open does one of a few things to it. Whatever holds of all of them
holds of every step: this is the only place where the steps are gone through for the store. -/
theorem step_does (session : Session) {step : Step} (hopen : step.keepsOpen = true) :
    session.state.Does step (session.step step).2.state := by
  cases step with
  | reopen edit options => exact absurd hopen Bool.false_ne_true
  | takeSnapshot name source? => exact .repin (repins_takeSnapshot name source?)
  | dropSnapshot name => exact does_unlessClosed (.repin (repins_dropSnapshot name))
  | connect name => exact does_unlessClosed (does_rollback _ (.connection name))
  | disconnect name => exact does_unlessClosed (does_rollback _ (.connection name))
  | insert q => exact does_withIdle fun _ => .insert q
  | remove q => exact does_withIdle fun _ => .remove q
  | extend quads => exact does_withIdle fun _ => .extend quads
  | collect => exact does_withIdle fun _ => .collect
  | compact => exact does_withIdle fun _ => .compact
  | validate => exact does_withIdle fun _ => .repin (.refl _)
  | begin w => exact does_begin w
  | commit w => exact does_withTransaction fun _ => .commit
  | rollback w => exact does_rollback _ w
  | write w change => exact does_withTransaction fun _ => .stage change
  | openQuads name q inferred snapshot? => exact .repin (repins_openQuads name q inferred snapshot?)
  | openRows name pattern bindings inferred snapshot =>
    exact .repin (repins_openRows name pattern bindings inferred snapshot)
  | next name count => exact .repin (repins_next name count)
  | close name => exact .repin (repins_close name)
  | dropCursor name => exact does_unlessClosed (.repin (repins_dropCursor name))
  | stats | options | file | files | openAgain | latest | read | isActive =>
    exact .repin (.refl _)

/-- What a step does other than a compaction is a row of moves that leaves the journal as it is,
perhaps with a commit at its end. -/
theorem ends_of_does {a b : SessionState} {step : Step} (hd : a.Does step b) (h : a.Sound)
    (hcompact : step ≠ .compact) : a.Ends b := by
  cases hd with
  | repin hr => exact .quiet hr.drifts
  | begin w => exact .quiet ((Drifts.refl _).tail (.begin w) rfl)
  | stage change =>
    obtain ⟨base, hsince⟩ := h
    exact .quiet ((Drifts.refl _).stage hsince.sound (Transaction.stage_eq hsince.sound change).2.2)
  | commit => exact ends_commit (.refl _)
  | rollback => exact .quiet (Drifts.refl _).rollback
  | insert q => exact ends_committing h (Transaction.stages_insert h q true)
  | remove q => exact ends_committing h (Transaction.stages_remove h q true)
  | extend quads =>
    have hstages := stages_insertAll h quads
    exact ends_committing h hstages
  | collect => exact .quiet ((Drifts.refl _).tail .collect rfl)
  | compact => exact absurd rfl hcompact

/-- Whatever is done to a session that stays open, other than a compaction, the store goes through a
row of moves that leaves the journal as it is, perhaps with a commit at its end. -/
theorem step_ends (h : session.state.Sound) {step : Step} (hopen : step.keepsOpen = true)
    (hcompact : step ≠ .compact) : session.state.Ends (session.step step).2.state :=
  ends_of_does (session.step_does hopen) h hcompact

/-- The compaction of a store in which no transaction is open is a move. -/
theorem compact_cases (session : Session) :
    (∃ s, session.state = .idle s ∧ (session.step .compact).2.state = .idle s.compact.2) ∨
      (session.step .compact).2 = session := by
  show (∃ s, session.state = .idle s ∧ (session.withIdle _).2.state = _) ∨
    (session.withIdle _).2 = session
  unfold withIdle
  cases hstate : session.state with
  | closed file => exact .inr rfl
  | idle s => exact .inl ⟨s, rfl, rfl⟩
  | writing w t => exact .inr rfl

/-- Whatever is done to a session that stays open, the store goes through a row of moves, perhaps
with a commit at its end. -/
theorem step_goes (h : session.state.Sound) {step : Step} (hopen : step.keepsOpen = true) :
    session.state.Goes (session.step step).2.state := by
  by_cases hcompact : step = .compact
  · subst hcompact
    rcases session.compact_cases with ⟨s, hs, hafter⟩ | hsame
    · rw [hs, hafter]
      exact .quiet Moves.compact.reaches
    · rw [hsame]
      exact .quiet .refl
  · exact (step_ends h hopen hcompact).goes

/-! ## Runs -/

/-- The session after some steps. -/
def after (session : Session) : List Step → Session
  | [] => session
  | step :: rest => (session.step step).2.after rest

/-- The store is open and stays so, and no reserved number is reached. -/
def Runs (session : Session) : List Step → Prop
  | [] => session.state.Below
  | step :: rest =>
    session.state.Below ∧ step.keepsOpen = true ∧ (session.step step).2.Runs rest

theorem Runs.below {steps : List Step} (h : session.Runs steps) : session.state.Below := by
  cases steps with
  | nil => exact h
  | cons step rest => exact h.1

theorem Runs.below_step {step : Step} {rest : List Step} (h : session.Runs (step :: rest)) :
    (session.step step).2.state.Below :=
  h.2.2.below

/-- No reserved number is reached in a run with fewer steps than there are numbers left. -/
theorem runs_of_length (h : session.state.Sound) {n : Nat} (hn : session.state.number? = some n)
    {steps : List Step} (hopen : ∀ step ∈ steps, step.keepsOpen = true)
    (hlength : n + steps.length < Stamp.pending) : session.Runs steps := by
  have hbelow : ∀ {session : Session} {n : Nat}, session.state.number? = some n →
      n < Stamp.pending → session.state.Below := by
    intro session n hn hlt m hm
    rw [hn] at hm
    rw [← Option.some.inj hm]
    exact hlt
  induction steps generalizing session n with
  | nil => exact hbelow hn hlength
  | cons step rest ih =>
    rw [List.length_cons] at hlength
    have hgoes := step_goes h (hopen step List.mem_cons_self)
    have hnumber : ∃ m ≤ n + 1, (session.step step).2.state.number? = some m := by
      rcases hgoes.number?_cases h with heq | heq
      · exact ⟨n, Nat.le_succ n, heq.trans hn⟩
      · exact ⟨n + 1, Nat.le_refl _, by rw [heq, hn]; rfl⟩
    obtain ⟨m, hm, hnext⟩ := hnumber
    have hsound := hgoes.sound h (hbelow hnext (by omega))
    exact ⟨hbelow hn (by omega), hopen step List.mem_cons_self,
      ih hsound hnext (fun x hx => hopen x (List.mem_cons_of_mem _ hx)) (by omega)⟩

end Session
end QuadStore
