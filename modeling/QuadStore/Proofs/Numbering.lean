import QuadStore.Proofs.Durability

/-!
# Numbering

A store counts its snapshots, but the journal bears their numbers only in records that have
operations: `Journal.number` is the number that a journal leads to. A store that is opened again
goes on from there, and from where it was if every snapshot has been recorded and no compaction has
found the store empty: `Session.Lasting.reopen_number`. Otherwise numbers are given again:
`Session.reopen_number_forgotten`.
-/

namespace QuadStore

/-! ## The number of a journal -/

/-- The number of the last record with operations, or else the one from before. -/
def Record.lastNumber (before : Nat) (records : List Record) : Nat :=
  ((records.filter fun r => !r.operations.isEmpty).getLast?.map (·.snapshot)).getD before

/-- The number that the records of a journal lead to. -/
def Journal.number (bytes : Bytes) : Nat :=
  match recover bytes with
  | .ok (records, _) => Record.lastNumber 0 records
  | .error _ => 0

namespace Committed

variable {c c' : Committed} {bytes : Bytes}

/-- Records without operations count for nothing. -/
theorem number_of_foldlM_replay? {records : List Record} (h : records.foldlM replay? c = some c') :
    c'.number = Record.lastNumber c.number records := by
  induction records generalizing c with
  | nil => exact (congrArg number (Option.some.inj h)).symm
  | cons r rest ih =>
    obtain ⟨next, hnext, hrest⟩ := Option.bind_eq_some_iff.1 (List.foldlM_cons.symm.trans h)
    rw [ih hrest]
    unfold Record.lastNumber
    cases hempty : r.operations.isEmpty with
    | true =>
      rw [replay?_of_isEmpty hempty] at hnext
      rw [List.filter_cons_of_neg (by simp [hempty]), Option.some.inj hnext]
    | false =>
      have hnumber : next.number = r.snapshot := by
        rcases replay?_cases hnext with ⟨hnone, -⟩ | ⟨-, hnumber⟩
        · rw [hnone] at hempty
          exact absurd hempty Bool.noConfusion
        · exact hnumber
      rw [List.filter_cons_of_pos (by simp [hempty]), List.getLast?_cons, hnumber]
      cases (rest.filter fun r => !r.operations.isEmpty).getLast? <;> rfl

theorem WrittenIn.number_eq (h : c.WrittenIn bytes) : Journal.number bytes = c.number := by
  obtain ⟨frames, records, rfl, hframes, hreplay⟩ := h
  unfold Journal.number
  rw [hframes.recover, number_of_foldlM_replay? hreplay]
  rfl

theorem KeptIn.number_le (h : c.KeptIn bytes) : Journal.number bytes ≤ c.number := by
  obtain ⟨number, hle, hwritten⟩ := h.exists_writtenIn
  rw [hwritten.number_eq]
  exact hle

end Committed

/-! ## Stores -/

theorem Content.declared_eq_nil_iff {c : Content} :
    c.declared = [] ↔ c.statements = [] ∧ c.namespaces.entries = [] := by
  unfold declared Namespaces.declarations
  rw [List.append_eq_nil_iff, List.map_eq_nil_iff, List.map_eq_nil_iff, List.map_eq_nil_iff,
    and_comm]

/-- The journal of a store leads to the number of its latest snapshot. -/
def Store.Numbered (s : Store) : Prop :=
  ∀ bytes, s.journal? = some bytes → Journal.number bytes = s.current

namespace Store

variable {s s' : Store} {options : StoreOptions} {bytes : Bytes}

theorem numbered_of_openJournal (hs : (openJournal options bytes).result = .ok s)
    (hbelow : s.current < Stamp.pending) : s.Numbered := by
  obtain ⟨kept, hkept, hwritten⟩ := writtenIn_of_openJournal hs hbelow
  intro bytes hbytes
  rw [hkept] at hbytes
  rw [← Option.some.inj hbytes]
  exact hwritten.number_eq

/-- Nothing is cut off from a journal that is up to date. -/
theorem journal_openJournal {c : Committed} (h : c.KeptIn bytes)
    (hs : (openJournal options bytes).result = .ok s) : s.journal? = some bytes := by
  obtain ⟨frames, records, number, rfl, hframes, -, -⟩ := h
  unfold openJournal at hs
  rw [hframes.recover] at hs
  obtain ⟨replayed, -, hs⟩ := Except.exists_of_bind_eq_ok hs
  rw [← Except.ok.inj hs]

/-- A compaction writes down the number, unless the store is empty. -/
theorem Durable.numbered_compact (h : s.Durable) (hs : s.Sound) (hnumbered : s.Numbered)
    (hsome : s.current = 0 ∨ s.committed.content.declared.isEmpty = false) :
    s.compact.2.Numbered := by
  intro bytes hbytes
  have hcurrent : s.compact.2.current = s.current := by
    obtain ⟨journal?, hcompact, -⟩ := s.frame_compact
    rw [hcompact]
    rfl
  rw [hcurrent]
  rcases hsome with hzero | hsome
  · obtain ⟨journal, hjournal, hkept⟩ := h.compact hs
    rw [hbytes] at hjournal
    obtain rfl := Option.some.inj hjournal
    have hle : Journal.number bytes ≤ s.compact.2.current := hkept.number_le
    omega
  · have hkeeps := hs.keeps_collect s.protects_current
    have hcommitted : s.collect.2.committed = s.committed :=
      hkeeps.committed_eq hs.readable rfl rfl
    obtain ⟨journal, hjournal, hkept⟩ := h.keeps hs.readable hkeeps ⟨rfl, rfl, rfl⟩
    have hbelow := hs.collect.below
    unfold Store.compact at hbytes
    dsimp only at hbytes
    rw [hjournal, hs.collect.readable.summary_eq] at hbytes
    dsimp only at hbytes
    split at hbytes
    · rename_i frame hframe
      have hwritten := hkept.writtenIn_declared
        (hs.collect.nodup_statements_at (Nat.lt_trans hbelow Stamp.pending_lt_never))
        (Nat.lt_trans hbelow (by decide)) hframe (by rw [hcommitted]; exact hsome)
      rw [← Option.some.inj hbytes]
      exact hwritten.number_eq
    · exact hnumbered bytes hbytes

end Store

/-- A commit that writes a record writes down the number. -/
theorem Transaction.Sound.numbered_publish {t : Transaction} (h : t.Sound) (hrecords : t.Records)
    (hdurable : t.store.Durable) {stamp : Nat} (hnew : t.store.current < stamp)
    (hstamp : stamp < Stamp.pending) {journal? : Option Bytes}
    (hjournal : t.journalAfter stamp = .ok journal?) (hwritten : journal? ≠ t.store.journal?) :
    (Transaction.publish
      { t with store := { t.store with journal? := journal? } } stamp).Numbered := by
  obtain ⟨bytes, hbytes, hkept⟩ := hdurable
  obtain ⟨_, _, hpublish⟩ := Transaction.frame_publish
    { t with store := { t.store with journal? := journal? } } stamp
  rw [journalAfter_eq h.readable, hbytes] at hjournal
  dsimp only at hjournal
  cases hempty : t.operations.isEmpty with
  | true =>
    rw [hempty] at hjournal
    exact absurd ((Except.ok.inj hjournal).symm.trans hbytes.symm) hwritten
  | false =>
    rw [hempty, if_neg Bool.false_ne_true] at hjournal
    split at hjournal
    · rename_i frame hframe
      have hafter := hkept.append (r := ⟨stamp, t.operations⟩) hnew
        (Nat.lt_trans hstamp (by decide)) hempty hrecords.foldlM_operations hframe
      intro after hbytes'
      rw [hpublish, ← Except.ok.inj hjournal] at hbytes'
      rw [Transaction.current_publish, ← Option.some.inj hbytes']
      exact hafter.number_eq
    · exact nomatch hjournal

/-- A row of moves that leaves the journal as it is counts nothing. -/
theorem SessionState.Drifts.frame {a b : SessionState} (h : a.Drifts b) (ha : a.Sound)
    {s s' : Store} (hs : a.store? = some s) (hs' : b.store? = some s') :
    s'.journal? = s.journal? ∧ s'.current = s.current := by
  have hjournal := h.journal
  have hnumber := h.reaches.number?_eq ha
  unfold SessionState.journal? at hjournal
  unfold SessionState.number? at hnumber
  rw [hs, hs'] at hjournal hnumber
  exact ⟨hjournal, Option.some.inj hnumber⟩

/-! ## Sessions -/

namespace Session

variable {session : Session}

/-- A step loses a number: it counts a snapshot of which there is no record, or it replaces the
journal by the record of an empty store. -/
inductive Forgets (session : Session) : Step → Prop
  | unrecorded {step : Step} {s s' : Store} : session.store? = some s →
      (session.step step).2.store? = some s' → s'.current ≠ s.current →
        s'.journal? = s.journal? → Forgets session step
  | emptied {s : Store} : session.state = .idle s → s.current ≠ 0 → s.latest.statements = [] →
      s.namespaces.entries = [] → Forgets session .compact

/-- What comes of opening a store on a journal that is accepted and of steps that forget no
number. -/
inductive Recorded : Session → Prop
  | start {bytes : Bytes} {options : StoreOptions} {s : Store} :
      (start (some bytes) options).2.state = .idle s → s.current < Stamp.pending →
        Recorded (start (some bytes) options).2
  | step {session : Session} (step : Step) : session.Recorded → step.leavesFile = true →
      (session.step step).2.state.Below → ¬session.Forgets step → Recorded (session.step step).2

theorem Recorded.lasting (h : session.Recorded) : session.Lasting := by
  induction h with
  | start hs hbelow => exact .start hs hbelow
  | step step _ hleaves hbelow _ ih => exact .step step ih hleaves hbelow

/-- A store that is opened again goes on with the number that its journal leads to. -/
theorem Kept.number_reopen (h : session.Kept) :
    ∃ s bytes, session.store? = some s ∧ s.journal? = some bytes ∧
      Journal.number bytes ≤ s.current ∧
      ∀ options, ∃ s',
        session.step (.reopen {} options) = (.opened s'.current, ofState (.idle s')) ∧
        s'.current = Journal.number bytes ∧ s'.Numbered := by
  obtain ⟨s, hs, hdurable⟩ := h.durable.exists_store
  have hbelow : s.current < Stamp.pending := h.below _ (by rw [SessionState.number?, hs]; rfl)
  obtain ⟨bytes, hbytes, hkept⟩ := id hdurable
  rw [← store?_eq] at hs
  refine ⟨s, bytes, hs, hbytes, hkept.number_le, fun options => ?_⟩
  obtain ⟨s', hs', hle, -⟩ := hdurable.openJournal hbelow hbytes options
  have hnumbered := Store.numbered_of_openJournal hs' (Nat.lt_of_le_of_lt hle hbelow)
  have hjournal := Store.journal_openJournal hkept hs'
  exact ⟨s', (step_reopen hs hbytes options).trans (start_eq hs'), (hnumbered bytes hjournal).symm,
    hnumbered⟩

/-- A compaction that does not find the store empty keeps the number in the journal. -/
theorem Kept.numbered_compact (h : session.Kept)
    (hnumbered : ∀ s, session.store? = some s → s.Numbered) (hforgets : ¬session.Forgets .compact)
    {s' : Store} (hs' : (session.step .compact).2.store? = some s') : s'.Numbered := by
  rcases session.compact_cases with ⟨s, hstate, hafter⟩ | hsame
  · have hs : session.store? = some s := by
      rw [store?_eq, hstate]
      rfl
    rw [store?_eq, hafter] at hs'
    obtain rfl := Option.some.inj hs'
    have hsound := h.sound
    have hdurable := h.durable
    rw [hstate] at hsound hdurable
    refine Store.Durable.numbered_compact hdurable hsound (hnumbered s hs) ?_
    rw [or_iff_not_imp_left, ← Bool.not_eq_true, List.isEmpty_iff, Content.declared_eq_nil_iff]
    rintro hcurrent ⟨hstatements, hnamespaces⟩
    exact hforgets (.emptied hstate hcurrent hstatements hnamespaces)
  · rw [hsame] at hs'
    exact hnumbered s' hs'

/-- So does any other step that leaves a record of what it counts. -/
theorem Kept.numbered_ends (h : session.Kept)
    (hnumbered : ∀ s, session.store? = some s → s.Numbered) {step : Step}
    (hforgets : ¬session.Forgets step) (hbelow : (session.step step).2.state.Below)
    (hends : session.state.Ends (session.step step).2.state) {s' : Store}
    (hs' : (session.step step).2.store? = some s') : s'.Numbered := by
  obtain ⟨s, hs, -⟩ := h.durable.exists_store
  have hstore := hs
  have hstore' := hs'
  rw [← store?_eq] at hs
  rw [store?_eq] at hstore'
  cases hends with
  | quiet hdrifts =>
    obtain ⟨hjournal, hcurrent⟩ := hdrifts.frame h.sound hstore hstore'
    intro bytes hbytes
    rw [hcurrent]
    exact hnumbered s hs bytes (hjournal.symm.trans hbytes)
  | @commit b c hdrifts hcommits =>
    have hsound := hdrifts.reaches.sound h.sound
    have hdurable := hdrifts.reaches.durable h.sound h.durable
    generalize (session.step step).2.state = after at hcommits hstore' hbelow
    cases hcommits with
    | @publish w t journal? hwritten =>
      obtain ⟨base, hsince⟩ := hsound
      obtain ⟨hjournal, hcurrent⟩ := hdrifts.frame h.sound hstore rfl
      obtain rfl := Option.some.inj hstore'
      have hnew := hsince.sound.current_lt_next
      by_cases hsame : journal? = t.store.journal?
      · -- the snapshot would be counted and not recorded
        obtain ⟨_, _, hpublish⟩ := Transaction.frame_publish
          { t with store := { t.store with journal? := journal? } } (Stamp.next t.store.current)
        refine absurd (.unrecorded hs hs' ?_ ?_) hforgets
        · rw [Transaction.current_publish, ← hcurrent]
          exact Nat.ne_of_gt hnew
        · rw [hpublish]
          exact hsame.trans hjournal
      · have hlt := hbelow.idle
        rw [Transaction.current_publish] at hlt
        exact hsince.sound.numbered_publish hdurable.2 hdurable.1 hnew hlt hwritten hsame

theorem Recorded.numbered (h : session.Recorded) :
    ∀ s, session.store? = some s → s.Numbered := by
  induction h with
  | @start bytes options s hs hbelow =>
    intro s' hs'
    rw [store?_eq, hs] at hs'
    rw [← Option.some.inj hs']
    exact Store.numbered_of_openJournal (openJournal_of_start hs) hbelow
  | @step session step hrecorded hleaves hbelow hforgets ih =>
    intro s' hs'
    have hkept := hrecorded.lasting.kept
    rcases Step.leavesFile_cases hleaves with hopen | ⟨options, rfl⟩
    · by_cases hcompact : step = .compact
      · subst hcompact
        exact hkept.numbered_compact ih hforgets hs'
      · exact hkept.numbered_ends ih hforgets hbelow (step_ends hkept.sound hopen hcompact) hs'
    · obtain ⟨_, _, _, _, _, hreopen⟩ := hkept.number_reopen
      obtain ⟨t, hstep, -, hnumbered⟩ := hreopen options
      rw [hstep] at hs'
      rw [← Option.some.inj hs']
      exact hnumbered

/-- A store that is closed and opened again goes on with the number that its journal leads to, which
is never above the number from before. It is the number from before if none has been forgotten, and
then no step counts down. -/
theorem Lasting.reopen_number (h : session.Lasting) :
    ∃ s bytes, session.store? = some s ∧ s.journal? = some bytes ∧
      Journal.number bytes ≤ s.current ∧
      (∀ options, (session.step (.reopen {} options)).1 = .opened (Journal.number bytes)) ∧
      (session.Recorded → Journal.number bytes = s.current ∧
        ∀ step s', step.leavesFile = true → (session.step step).2.store? = some s' →
          s.current ≤ s'.current) := by
  obtain ⟨s, bytes, hs, hbytes, hle, hreopen⟩ := h.kept.number_reopen
  refine ⟨s, bytes, hs, hbytes, hle, fun options => ?_, fun hrecorded => ?_⟩
  · obtain ⟨s', hstep, hnumber, -⟩ := hreopen options
    rw [hstep, hnumber]
  · have hnumber := hrecorded.numbered s hs bytes hbytes
    refine ⟨hnumber, fun step s' hleaves hs' => ?_⟩
    rcases Step.leavesFile_cases hleaves with hopen | ⟨options, rfl⟩
    · have hnumbers := (step_goes h.kept.sound hopen).number?_cases h.kept.sound
      unfold SessionState.number? at hnumbers
      rw [← store?_eq, ← store?_eq, hs, hs'] at hnumbers
      simp only [Option.map_some, Option.some.injEq] at hnumbers
      omega
    · obtain ⟨t, hstep, hcurrent, -⟩ := hreopen options
      rw [hstep] at hs'
      obtain rfl := Option.some.inj hs'
      exact Nat.le_of_eq (hnumber.symm.trans hcurrent.symm)

/-- A session on a new journal in which a quad is inserted and the journal is compacted. -/
def inserted : Session :=
  (start (some []) {}).2.after [.insert ⟨.iri ⟨"s"⟩, ⟨"p"⟩, .iri ⟨"o"⟩, .default⟩, .compact]

theorem recorded_inserted : inserted.Recorded := by
  have hstart : (start (some []) {}).2.state = .idle { Store.empty {} with
      journal? := some Journal.header } := rfl
  have hbelow : ∀ {session : Session}, session.state.number? = some 1 → session.state.Below := by
    intro session hnumber n hn
    rw [hnumber] at hn
    rw [← Option.some.inj hn]
    decide
  refine .step _ (.step _ (.start hstart (by decide)) rfl (hbelow rfl) ?_) rfl (hbelow rfl) ?_
  · rintro ⟨hs, hs', hcurrent, hjournal⟩
    obtain rfl := Option.some.inj hs
    obtain rfl := Option.some.inj hs'
    exact absurd hjournal (by decide)
  · rintro (⟨hs, hs', hcurrent, hjournal⟩ | ⟨hs, hcurrent, hstatements, hnamespaces⟩)
    · obtain rfl := Option.some.inj hs
      obtain rfl := Option.some.inj hs'
      exact hcurrent rfl
    · obtain rfl := SessionState.idle.inj hs
      exact absurd hstatements (by decide)

/-- Its store has the number one before and after it is opened again. -/
theorem reopen_number_inserted : inserted.Lasting ∧ inserted.Recorded ∧
    ∃ s bytes, inserted.store? = some s ∧ s.journal? = some bytes ∧
      Journal.number bytes ≤ s.current ∧
      (∀ options, (inserted.step (.reopen {} options)).1 = .opened (Journal.number bytes)) ∧
      (inserted.Recorded → Journal.number bytes = s.current ∧
        ∀ step s', step.leavesFile = true → (inserted.step step).2.store? = some s' →
          s.current ≤ s'.current) :=
  ⟨recorded_inserted.lasting, recorded_inserted, recorded_inserted.lasting.reopen_number⟩

example : (inserted.step (.reopen {} {})).1 = .opened 1 := by rfl

/-! ## Numbers that are forgotten -/

/-- A session on a new journal in which a quad is inserted and removed before a compaction. -/
def emptied : Session :=
  (start (some []) {}).2.after [.insert ⟨.iri ⟨"s"⟩, ⟨"p"⟩, .iri ⟨"o"⟩, .default⟩,
    .remove ⟨.iri ⟨"s"⟩, ⟨"p"⟩, .iri ⟨"o"⟩, .default⟩, .compact]

/-- A session on a new journal in which a transaction is committed that has changed nothing. -/
def unchanged : Session :=
  (start (some []) {}).2.after [.begin .transaction, .commit .transaction]

/-- In both, the store is opened again with the number of a new one. -/
theorem reopen_number_forgotten :
    emptied.store?.map (·.current) = some 2 ∧ (emptied.step (.reopen {} {})).1 = .opened 0 ∧
      unchanged.store?.map (·.current) = some 1 ∧ (unchanged.step (.reopen {} {})).1 = .opened 0 :=
  ⟨rfl, rfl, rfl, rfl⟩

end Session
end QuadStore
