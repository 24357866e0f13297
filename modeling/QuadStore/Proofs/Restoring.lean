import QuadStore.Proofs.Collection
import QuadStore.Proofs.Readability

/-!
# Restoring

A transaction that is rolled back, that is dropped or that can not be recorded leaves the store as
it was. `Store.Restored` says what this means, and `Session.Reachable.restores` that it holds
whatever has been staged. Undoing the changes leads to a store that resumes the one from before
(`Transaction.Stages.resumes`), so that only the collection at the end remains to be looked at. At
the number that stands for a bound that is not set, a removal is not undone:
`Session.rollback_reserved`.
-/

namespace QuadStore

/-- The entries that are deleted at the end of a transaction. -/
def Store.reclaimed (s : Store) : List EntryId := if s.options.collects then s.dead else []

/-- A store after a transaction that began with another one has been taken back. -/
structure Store.Restored (s : Store) (t : Transaction) (s' : Store) : Prop where
  /-- Each quad has the live entry that it had, with the stamps that it had. -/
  live : ∀ q, s'.live.get? q = s.live.get? q ∧
    (s'.live.get? q).map s'.index.get? = (s.live.get? q).map s.index.get?
  /-- The entries from before have the stamps and the order that they had. Only those that wait to
  be deleted and that no reader can reach may be gone. -/
  entries : s'.index.entries.filter (fun e => (s.index.get? e.id).isSome) =
    s.index.entries.filter fun e => !s.reclaimed.contains e.id
  /-- The lists of the terms hold the entries in their order. -/
  indexed : s'.index.WellFormed
  /-- The entries from before that wait to be deleted are those that did. -/
  garbage : ∀ e ∈ s.index.entries,
    s'.garbage.count e.id = if s.reclaimed.contains e.id then 0 else s.garbage.count e.id
  /-- An entry of the transaction is deleted, or it is taken back and waits once to be deleted. -/
  added : ∀ e ∈ t.store.index.entries, s.index.get? e.id = none →
    if s.options.collects then s'.index.get? e.id = none ∧ s'.garbage.count e.id = 0
    else ∃ e', s'.index.get? e.id = some e' ∧ e'.quad = e.quad ∧ e'.isAborted = true ∧
      s'.garbage.count e.id = 1
  /-- There are no other entries. -/
  only : ∀ e ∈ s'.index.entries, s.index.get? e.id = none → ∃ e₀ ∈ t.store.index.entries,
    e₀.id = e.id
  namespaces : s'.namespaces = s.namespaces
  current : s'.current = s.current
  pins : s'.pins = s.pins
  journal : s'.journal? = s.journal?
  options : s'.options = s.options
  dictionary : s.dictionary.Within s'.dictionary

/-! ## The collection at the end -/

namespace Store

theorem entries_collectIfAsked (s : Store) : s.collectIfAsked.index.entries =
    s.index.entries.filter fun e => !s.reclaimed.contains e.id := by
  unfold collectIfAsked reclaimed
  split
  · exact s.entries_collect
  · rw [eq_comm, List.filter_eq_self]
    intro e _
    rfl

theorem count_garbage_collectIfAsked (s : Store) (id : EntryId) :
    s.collectIfAsked.garbage.count id =
      if s.reclaimed.contains id then 0 else s.garbage.count id := by
  unfold collectIfAsked reclaimed
  split
  · show (s.garbage.filter fun id => !s.isUnreachable id).count id = _
    by_cases hdead : s.isUnreachable id
    · have hnone : (s.garbage.filter fun id => !s.isUnreachable id).count id = 0 :=
        List.count_eq_zero.2 fun hmem => by simp [hdead] at hmem
      rw [hnone]
      split
      · rfl
      · rename_i hmem
        rw [eq_comm, List.count_eq_zero]
        intro hgarbage
        exact hmem (List.contains_iff_mem.2 (List.mem_filter.2 ⟨hgarbage, hdead⟩))
    · rw [List.count_filter (by simpa using hdead), if_neg]
      intro hmem
      exact hdead (List.mem_filter.1 (List.contains_iff_mem.1 hmem)).2
  · simp

theorem Readable.get?_collectIfAsked {s : Store} (h : s.Readable) {e : Entry}
    (he : e ∈ s.index.entries) : s.collectIfAsked.index.get? e.id =
      if s.reclaimed.contains e.id then none else some e := by
  have hentries := s.entries_collectIfAsked
  split
  · rename_i hdead
    cases hget : s.collectIfAsked.index.get? e.id with
    | none => rfl
    | some x =>
      have hx := Index.mem_of_get? hget
      rw [hentries, List.mem_filter, Index.id_of_get? hget, hdead] at hx
      exact absurd hx.2 Bool.false_ne_true
  · rename_i hdead
    have hmem : e ∈ s.collectIfAsked.index.entries := by
      rw [hentries, List.mem_filter]
      exact ⟨he, by simpa using hdead⟩
    exact h.collectIfAsked.indexed.get?_id hmem

/-- The entry of a live quad is not deleted, as the latest snapshot shows it. -/
theorem Sound.contains_reclaimed_of_live {s : Store} (h : s.Sound) {q : EncodedQuad} {id : EntryId}
    (hlive : s.live.get? q = some id) : s.reclaimed.contains id = false := by
  obtain ⟨e, he, rfl, -, hvisible⟩ := (h.live q id).1 hlive
  have hcurrent := (h.isVisible_pending_iff he).1 hvisible
  rw [← Bool.not_eq_true, List.contains_iff_mem]
  unfold reclaimed
  split
  · intro hdead
    rw [h.isVisible_of_mem_dead he hdead s.protects_current] at hcurrent
    exact Bool.false_ne_true hcurrent
  · exact List.not_mem_nil

/-- Entries are told apart by their numbers: those that were there are not among the others. -/
theorem Readable.get?_eq_none_iff {s u : Store} (h : u.Readable) {more : List Entry}
    (hentries : u.index.entries = s.index.entries ++ more) {e : Entry} (he : e ∈ u.index.entries) :
    s.index.get? e.id = none ↔ e ∈ more := by
  have hnodup := h.indexed.nodup
  rw [hentries, List.map_append, List.nodup_append] at hnodup
  unfold Index.get?
  rw [List.find?_eq_none]
  constructor
  · intro hnone
    rw [hentries, List.mem_append] at he
    exact he.resolve_left fun he => hnone e he (beq_self_eq_true _)
  · intro hmore x hx hid
    exact hnodup.2.2 _ (List.mem_map_of_mem hx) _ (List.mem_map_of_mem hmore) (eq_of_beq hid)

namespace Resumes

variable {s u : Store}

/-- An entry from before is deleted if it would have been deleted before. -/
theorem contains_reclaimed (h : s.Resumes u) (hs : s.Sound) (hu : u.Sound)
    (hpins : u.pins = s.pins) {e : Entry} (he : e ∈ s.index.entries) :
    u.reclaimed.contains e.id = s.reclaimed.contains e.id := by
  obtain ⟨more, hentries, -⟩ := h.entries
  have heu : e ∈ u.index.entries := by
    rw [hentries]
    exact List.mem_append_left _ he
  unfold reclaimed
  rw [h.options]
  split
  · rw [Bool.eq_iff_iff, List.contains_iff_mem, List.contains_iff_mem, hu.mem_dead_iff heu,
      hs.mem_dead_iff he, hu.mem_garbage_iff heu, hs.mem_garbage_iff he, h.current, hpins]
  · rfl

/-- Each quad keeps its live entry. -/
theorem live_collectIfAsked (h : s.Resumes u) (hs : s.Sound) (hu : u.Sound) (q : EncodedQuad) :
    u.collectIfAsked.live.get? q = s.live.get? q ∧
      (u.collectIfAsked.live.get? q).map u.collectIfAsked.index.get? =
        (s.live.get? q).map s.index.get? := by
  obtain ⟨index, garbage, hcollect⟩ := u.frame_collectIfAsked
  have hlive : u.collectIfAsked.live.get? q = s.live.get? q := by
    rw [hcollect]
    exact h.live q
  refine ⟨hlive, ?_⟩
  rw [hlive]
  cases hid : s.live.get? q with
  | none => rfl
  | some id =>
    obtain ⟨e, he, rfl, -, -⟩ := (hs.live q id).1 hid
    obtain ⟨more, hentries, -⟩ := h.entries
    have hmem : e ∈ u.index.entries := by
      rw [hentries]
      exact List.mem_append_left _ he
    have hkept := hu.contains_reclaimed_of_live ((h.live q).trans hid)
    show some _ = some _
    rw [hu.readable.get?_collectIfAsked hmem, hkept, hs.readable.indexed.get?_id he]
    rfl

/-- The entries from before that are not deleted are there, in their order. -/
theorem filter_entries_collectIfAsked (h : s.Resumes u) (hs : s.Sound) (hu : u.Sound)
    (hpins : u.pins = s.pins) :
    u.collectIfAsked.index.entries.filter (fun e => (s.index.get? e.id).isSome) =
      s.index.entries.filter fun e => !s.reclaimed.contains e.id := by
  obtain ⟨more, hentries, -⟩ := h.entries
  have hnone : more.filter (fun e => (s.index.get? e.id).isSome &&
      !u.reclaimed.contains e.id) = [] := by
    rw [List.filter_eq_nil_iff]
    intro e he
    have hmem : e ∈ u.index.entries := by
      rw [hentries]
      exact List.mem_append_right _ he
    simp [(hu.readable.get?_eq_none_iff hentries hmem).2 he]
  rw [entries_collectIfAsked, List.filter_filter, hentries, List.filter_append, hnone,
    List.append_nil]
  refine List.filter_congr fun e he => ?_
  rw [hs.readable.indexed.get?_id he, h.contains_reclaimed hs hu hpins he]
  rfl

/-- Of the entries from before, the same ones wait to be deleted, less those that are. -/
theorem count_garbage_collectIfAsked (h : s.Resumes u) (hs : s.Sound) (hu : u.Sound)
    (hpins : u.pins = s.pins) {e : Entry} (he : e ∈ s.index.entries) :
    u.collectIfAsked.garbage.count e.id =
      if s.reclaimed.contains e.id then 0 else s.garbage.count e.id := by
  obtain ⟨more, hentries, hgarbage, -⟩ := h.entries
  have hother : (more.map (·.id)).count e.id = 0 := by
    rw [List.count_eq_zero]
    intro hid
    obtain ⟨x, hx, hid⟩ := List.mem_map.1 hid
    have hmem : x ∈ u.index.entries := by
      rw [hentries]
      exact List.mem_append_right _ hx
    have hnone := (hu.readable.get?_eq_none_iff hentries hmem).2 hx
    rw [hid, hs.readable.indexed.get?_id he] at hnone
    exact Option.some_ne_none _ hnone
  rw [Store.count_garbage_collectIfAsked, h.contains_reclaimed hs hu hpins he, hgarbage.count_eq,
    List.count_append, hother, Nat.add_zero]

/-- What was not there before has been taken back, and it is deleted or waits once for it. -/
theorem added_collectIfAsked (h : s.Resumes u) (hu : u.Sound) {e : Entry}
    (he : e ∈ u.index.entries) (hnone : s.index.get? e.id = none) :
    e.isAborted = true ∧
      u.collectIfAsked.index.get? e.id = (if s.options.collects then none else some e) ∧
        u.collectIfAsked.garbage.count e.id = if s.options.collects then 0 else 1 := by
  obtain ⟨more, hentries, -, hmore⟩ := h.entries
  have hsince := (hmore e ((hu.readable.get?_eq_none_iff hentries he).1 hnone)).1
  have hgarbage : e.id ∈ u.garbage := (hu.mem_garbage_iff he).2 (.inr hsince)
  have hreclaimed : u.reclaimed.contains e.id = s.options.collects := by
    unfold reclaimed
    rw [h.options]
    cases s.options.collects with
    | false => rfl
    | true => exact List.contains_iff_mem.2 ((hu.mem_dead_iff he).2 ⟨hgarbage, .inl hsince⟩)
  refine ⟨by rw [Entry.isAborted, hsince, beq_self_eq_true], ?_, ?_⟩
  · rw [hu.readable.get?_collectIfAsked he, hreclaimed]
  · have hcount : u.garbage.count e.id = 1 :=
      List.count_eq_one_of_mem hu.nodupGarbage hgarbage
    rw [Store.count_garbage_collectIfAsked, hreclaimed, hcount]

end Resumes
end Store

/-! ## Rolling back -/

namespace Transaction

variable {s : Store} {t : Transaction}

/-- Undoing changes keeps the numbers and the quads of the entries. -/
theorem map_quad_foldl_revert (changes : List Change) (s : Store) :
    (changes.foldl revert s).index.entries.map (fun e => (e.id, e.quad)) =
      s.index.entries.map fun e => (e.id, e.quad) := by
  induction changes generalizing s with
  | nil => rfl
  | cons c rest ih =>
    rw [List.foldl_cons, ih, index_revert]
    show (s.index.entries.map _).map _ = _
    rw [List.map_map]
    refine List.map_congr_left fun e _ => ?_
    obtain ⟨hid, hquad⟩ := (faithful_restored c).changed c.entry e
    exact Prod.ext hid hquad

/-- What is staged does not concern the readers. -/
theorem Stages.pins_unwound (hs : s.begin.Stages t) (h : s.Sound) : t.unwound.pins = s.pins := by
  obtain ⟨dictionary, index, live, hstore⟩ := hs.frame h
  obtain ⟨index', live', garbage', hframe⟩ := frame_foldl_revert t.changes.reverse t.store
  unfold unwound
  rw [hframe, hstore]
  rfl

/-- Whatever has been staged, taking it back restores the store. -/
theorem Stages.restored (hs : s.begin.Stages t) (h : s.Sound) : s.Restored t t.rollback := by
  have hsince : t.Since s := (Since.begin h).stages hs
  have hresumes : s.Resumes t.unwound := hsince.resumes
  have hsound : t.unwound.Sound := hsince.sound_unwound
  have hpins := hs.pins_unwound h
  obtain ⟨index, garbage, hcollect⟩ := t.unwound.frame_collectIfAsked
  have hquads : t.unwound.index.entries.map (fun e => (e.id, e.quad)) =
      t.store.index.entries.map fun e => (e.id, e.quad) := map_quad_foldl_revert _ _
  show s.Restored t t.unwound.collectIfAsked
  refine
    { live := hresumes.live_collectIfAsked h hsound
      entries := hresumes.filter_entries_collectIfAsked h hsound hpins
      indexed := hsound.collectIfAsked.readable.indexed
      garbage := fun e he => hresumes.count_garbage_collectIfAsked h hsound hpins he
      added := ?added
      only := ?only
      namespaces := by rw [hcollect]; exact hresumes.namespaces
      current := by rw [hcollect]; exact hresumes.current
      pins := by rw [hcollect]; exact hpins
      journal := by rw [hcollect]; exact hresumes.journal
      options := by rw [hcollect]; exact hresumes.options
      dictionary := by rw [hcollect]; exact hresumes.dictionary }
  case added =>
    intro e he hnone
    have hpair : (e.id, e.quad) ∈ t.unwound.index.entries.map fun e => (e.id, e.quad) := by
      rw [hquads]
      exact List.mem_map_of_mem he
    obtain ⟨x, hx, hxe⟩ := List.mem_map.1 hpair
    obtain ⟨hid, hquad⟩ := Prod.mk.inj hxe
    rw [← hid] at hnone ⊢
    rw [← hquad]
    obtain ⟨haborted, hget, hcount⟩ := hresumes.added_collectIfAsked hsound hx hnone
    cases hcollects : s.options.collects with
    | true =>
      rw [hcollects] at hget hcount
      exact ⟨hget, hcount⟩
    | false =>
      rw [hcollects] at hget hcount
      exact ⟨x, hget, rfl, haborted, hcount⟩
  case only =>
    intro e he _
    rw [Store.entries_collectIfAsked] at he
    have hpair : (e.id, e.quad) ∈ t.store.index.entries.map fun e => (e.id, e.quad) := by
      rw [← hquads]
      exact List.mem_map_of_mem (List.mem_filter.1 he).1
    obtain ⟨x, hx, hxe⟩ := List.mem_map.1 hpair
    exact ⟨x, hx, (Prod.mk.inj hxe).1⟩

/-- Staging writes one after the other. -/
def stageAll (t : Transaction) (changes : List Write) : Transaction :=
  changes.foldl (fun t change => (Session.stage t change).2) t

theorem stages_stageAll (h : t.Sound) (changes : List Write) : t.Stages (t.stageAll changes) := by
  induction changes generalizing t with
  | nil => exact .refl
  | cons change rest ih =>
    have hfirst := (stage_eq h change).2.2
    exact hfirst.trans (ih (hfirst.sound h))

end Transaction

/-! ## Sessions -/

namespace Session

variable {session : Session} {s : Store} {t : Transaction} {w : Writer}

/-- The session after a writer has begun a transaction and staged some changes. -/
def staging (session : Session) (w : Writer) (changes : List Write) : Session :=
  session.after (.begin w :: changes.map (.write w))

theorem state_after_writes (hstate : session.state = .writing w t) (changes : List Write) :
    (session.after (changes.map (.write w))).state = .writing w (t.stageAll changes) := by
  induction changes generalizing session t with
  | nil => exact hstate
  | cons change rest ih =>
    refine ih ?_
    show (session.withTransaction w _).2.state = _
    unfold withTransaction
    rw [transactionOf?_eq_some_iff.2 hstate]

theorem state_staging (hstate : session.state = .idle s) (hw : session.knows w = true)
    (changes : List Write) :
    (session.staging w changes).state = .writing w (s.begin.stageAll changes) := by
  refine state_after_writes ?_ changes
  show (session.begin w).2.state = _
  unfold Session.begin
  rw [hstate]
  dsimp only
  rw [if_pos hw]

/-- A step leads to a store that a transaction has been taken back from. -/
def Restores (opened : Session) (step : Step) (s : Store) (t : Transaction) : Prop :=
  ∃ s', (opened.step step).2.state = .idle s' ∧ s.Restored t s'

/-- Every way in which a transaction ends without a new snapshot leads back to the store that it
began with. -/
structure Undoes (opened : Session) (w : Writer) (s : Store) (t : Transaction) : Prop where
  rollback : opened.Restores (.rollback w) s t
  /-- A connection may be dropped, or another one may take its name. -/
  dropped : ∀ name, w = .connection name →
    opened.Restores (.disconnect name) s t ∧ opened.Restores (.connect name) s t
  commit : ∀ failure, (opened.step (.commit w)).1 = .failed failure →
    opened.Restores (.commit w) s t
  /-- A commit fails just if there is a journal and a length does not fit into the record. -/
  fails : ∀ failure, (opened.step (.commit w)).1 = .failed failure ↔
    failure = .store .tooLong ∧ s.journal?.isSome ∧ t.operations ≠ [] ∧
      Record.Overflows ⟨Stamp.next s.current, t.operations⟩

theorem undoes_of_stages {opened : Session} (hstate : opened.state = .writing w t)
    (hs : s.begin.Stages t) (h : s.Sound) : opened.Undoes w s t := by
  have hrestored : s.Restored t t.rollback := hs.restored h
  have hrollback : (opened.rollback w).2.state = .idle t.rollback := by
    unfold Session.rollback withTransaction
    rw [transactionOf?_eq_some_iff.2 hstate]
  have hcommit : opened.step (.commit w) = (answer .store .number t.commit.1,
      { opened with state := .idle t.commit.2 }) := by
    show opened.commit w = _
    unfold Session.commit withTransaction
    rw [transactionOf?_eq_some_iff.2 hstate]
  have hfailed : ∀ failure, (opened.step (.commit w)).1 = .failed failure ↔
      ∃ e, failure = .store e ∧ t.commit.1 = .error e := by
    intro failure
    rw [hcommit]
    cases t.commit.1 with
    | error e => simp [answer, eq_comm]
    | ok n => simp [answer]
  have hstore : opened.store?.isNone = false := by
    unfold Session.store?
    rw [hstate]
    rfl
  refine
    { rollback := ⟨_, hrollback, hrestored⟩
      dropped := ?dropped
      commit := ?commit
      fails := ?fails }
  case dropped =>
    rintro name rfl
    -- either step first rolls back what the connection has open
    refine ⟨⟨t.rollback, ?_, hrestored⟩, ⟨t.rollback, ?_, hrestored⟩⟩
    · unfold Session.step
      simp only [hstore]
      exact hrollback
    · unfold Session.step
      simp only [hstore]
      exact hrollback
  case commit =>
    intro failure hfailure
    obtain ⟨e, -, he⟩ := (hfailed failure).1 hfailure
    refine ⟨t.commit.2, by rw [hcommit], ?_⟩
    rw [Transaction.commit_eq_rollback he]
    exact hrestored
  case fails =>
    intro failure
    obtain ⟨hcurrent, -, hjournal, -⟩ := ((Transaction.Since.begin h).stages hs).frame
    rw [hfailed, ← hcurrent, ← hjournal]
    simp only [(hs.sound h).commit_eq_error_iff]
    constructor
    · rintro ⟨e, rfl, rfl, hfits⟩
      exact ⟨rfl, hfits⟩
    · rintro ⟨rfl, hfits⟩
      exact ⟨_, rfl, rfl, hfits⟩

/-- Whatever a transaction stages in whatever session, a rollback, a dropped connection and a commit
that can not be recorded restore the store. -/
theorem Reachable.restores (h : session.Reachable) (hstate : session.state = .idle s)
    (hw : session.knows w = true) (changes : List Write) :
    (session.staging w changes).state = .writing w (s.begin.stageAll changes) ∧
      (session.staging w changes).Undoes w s (s.begin.stageAll changes) := by
  have hsound : s.Sound := by
    have hsound := h.consistent.sound
    rw [hstate] at hsound
    exact hsound
  have hopened := state_staging hstate hw changes
  exact ⟨hopened, undoes_of_stages hopened (Transaction.stages_stageAll hsound changes) hsound⟩

/-- A text of so many letters that four bytes can not count them. -/
def overlong : String := .ofList (List.replicate (2 ^ 32) 'a')

theorem isOverlong_overlong : IsOverlong overlong := by
  have hlength : ∀ n : Nat, (Utf8.encode (.ofList (List.replicate n 'a'))).length = n := by
    intro n
    have hbytes : (List.replicate n 'a').flatMap String.utf8EncodeChar =
        List.replicate n 97 := by
      induction n with
      | zero => rfl
      | succ n ih =>
        rw [List.replicate_succ, List.flatMap_cons, ih]
        rfl
    show (List.utf8Encode (List.replicate n 'a')).data.toList.length = n
    unfold List.utf8Encode
    rw [hbytes]
    simp
  unfold IsOverlong overlong
  rw [hlength]

/-- An inserted quad, and a namespace with a name that can not be recorded. -/
def overlongWrites : List Write :=
  [.insert ⟨.iri ⟨"s"⟩, ⟨"p"⟩, .iri ⟨"o"⟩, .default⟩ true, .changeNamespaces (.set overlong "")]

/-- In a store with a new journal, their commit fails and the store is as it was. -/
theorem restores_overlong : ∃ s : Store,
    (start (some []) {}).2.Reachable ∧ (start (some []) {}).2.state = .idle s ∧
      ((start (some []) {}).2.staging .transaction overlongWrites).Restores
        (.commit .transaction) s (s.begin.stageAll overlongWrites) := by
  have hbelow : (start (some []) {}).2.state.Below := by
    intro n hn
    rw [← Option.some.inj hn]
    decide
  have hreachable : (start (some []) {}).2.Reachable := .start (some []) {} hbelow
  obtain ⟨s, hstate, hjournal, hnamespaces⟩ : ∃ s, (start (some []) {}).2.state = .idle s ∧
      s.journal?.isSome = true ∧
        (s.begin.stageAll overlongWrites).namespaceChanges = [.set overlong ""] :=
    ⟨_, rfl, rfl, rfl⟩
  obtain ⟨-, hundoes⟩ := hreachable.restores hstate (w := .transaction) rfl overlongWrites
  have hmem : .changeNamespaces (.set overlong "") ∈
      (s.begin.stageAll overlongWrites).operations := by
    refine List.mem_append_right _ ?_
    rw [hnamespaces]
    exact List.mem_cons_self
  refine ⟨s, hreachable, hstate, hundoes.commit _ ((hundoes.fails _).2 ⟨rfl, hjournal, ?_, ?_⟩)⟩
  · exact List.ne_nil_of_mem hmem
  · exact .text hmem List.mem_cons_self isOverlong_overlong

/-! ### The reserved number -/

/-- A session that is opened on a journal whose second record removes the quad of the first one, and
has the number of a bound that is not set. -/
def unbounded : Session :=
  (start (some (Store.insertionJournal [0, 0, 0, 0, 0, 0, 0, 1] ++ [0, 0, 0, 33,
    255, 255, 255, 255, 255, 255, 255, 255, 0, 0, 0, 1, 2, 1, 1, 0, 0, 0, 1, 115,
    1, 0, 0, 0, 1, 112, 1, 0, 0, 0, 1, 111, 0])) { collects := false }).2

/-- There, the removed entry seems not to have been removed. When a transaction removes it again and
is rolled back, the entry becomes live. -/
theorem rollback_reserved : ∃ s s' : Store,
    unbounded.state = .idle s ∧
      ((unbounded.staging .transaction [.removeMatching {} true]).step
        (.rollback .transaction)).2.state = .idle s' ∧
          s.live.get? ⟨⟨1⟩, ⟨2⟩, ⟨3⟩, ⟨0⟩⟩ = none ∧
            s'.live.get? ⟨⟨1⟩, ⟨2⟩, ⟨3⟩, ⟨0⟩⟩ = some ⟨0⟩ :=
  ⟨_, _, rfl, rfl, rfl, rfl⟩

end Session
end QuadStore
