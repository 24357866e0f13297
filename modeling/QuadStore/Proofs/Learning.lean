import QuadStore.Proofs.Interning
import QuadStore.Proofs.Readability

/-!
# What a dictionary has learnt

A store numbers the terms of the quads that are inserted, by whatever transaction and whether or not
it is committed, and no others; each entry is of one of these quads. `Session.Received` goes with a
session through any steps and keeps what was inserted since the store was opened, and
`Session.Received.recalls` says that the dictionary has learnt just this.
-/

namespace QuadStore

/-! ## What is inserted -/

/-- The quads that an operation of a record inserts. -/
def Operation.quads : Operation → List Quad
  | insert q _ => [q]
  | remove _ _ => []
  | changeNamespaces _ => []

/-- The quads that the replay of a record inserts. -/
def Record.quads (r : Record) : List Quad := r.operations.flatMap Operation.quads

/-- The quads that the replay of a journal inserts. -/
def Journal.quads (bytes : Bytes) : List Quad :=
  match recover bytes with
  | .ok (records, _) => records.flatMap Record.quads
  | .error _ => []

/-- The quads that a change inserts, or would if they were not there. -/
def Write.quads : Write → List Quad
  | insert q _ => [q]
  | remove _ => []
  | removeMatching _ _ => []
  | clear _ => []
  | changeNamespaces _ => []

/-- The quads that a step asks to insert into an open store. -/
def Step.quads : Step → List Quad
  | insert q => [q]
  | extend quads => quads
  | write _ change => change.quads
  | _ => []

namespace Session

/-- Whether the store is open and no transaction is. -/
def isIdle (session : Session) : Bool :=
  match session.state with
  | .closed _ => false
  | .idle _ => true
  | .writing _ _ => false

/-- Whether a step that inserts quads gets to do so: a writer has to hold the transaction, and any
other step has to find none open. -/
def admits (session : Session) : Step → Bool
  | .write w _ => (session.transactionOf? w).isSome
  | _ => session.isIdle

/-- The quads that a step inserts. -/
def insertions (session : Session) (step : Step) : List Quad :=
  if session.admits step then step.quads else []

/-- The quads that are inserted when a store is opened. -/
def replayed (file? : Option Bytes) : List Quad := file?.elim [] Journal.quads

/-- A session whose store could be opened, after any steps that keep it open, and the quads that
were inserted since then. A session that is opened again begins anew. -/
inductive Received : Session → List Quad → Prop
  | start {file? : Option Bytes} {options : StoreOptions} {s : Store} :
      (start file? options).2.state = .idle s →
      Received (start file? options).2 (replayed file?)
  | step {session : Session} {history : List Quad} {step : Step} : session.Received history →
      step.keepsOpen = true →
      Received (session.step step).2 (history ++ session.insertions step)

end Session

/-! ## Stores -/

/-- The dictionary has learnt some quads, and each entry is of one of them. -/
structure Store.Recalls (s : Store) (history : List Quad) : Prop where
  dictionary : s.dictionary = Dictionary.empty.learn history
  entries : ∀ e ∈ s.index.entries, ∃ q ∈ history, s.dictionary.resolveQuad e.quad = .ok q

namespace Store

variable {s s' : Store} {history : List Quad}

theorem recalls_empty (options : StoreOptions) : (empty options).Recalls [] where
  dictionary := rfl
  entries := fun _ he => absurd he List.not_mem_nil

namespace Recalls

/-- Entries may go or change, but for their quads. -/
theorem of_entries (h : s.Recalls history) (hdictionary : s'.dictionary = s.dictionary)
    (hentries : ∀ e ∈ s'.index.entries, ∃ old ∈ s.index.entries, old.quad = e.quad) :
    s'.Recalls history := by
  refine ⟨hdictionary.trans h.dictionary, fun e he => ?_⟩
  obtain ⟨old, hold, hquad⟩ := hentries e he
  rw [hdictionary, ← hquad]
  exact h.entries old hold

/-- The entries and the terms alone matter. -/
theorem transfer (h : s.Recalls history) (hindex : s'.index = s.index)
    (hdictionary : s'.dictionary = s.dictionary) : s'.Recalls history := by
  refine h.of_entries hdictionary fun e he => ⟨e, ?_, rfl⟩
  rw [← hindex]
  exact he

theorem mapEntries (h : s.Recalls history) {f : Entry → Entry} (hf : Index.Faithful f)
    (hindex : s'.index = { s.index with entries := s.index.entries.map f })
    (hdictionary : s'.dictionary = s.dictionary) : s'.Recalls history := by
  refine h.of_entries hdictionary fun e he => ?_
  rw [hindex] at he
  obtain ⟨old, hold, rfl⟩ := List.mem_map.1 he
  exact ⟨old, hold, (hf old).2.symm⟩

theorem modify (h : s.Recalls history) (id : EntryId) {f : Entry → Entry} (hf : Index.Faithful f)
    (hindex : s'.index = s.index.modify id f) (hdictionary : s'.dictionary = s.dictionary) :
    s'.Recalls history :=
  h.mapEntries (hf.changed id) hindex hdictionary

theorem collect (h : s.Recalls history) : s.collect.2.Recalls history :=
  h.of_entries rfl fun e he => ⟨e, (mem_entries_collect.1 he).1, rfl⟩

theorem collectIfAsked (h : s.Recalls history) : s.collectIfAsked.Recalls history := by
  unfold Store.collectIfAsked
  split
  · exact h.collect
  · exact h

theorem compact (h : s.Recalls history) : s.compact.2.Recalls history := by
  obtain ⟨journal?, hcompact, -⟩ := s.frame_compact
  rw [hcompact]
  exact h.collect.transfer rfl rfl

/-- Readers come and go without a word to the dictionary. -/
theorem repins (h : s.Recalls history) (hs : s.Repins s') : s'.Recalls history := by
  induction hs with
  | refl => exact h
  | add _ ih => exact ih.transfer rfl rfl
  | share id _ ih => exact ih.transfer rfl rfl
  | release id _ ih => exact ih.transfer rfl rfl

end Recalls
end Store

/-! ## Transactions -/

namespace Transaction

variable {t u : Transaction} {history : List Quad}

/-- The terms of a quad are numbered before anything else is done about it. -/
theorem recalls_knowing (h : t.store.Recalls history) (q : Quad) :
    (t.knowing q).store.Recalls (history ++ [q]) := by
  refine ⟨?_, fun e he => ?_⟩
  · show (t.store.dictionary.internQuad q).2 = _
    rw [Dictionary.learn_append, ← h.dictionary]
    rfl
  · obtain ⟨known, hmem, hknown⟩ := h.entries e he
    have hwithin := Dictionary.within_internQuad t.store.dictionary q
    exact ⟨known, List.mem_append_left _ hmem, hwithin.resolveQuad hknown⟩

theorem recalls_stageRemoval (h : t.store.Recalls history) (e : Entry) :
    (t.stageRemoval e).store.Recalls history := by
  unfold stageRemoval
  dsimp only
  split
  · exact h.modify e.id (Index.faithful_since Stamp.never) rfl rfl
  · exact h.modify e.id (Index.faithful_till Stamp.pending) rfl rfl

theorem recalls_stageInsertion (h : t.store.Recalls history) {encoded : EncodedQuad} {q : Quad}
    (hq : q ∈ history) (hknown : t.store.dictionary.resolveQuad encoded = .ok q)
    (explicit : Bool) : (t.stageInsertion encoded explicit).store.Recalls history := by
  rw [store_stageInsertion]
  refine ⟨h.dictionary, fun e he => ?_⟩
  rcases List.mem_append.1 he with he | he
  · exact h.entries e he
  · rw [List.mem_singleton.1 he]
    exact ⟨q, hq, hknown⟩

/-- A quad is learnt whether or not it is there already. -/
theorem recalls_insert (h : t.store.Recalls history) (q : Quad) (explicit : Bool) :
    (t.insert q explicit).2.store.Recalls (history ++ [q]) := by
  have hlearned := recalls_knowing h q
  have hmem : q ∈ history ++ [q] := List.mem_append_right _ List.mem_cons_self
  have hknown : (t.knowing q).store.dictionary.resolveQuad (t.store.dictionary.internQuad q).1 =
      .ok q := Dictionary.resolveQuad_internQuad t.store.dictionary q
  rw [insert_eq_knowing]
  split
  · exact recalls_stageInsertion hlearned hmem hknown explicit
  · rename_i e _
    -- an inferred statement that is asserted gives way to the explicit one
    split
    · exact hlearned
    · refine recalls_stageInsertion (recalls_stageRemoval hlearned e) hmem ?_ explicit
      rw [dictionary_stageRemoval]
      exact hknown

theorem recalls_insertAll (h : t.store.Recalls history) (quads : List Quad) :
    (quads.foldl (fun t q => (t.insert q true).2) t).store.Recalls (history ++ quads) := by
  induction quads generalizing t history with
  | nil =>
    rw [List.append_nil]
    exact h
  | cons q rest ih =>
    have hrest := ih (recalls_insert h q true)
    rw [List.append_assoc] at hrest
    exact hrest

/-- What is removed is looked up alone. -/
theorem recalls_remove (h : t.store.Recalls history) (q : Quad) (explicit : Bool) :
    (t.remove q explicit).2.store.Recalls history := by
  unfold remove
  split
  · exact h
  · rename_i e _
    split
    · exact recalls_stageRemoval h e
    · exact h

theorem recalls_removeShapes (h : t.store.Recalls history) (explicit : Bool)
    (shapes : List EncodedShape) : (t.removeShapes explicit shapes).2.store.Recalls history := by
  have hremoveAll : ∀ (es : List Entry) {t : Transaction}, t.store.Recalls history →
      (es.foldl stageRemoval t).store.Recalls history := by
    intro es
    induction es with
    | nil => exact fun h => h
    | cons e rest ih => exact fun h => ih (recalls_stageRemoval h e)
  induction shapes generalizing t with
  | nil => exact h
  | cons shape rest ih => exact ih (hremoveAll _ h)

theorem recalls_stage (h : t.store.Recalls history) (change : Write) :
    (Session.stage t change).2.store.Recalls (history ++ change.quads) := by
  cases change with
  | insert q explicit => exact recalls_insert h q explicit
  | remove q =>
    rw [Write.quads, List.append_nil]
    exact recalls_remove h q true
  | removeMatching q explicit =>
    rw [Write.quads, List.append_nil]
    exact recalls_removeShapes h explicit _
  | clear contexts =>
    rw [Write.quads, List.append_nil]
    exact recalls_removeShapes h true _
  | changeNamespaces change =>
    rw [Write.quads, List.append_nil]
    exact h

theorem recalls_publish (h : t.store.Recalls history) (stamp : Nat) :
    (t.publish stamp).Recalls history := by
  have hsettled : (t.changes.foldl (settle stamp) t.store).Recalls history := by
    have hfaithful : Index.Faithful (settledBy stamp t.changes) := fun _ => ⟨rfl, rfl⟩
    rw [foldl_settle]
    exact h.mapEntries hfaithful rfl rfl
  unfold publish
  exact Store.Recalls.collectIfAsked (hsettled.transfer rfl rfl)

/-- What has been taken back has been learnt all the same. -/
theorem recalls_rollback (h : t.store.Recalls history) : t.rollback.Recalls history := by
  have hreverted : ∀ (changes : List Change) {s : Store}, s.Recalls history →
      (changes.foldl revert s).Recalls history := by
    intro changes
    induction changes with
    | nil => exact fun h => h
    | cons c rest ih =>
      exact fun h =>
        ih (h.modify c.entry (faithful_restored c) (index_revert _ c) (dictionary_revert _ c))
  exact (hreverted _ h).collectIfAsked

theorem recalls_commit (h : t.store.Recalls history) : t.commit.2.Recalls history := by
  cases hjournal : t.journalAfter (Stamp.next t.store.current) with
  | error e =>
    rw [commit_of_error hjournal]
    exact recalls_rollback h
  | ok journal? =>
    rw [commit_of_ok hjournal]
    exact recalls_publish (t := { t with store := { t.store with journal? := journal? } })
      (h.transfer rfl rfl) _

theorem recalls_perform (h : t.store.Recalls history) {op : Operation}
    (hu : t.perform op = .ok u) : u.store.Recalls (history ++ op.quads) := by
  cases op with
  | insert q explicit =>
    rw [← Except.ok.inj hu]
    exact recalls_insert h q explicit
  | remove q explicit =>
    have hremoved := recalls_remove h q explicit
    rw [Operation.quads, List.append_nil]
    unfold perform at hu
    dsimp only at hu
    split at hu
    · rename_i heq
      rw [heq] at hremoved
      rw [← Except.ok.inj hu]
      exact hremoved
    · exact nomatch hu
  | changeNamespaces change =>
    rw [← Except.ok.inj hu, Operation.quads, List.append_nil]
    exact h

end Transaction

/-! ## Replay -/

namespace Store

variable {s s' : Store} {history : List Quad}

theorem recalls_committing {α : Type} {result : α × Transaction}
    (h : result.2.store.Recalls history) : (committing result).2.Recalls history := by
  rw [Session.committing_eq]
  exact Transaction.recalls_commit h

theorem Recalls.replay (h : s.Recalls history) {r : Record} (hs : s.replay r = .ok s') :
    s'.Recalls (history ++ r.quads) := by
  rcases replay_cases hs with ⟨hempty, rfl⟩ | ⟨-, t, ht, rfl⟩
  · rw [Record.quads, hempty, List.flatMap_nil, List.append_nil]
    exact h
  · have hperformed := List.foldlM_collects (P := fun quads t => t.store.Recalls quads)
      (fun hb hperform => Transaction.recalls_perform hb hperform) (b := s.begin) h ht
    exact Transaction.recalls_publish hperformed _

/-- A store that is opened has learnt what its journal inserts, in the order of the journal. -/
theorem recalls_of_openJournal {options : StoreOptions} {bytes : Bytes}
    (hs : (openJournal options bytes).result = .ok s) : s.Recalls (Journal.quads bytes) := by
  unfold openJournal at hs
  unfold Journal.quads
  split at hs
  · cases hs
  · rename_i records kept hrecover
    rw [hrecover]
    obtain ⟨replayed, hfold, hs⟩ := Except.exists_of_bind_eq_ok hs
    have hreplayed := List.foldlM_collects (P := fun quads s => s.Recalls quads)
      (fun hb hreplay => Recalls.replay hb hreplay) (recalls_empty options) hfold
    rw [← Except.ok.inj hs]
    exact hreplayed.transfer rfl rfl

end Store

/-! ## Sessions -/

namespace SessionState

/-- The store is open and has learnt some quads. -/
def Recalls (a : SessionState) (history : List Quad) : Prop :=
  ∃ s, a.store? = some s ∧ s.Recalls history

variable {history : List Quad}

theorem Recalls.store {a : SessionState} (h : a.Recalls history) {s : Store}
    (hs : a.store? = some s) : s.Recalls history := by
  obtain ⟨s', hs', hrecalls⟩ := h
  rw [hs] at hs'
  rw [Option.some.inj hs']
  exact hrecalls

theorem recalls_idle {s : Store} (h : s.Recalls history) : (idle s).Recalls history :=
  ⟨s, rfl, h⟩

theorem recalls_writing {w : Writer} {t : Transaction} (h : t.store.Recalls history) :
    (writing w t).Recalls history :=
  ⟨t.store, rfl, h⟩

theorem Repins.recalls {a b : SessionState} (hr : a.Repins b) (h : a.Recalls history) :
    b.Recalls history := by
  obtain ⟨s, hs, hrecalls⟩ := h
  obtain ⟨s', hs', hrepins⟩ := hr.exists_store hs
  exact ⟨s', hs', hrecalls.repins hrepins⟩

/-- What inserts nothing teaches nothing. -/
theorem Does.recalls {a b : SessionState} {step : Step} (hd : a.Does step b)
    (hquads : step.quads = []) (h : a.Recalls history) : b.Recalls history := by
  cases hd with
  | repin hr => exact hr.recalls h
  | begin w => exact recalls_writing (h.store rfl)
  | stage change =>
    have hlearnt := Transaction.recalls_stage (h.store rfl) change
    rw [show change.quads = [] from hquads, List.append_nil] at hlearnt
    exact recalls_writing hlearnt
  | commit => exact recalls_idle (Transaction.recalls_commit (h.store rfl))
  | rollback => exact recalls_idle (Transaction.recalls_rollback (h.store rfl))
  | insert q => exact nomatch hquads
  | @remove s q =>
    have hremoved := Transaction.recalls_remove (t := s.begin) (h.store rfl) q true
    exact recalls_idle (Store.recalls_committing hremoved)
  | @extend s quads =>
    obtain rfl : quads = [] := hquads
    exact recalls_idle (Store.recalls_committing (h.store rfl))
  | collect => exact recalls_idle (h.store rfl).collect
  | compact => exact recalls_idle (h.store rfl).compact

end SessionState

namespace Session

open SessionState

variable {session : Session} {history : List Quad}

theorem recalls_start {file? : Option Bytes} {options : StoreOptions} {s : Store}
    (hs : (start file? options).2.state = .idle s) : s.Recalls (replayed file?) := by
  unfold start at hs
  split at hs
  · rw [← SessionState.idle.inj hs]
    exact Store.recalls_empty options
  · dsimp only at hs
    split at hs
    · rename_i hresult
      rw [SessionState.idle.inj hs] at hresult
      exact Store.recalls_of_openJournal hresult
    · exact nomatch hs

/-- What is done to an idle store alone is not done otherwise. -/
theorem learns_withIdle (h : session.state.Recalls history) {f : Store → Answer × Store}
    {quads : List Quad} (hf : ∀ s, s.Recalls history → (f s).2.Recalls (history ++ quads)) :
    (session.withIdle f).2.state.Recalls (history ++ if session.isIdle then quads else []) := by
  unfold withIdle isIdle
  split
  · rename_i hstate
    rw [hstate]
    simpa [hstate] using h
  · rename_i hstate
    rw [hstate]
    simpa [hstate] using h
  · rename_i s hstate
    rw [hstate] at h ⊢
    exact recalls_idle (hf s (h.store rfl))

theorem learns_withTransaction (h : session.state.Recalls history) {w : Writer}
    {f : Transaction → Answer × SessionState} {quads : List Quad}
    (hf : ∀ t, t.store.Recalls history → (f t).2.Recalls (history ++ quads)) :
    (session.withTransaction w f).2.state.Recalls
      (history ++ if (session.transactionOf? w).isSome then quads else []) := by
  unfold withTransaction
  split
  · rename_i hnone
    rw [hnone]
    simpa using h
  · rename_i t ht
    rw [ht]
    rw [transactionOf?_eq_some_iff.1 ht] at h
    exact hf t (h.store rfl)

/-- What inserts nothing adds nothing to what has been inserted. -/
theorem insertions_of_quads {step : Step} (h : step.quads = []) : session.insertions step = [] := by
  unfold insertions
  rw [h, ite_self]

/-- In every step that keeps the store open, it learns the quads that the step inserts, and nothing
else. -/
theorem recalls_step (h : session.state.Recalls history) {step : Step}
    (hopen : step.keepsOpen = true) :
    (session.step step).2.state.Recalls (history ++ session.insertions step) := by
  cases step with
  | insert q =>
    exact learns_withIdle h fun s hs =>
      Store.recalls_committing (Transaction.recalls_insert (t := s.begin) hs q true)
  | extend quads =>
    refine learns_withIdle h fun s hs => ?_
    have hinserted := Transaction.recalls_insertAll (t := s.begin) hs quads
    exact Store.recalls_committing hinserted
  | write w change =>
    exact learns_withTransaction h fun t ht =>
      recalls_writing (Transaction.recalls_stage ht change)
  | _ =>
    -- all other steps have nothing to say to the dictionary
    rw [insertions_of_quads rfl, List.append_nil]
    exact (session.step_does hopen).recalls rfl h

/-- The dictionary has learnt what was inserted since the store was opened, and each entry is of a
quad that was. -/
theorem Received.recalls (h : session.Received history) : session.state.Recalls history := by
  induction h with
  | start hs =>
    rw [hs]
    exact recalls_idle (recalls_start hs)
  | step _ hopen ih => exact recalls_step ih hopen

theorem Received.arises (h : session.Received history) : session.Arises := by
  induction h with
  | start _ => exact .start _ _
  | step _ _ ih => exact .step _ ih

/-- While the store is closed, only a step that opens it does anything. -/
theorem step_of_closed {file : Bytes} (h : session.state = .closed file) {step : Step}
    (hopen : step.keepsOpen = true) : (session.step step).2 = session := by
  have hstore : session.store? = none := by
    rw [store?_eq, h]
    rfl
  have htransaction : ∀ w, session.transactionOf? w = none := by
    intro w
    unfold transactionOf?
    rw [h]
  cases step with
  | reopen edit options => exact absurd hopen Bool.false_ne_true
  | _ =>
    simp [Session.step, ask, withIdle, begin, commit, rollback, write, withTransaction,
      takeSnapshot, openQuads, openRows, next, close, withCursor, h, hstore, htransaction]

/-- A store that is open at first has no transaction. -/
theorem exists_received_start {file? : Option Bytes} {options : StoreOptions} {s : Store}
    (hs : (start file? options).2.state.store? = some s) :
    ∃ history, (start file? options).2.Received history := by
  have hidle : (start file? options).2.state = .idle s := by
    unfold start at hs ⊢
    split at hs
    · rw [← Option.some.inj hs]
      rfl
    · dsimp only at hs ⊢
      split at hs
      · rw [← Option.some.inj hs]
        rfl
      · exact absurd hs (Option.some_ne_none _).symm
  exact ⟨_, .start hidle⟩

/-- Whatever the steps are, a store that is open at their end was opened by the last of them that
opens one, and there is something that was inserted since then. -/
theorem Arises.exists_received (h : session.Arises) {s : Store}
    (hs : session.state.store? = some s) : ∃ history, session.Received history := by
  -- a step keeps the store open, if it was, or opens one anew
  induction h generalizing s with
  | start file? options => exact exists_received_start hs
  | @step session step _ ih =>
    cases hopen : step.keepsOpen with
    | true =>
      cases hbefore : session.state with
      | closed file =>
        rw [step_of_closed hbefore hopen, hbefore] at hs
        exact absurd hs (Option.some_ne_none _).symm
      | idle s' =>
        obtain ⟨history, hreceived⟩ := ih (congrArg SessionState.store? hbefore)
        exact ⟨_, .step hreceived hopen⟩
      | writing w t =>
        obtain ⟨history, hreceived⟩ := ih (congrArg SessionState.store? hbefore)
        exact ⟨_, .step hreceived hopen⟩
    | false =>
      cases step with
      | reopen edit options => exact exists_received_start hs
      | _ => exact Bool.noConfusion hopen

end Session
end QuadStore
