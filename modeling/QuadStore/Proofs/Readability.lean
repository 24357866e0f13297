import QuadStore.Proofs.Replay

/-!
# Readability

Every store of a session is readable: its look-ups miss no entry, and each entry stands for a quad.
Unlike what the live quads and the garbage have to do with the entries, this does not depend on the
stamps, and so it holds whatever the numbers of the snapshots are: `Session.Arises.readable`.
-/

namespace QuadStore

/-! ## Stores -/

namespace Store

variable {s : Store}

theorem readable_empty (options : StoreOptions) : (empty options).Readable :=
  (sound_empty options).readable

theorem Readable.collectIfAsked (h : s.Readable) : s.collectIfAsked.Readable := by
  unfold Store.collectIfAsked
  split
  · exact h.collect
  · exact h

theorem Readable.compact (h : s.Readable) : s.compact.2.Readable := by
  obtain ⟨journal?, hcompact, -⟩ := s.frame_compact
  rw [hcompact]
  exact h.collect.transfer rfl (.refl _)

end Store

/-! ## Transactions -/

namespace Transaction

variable {t u : Transaction}

theorem readable_stageRemoval (h : t.store.Readable) (e : Entry) :
    (t.stageRemoval e).store.Readable := by
  unfold stageRemoval
  dsimp only
  split
  · exact h.modify e.id (Index.faithful_since Stamp.never) rfl rfl
  · exact h.modify e.id (Index.faithful_till Stamp.pending) rfl rfl

theorem readable_insert (h : t.store.Readable) (q : Quad) (explicit : Bool) :
    (t.insert q explicit).2.store.Readable := by
  have hlearned : (t.knowing q).store.Readable :=
    h.transfer rfl (Dictionary.within_internQuad t.store.dictionary q)
  have hknown : (t.knowing q).store.dictionary.resolveQuad (t.store.dictionary.internQuad q).1 =
      .ok q := Dictionary.resolveQuad_internQuad t.store.dictionary q
  rw [insert_eq_knowing]
  split
  · exact readable_stageInsertion hlearned ⟨q, hknown⟩ explicit
  · rename_i e _
    split
    · exact hlearned
    · refine readable_stageInsertion (readable_stageRemoval hlearned e) ⟨q, ?_⟩ explicit
      rw [dictionary_stageRemoval]
      exact hknown

theorem readable_insertAll (h : t.store.Readable) (quads : List Quad) :
    (quads.foldl (fun t q => (t.insert q true).2) t).store.Readable := by
  induction quads generalizing t with
  | nil => exact h
  | cons q rest ih => exact ih (readable_insert h q true)

theorem readable_remove (h : t.store.Readable) (q : Quad) (explicit : Bool) :
    (t.remove q explicit).2.store.Readable := by
  unfold remove
  split
  · exact h
  · rename_i e _
    split
    · exact readable_stageRemoval h e
    · exact h

theorem readable_removeShapes (h : t.store.Readable) (explicit : Bool)
    (shapes : List EncodedShape) : (t.removeShapes explicit shapes).2.store.Readable := by
  have hremoveAll : ∀ (es : List Entry) {t : Transaction}, t.store.Readable →
      (es.foldl stageRemoval t).store.Readable := by
    intro es
    induction es with
    | nil => exact fun h => h
    | cons e rest ih => exact fun h => ih (readable_stageRemoval h e)
  induction shapes generalizing t with
  | nil => exact h
  | cons shape rest ih => exact ih (hremoveAll _ h)

theorem readable_stage (h : t.store.Readable) (change : Write) :
    (Session.stage t change).2.store.Readable := by
  cases change with
  | insert q explicit => exact readable_insert h q explicit
  | remove q => exact readable_remove h q true
  | removeMatching q explicit => exact readable_removeShapes h explicit _
  | clear contexts => exact readable_removeShapes h true _
  | changeNamespaces change => exact h

theorem readable_publish (h : t.store.Readable) (stamp : Nat) : (t.publish stamp).Readable := by
  have hsettled : (t.changes.foldl (settle stamp) t.store).Readable := by
    have hfaithful : Index.Faithful (settledBy stamp t.changes) := fun _ => ⟨rfl, rfl⟩
    rw [foldl_settle]
    exact h.mapEntries hfaithful rfl rfl
  unfold publish
  exact Store.Readable.collectIfAsked (hsettled.transfer rfl (.refl _))

theorem readable_rollback (h : t.store.Readable) : t.rollback.Readable :=
  (readable_foldl_revert h t.changes.reverse).collectIfAsked

theorem readable_commit (h : t.store.Readable) : t.commit.2.Readable := by
  cases hjournal : t.journalAfter (Stamp.next t.store.current) with
  | error e =>
    rw [commit_of_error hjournal]
    exact readable_rollback h
  | ok journal? =>
    rw [commit_of_ok hjournal]
    exact readable_publish (t := { t with store := { t.store with journal? := journal? } })
      (h.transfer rfl (.refl _)) _

theorem readable_perform (h : t.store.Readable) {op : Operation} (hu : t.perform op = .ok u) :
    u.store.Readable := by
  obtain ⟨q, explicit, rfl⟩ | ⟨q, explicit, rfl⟩ | ⟨change, rfl⟩ := perform_cases hu
  · exact readable_insert h q explicit
  · exact readable_remove h q explicit
  · exact h

end Transaction

/-! ## Replay -/

namespace Store

variable {s s' : Store}

theorem readable_committing {α : Type} {result : α × Transaction}
    (h : result.2.store.Readable) : (committing result).2.Readable := by
  rw [Session.committing_eq]
  exact Transaction.readable_commit h

theorem Readable.replay (h : s.Readable) {r : Record} (hs : s.replay r = .ok s') :
    s'.Readable := by
  rcases replay_cases hs with ⟨-, rfl⟩ | ⟨-, t, ht, rfl⟩
  · exact h
  · have hperformed := List.foldlM_keeps (P := fun t : Transaction => t.store.Readable)
      (fun hb hperform => Transaction.readable_perform hb hperform) h ht
    exact Transaction.readable_publish hperformed _

/-- Whatever bytes are accepted, the store that comes of them is readable. -/
theorem readable_of_openJournal {options : StoreOptions} {bytes : Bytes}
    (hs : (openJournal options bytes).result = .ok s) : s.Readable := by
  unfold openJournal at hs
  split at hs
  · cases hs
  · rename_i records kept _
    obtain ⟨replayed, hfold, hs⟩ := Except.exists_of_bind_eq_ok hs
    have hreplayed := List.foldlM_keeps (fun hb hreplay => Readable.replay hb hreplay)
      (readable_empty options) hfold
    rw [← Except.ok.inj hs]
    exact hreplayed.transfer rfl (.refl _)

end Store

/-! ## Sessions -/

namespace SessionState

/-- The store, if there is one, is readable. -/
def Readable (a : SessionState) : Prop := ∀ s, a.store? = some s → s.Readable

theorem readable_idle {s : Store} (h : s.Readable) : (idle s).Readable := by
  intro s' hs
  rw [← Option.some.inj hs]
  exact h

theorem readable_writing {w : Writer} {t : Transaction} (h : t.store.Readable) :
    (writing w t).Readable := by
  intro s hs
  rw [← Option.some.inj hs]
  exact h

theorem Repins.readable {a b : SessionState} (hr : a.Repins b) (h : a.Readable) : b.Readable := by
  cases hr with
  | closed file => exact h
  | idle hs => exact readable_idle (hs.readable (h _ rfl))
  | writing hs => exact readable_writing (hs.readable (h _ rfl))

/-- Whatever a step does to a readable store that stays open, it is readable afterwards. -/
theorem Does.readable {a b : SessionState} {step : Step} (hd : a.Does step b) (h : a.Readable) :
    b.Readable := by
  cases hd with
  | repin hr => exact hr.readable h
  | begin w => exact readable_writing (h _ rfl)
  | stage change => exact readable_writing (Transaction.readable_stage (h _ rfl) change)
  | commit => exact readable_idle (Transaction.readable_commit (h _ rfl))
  | rollback => exact readable_idle (Transaction.readable_rollback (h _ rfl))
  | @insert s q =>
    have hinserted := Transaction.readable_insert (t := s.begin) (h s rfl) q true
    exact readable_idle (Store.readable_committing hinserted)
  | @remove s q =>
    have hremoved := Transaction.readable_remove (t := s.begin) (h s rfl) q true
    exact readable_idle (Store.readable_committing hremoved)
  | @extend s quads =>
    have hinserted := Transaction.readable_insertAll (t := s.begin) (h s rfl) quads
    exact readable_idle (Store.readable_committing hinserted)
  | collect => exact readable_idle (h _ rfl).collect
  | compact => exact readable_idle (h _ rfl).compact

end SessionState

namespace Session

open SessionState

variable {session : Session}

theorem readable_start (file? : Option Bytes) (options : StoreOptions) :
    (start file? options).2.state.Readable := by
  unfold start
  split
  · exact readable_idle (Store.readable_empty options)
  · dsimp only
    split
    · rename_i hresult
      exact readable_idle (Store.readable_of_openJournal hresult)
    · intro s hs
      cases hs

/-- Every step keeps the store readable, and so does opening it again. -/
theorem readable_step (h : session.state.Readable) (step : Step) :
    (session.step step).2.state.Readable := by
  cases hopen : step.keepsOpen with
  | true => exact (session.step_does hopen).readable h
  | false =>
    cases step with
    | reopen edit options => exact readable_start _ options
    | _ => exact Bool.noConfusion hopen

/-- What comes of opening a store and of any steps, whatever the numbers of the snapshots. -/
inductive Arises : Session → Prop
  | start (file? : Option Bytes) (options : StoreOptions) : Arises (start file? options).2
  | step {session : Session} (step : Step) : session.Arises → Arises (session.step step).2

theorem Arises.after {session : Session} (h : session.Arises) (steps : List Step) :
    (session.after steps).Arises := by
  induction steps generalizing session with
  | nil => exact h
  | cons step rest ih => exact ih (h.step step)

/-- A session that can arise has a readable store. -/
theorem Arises.readable (h : session.Arises) : session.state.Readable := by
  induction h with
  | start file? options => exact readable_start file? options
  | step step _ ih => exact readable_step ih step

end Session
end QuadStore
