import QuadStore.Proofs.Recording

/-!
# Replay

A store that is opened on a journal goes through the transactions of its records again. Whatever
bytes are accepted, the store that comes of them is sound, as each record is replayed by steps that
a transaction could have done.
-/

namespace QuadStore

/-- An operation of a record inserts a quad, removes one or changes the namespaces. -/
theorem Transaction.perform_cases {t u : Transaction} {op : Operation}
    (hu : t.perform op = .ok u) :
    (∃ q explicit, u = (t.insert q explicit).2) ∨ (∃ q explicit, u = (t.remove q explicit).2) ∨
      ∃ change, u = t.changeNamespaces change := by
  cases op with
  | insert q explicit => exact .inl ⟨q, explicit, (Except.ok.inj hu).symm⟩
  | remove q explicit =>
    unfold perform at hu
    dsimp only at hu
    split at hu
    · rename_i heq
      exact .inr (.inl ⟨q, explicit, by rw [heq, Except.ok.inj hu]⟩)
    · exact nomatch hu
  | changeNamespaces change => exact .inr (.inr ⟨change, (Except.ok.inj hu).symm⟩)

namespace Store

variable {s s' : Store}

/-- The operations of a record are steps of a transaction. -/
theorem stages_perform {t u : Transaction} (h : t.Sound) {op : Operation}
    (hu : t.perform op = .ok u) : t.Stages u := by
  obtain ⟨q, explicit, rfl⟩ | ⟨q, explicit, rfl⟩ | ⟨change, rfl⟩ := Transaction.perform_cases hu
  · exact Transaction.stages_insert h q explicit
  · exact Transaction.stages_remove h q explicit
  · exact .changeNamespaces change .refl

theorem stages_foldlM_perform {t u : Transaction} (h : t.Sound) {ops : List Operation}
    (hu : ops.foldlM Transaction.perform t = .ok u) : t.Stages u := by
  refine List.foldlM_keeps (P := fun u => t.Stages u) (fun hb hperform => ?_) .refl hu
  exact hb.trans (stages_perform (hb.sound h) hperform)

/-- A record is replayed by a transaction that is committed with the number of the record, unless
the record is empty. -/
theorem replay_cases {r : Record} (hs : s.replay r = .ok s') :
    r.operations = [] ∧ s' = s ∨ s.current < r.snapshot ∧
      ∃ t, r.operations.foldlM Transaction.perform s.begin = .ok t ∧ s' = t.publish r.snapshot := by
  unfold replay at hs
  split at hs
  · rename_i hempty
    exact .inl ⟨List.isEmpty_iff.1 hempty, (Except.ok.inj hs).symm⟩
  · split at hs
    · simp at hs
    · rename_i hold
      obtain ⟨t, ht, hs⟩ := Except.exists_of_bind_eq_ok hs
      exact .inr ⟨Nat.lt_of_not_le hold, t, ht, (Except.ok.inj hs).symm⟩

/-- Replay never counts down. -/
theorem current_le_of_replay {r : Record} (hs : s.replay r = .ok s') : s.current ≤ s'.current := by
  rcases replay_cases hs with ⟨-, rfl⟩ | ⟨hnew, t, -, rfl⟩
  · exact Nat.le_refl _
  · rw [Transaction.current_publish]
    exact Nat.le_of_lt hnew

theorem current_le_of_foldlM_replay {records : List Record}
    (hs : records.foldlM replay s = .ok s') : s.current ≤ s'.current :=
  List.foldlM_keeps (P := fun s' => s.current ≤ s'.current)
    (fun hb hreplay => Nat.le_trans hb (current_le_of_replay hreplay)) (Nat.le_refl _) hs

theorem Sound.replay (h : s.Sound) {r : Record} (hs : s.replay r = .ok s')
    (hbelow : s'.current < Stamp.pending) : s'.Sound := by
  rcases replay_cases hs with ⟨-, rfl⟩ | ⟨hnew, t, ht, rfl⟩
  · exact h
  · have hsince := (Transaction.Since.begin h).stages (stages_foldlM_perform h ht)
    rw [Transaction.current_publish] at hbelow
    refine hsince.sound.publish ?_ hbelow
    rw [hsince.frame.1]
    exact hnew

/-- Replay has nothing to do with readers, the journal and the options. -/
theorem Sound.frame_replay (h : s.Sound) {r : Record} (hs : s.replay r = .ok s') :
    s'.pins = s.pins ∧ s'.journal? = s.journal? ∧ s'.options = s.options := by
  rcases replay_cases hs with ⟨-, rfl⟩ | ⟨-, t, ht, rfl⟩
  · exact ⟨rfl, rfl, rfl⟩
  · obtain ⟨_, _, _, hframe⟩ := (stages_foldlM_perform h ht).frame h
    obtain ⟨_, _, hpublish⟩ := t.frame_publish r.snapshot
    rw [hpublish, hframe]
    exact ⟨rfl, rfl, rfl⟩

/-- What replay keeps from record to record, it keeps up to the last one while the numbers last. -/
theorem Sound.foldlM_replay {P : Store → Prop}
    (hP : ∀ {a b : Store} {r : Record}, a.Sound → P a → a.replay r = .ok b → P b)
    (h : s.Sound) (hfirst : P s) {records : List Record}
    (hs : records.foldlM Store.replay s = .ok s') (hbelow : s'.current < Stamp.pending) :
    s'.Sound ∧ P s' := by
  induction records generalizing s with
  | nil =>
    rw [← Except.ok.inj hs]
    exact ⟨h, hfirst⟩
  | cons r rest ih =>
    rw [List.foldlM_cons] at hs
    obtain ⟨next, hr, hs⟩ := Except.exists_of_bind_eq_ok hs
    have hnext := Nat.lt_of_le_of_lt (current_le_of_foldlM_replay hs) hbelow
    exact ih (h.replay hr hnext) (hP h hfirst hr) hs

/-- A store that is opened on the bytes of a journal is sound, and nothing is pinned in it. -/
theorem sound_of_openJournal {options : StoreOptions} {bytes : Bytes}
    (hs : (openJournal options bytes).result = .ok s) (hbelow : s.current < Stamp.pending) :
    s.Sound ∧ s.pins = .empty := by
  unfold openJournal at hs
  split at hs
  · simp at hs
  · rename_i records kept _
    obtain ⟨replayed, hfold, hs⟩ := Except.exists_of_bind_eq_ok hs
    rw [← Except.ok.inj hs] at hbelow ⊢
    obtain ⟨hsound, hpins⟩ := (sound_empty options).foldlM_replay (P := fun s => s.pins = .empty)
      (fun ha hpins hb => (ha.frame_replay hb).1.trans hpins) rfl hfold hbelow
    exact ⟨hsound.transfer hsound.pinned rfl ⟨rfl, rfl, rfl, rfl⟩, hpins⟩

end Store

/-- A session that could be opened begins with a sound store, in which nothing is pinned. -/
theorem Session.sound_start {file? : Option Bytes} {options : StoreOptions} {s : Store}
    (hs : (start file? options).2.state = .idle s) (hbelow : s.current < Stamp.pending) :
    s.Sound ∧ s.pins = .empty := by
  unfold start at hs
  split at hs
  · rw [← SessionState.idle.inj hs]
    exact ⟨Store.sound_empty options, rfl⟩
  · dsimp only at hs
    split at hs
    · rename_i hresult
      rw [SessionState.idle.inj hs] at hresult
      exact Store.sound_of_openJournal hresult hbelow
    · simp [ofState] at hs

end QuadStore
