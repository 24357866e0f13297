import QuadStore.Proofs.Encoding
import QuadStore.Proofs.Moves

/-!
# Recording

What a transaction writes to the journal. As every entry stands for a quad, a record can always be
made; only a length that does not fit can keep it from being written.
-/

namespace QuadStore
namespace Transaction

variable {t : Transaction} {s : Store}

/-- The operation that a change is recorded as, in a store whose entries all stand for quads. -/
def recorded? (s : Store) : Change → Option Operation
  | .insert id => do
    let e ← s.index.get? id
    let st ← s.dictionary.statement? e
    if e.since = Stamp.pending then return .insert st.quad st.explicit else none
  | .remove id => do
    let e ← s.index.get? id
    let st ← s.dictionary.statement? e
    return .remove st.quad st.explicit
  | .discard _ => none

theorem operation?_eq (hr : s.Readable) (c : Change) : operation? s c = .ok (recorded? s c) := by
  have hst : ∀ id e, s.index.get? id = some e → ∃ q, s.dictionary.resolveQuad e.quad = .ok q ∧
      s.dictionary.statement? e = some ⟨q, e.explicit⟩ := by
    intro id e he
    obtain ⟨q, hq⟩ := hr.known e (Index.mem_of_get? he)
    exact ⟨q, hq, Dictionary.statement?_eq_some_iff.2 ⟨hq, rfl⟩⟩
  cases c with
  | insert id =>
    simp only [operation?, recorded?]
    cases he : s.index.get? id with
    | none => rfl
    | some e =>
      obtain ⟨q, hq, hstatement⟩ := hst id e he
      simp only [hq, hstatement, Option.bind_eq_bind, Option.bind_some]
      split <;> rfl
  | remove id =>
    simp only [operation?, recorded?]
    cases he : s.index.get? id with
    | none => rfl
    | some e =>
      obtain ⟨q, hq, hstatement⟩ := hst id e he
      simp only [hq, hstatement, Option.bind_eq_bind, Option.bind_some]
      rfl
  | discard id => rfl

/-- The operations of a transaction: those of the changes that have not been undone, then the
changes of the namespaces. -/
def operations (t : Transaction) : List Operation :=
  t.changes.filterMap (recorded? t.store) ++ t.namespaceChanges.map .changeNamespaces

theorem record_eq (hr : t.store.Readable) (stamp : Nat) :
    t.record stamp = .ok ⟨stamp, t.operations⟩ := by
  have hmapM : ∀ changes : List Change, changes.mapM (operation? t.store) =
      .ok (changes.map (recorded? t.store)) := by
    intro changes
    induction changes with
    | nil => rfl
    | cons c rest ih =>
      rw [List.mapM_cons, operation?_eq hr, ih]
      rfl
  unfold record operations
  rw [hmapM]
  show Except.ok _ = _
  rw [List.filterMap_map]
  rfl

/-- A commit fails only if a length does not fit into its record. -/
theorem journalAfter_eq (hr : t.store.Readable) (stamp : Nat) :
    t.journalAfter stamp =
      match t.store.journal? with
      | none => .ok none
      | some bytes =>
        if t.operations.isEmpty then .ok (some bytes)
        else
          match Journal.frame? ⟨stamp, t.operations⟩ with
          | some frame => .ok (some (bytes ++ frame))
          | none => .error .tooLong := by
  unfold journalAfter
  exact record_eq hr stamp ▸ rfl

theorem journalAfter_cases (hr : t.store.Readable) (stamp : Nat) :
    (∃ journal?, t.journalAfter stamp = .ok journal? ∧
      journal?.isSome = t.store.journal?.isSome) ∨
        t.journalAfter stamp = .error .tooLong ∧ t.store.journal?.isSome ∧
          Journal.frame? ⟨stamp, t.operations⟩ = none := by
  rw [journalAfter_eq hr]
  split
  · rename_i hjournal
    exact .inl ⟨none, rfl, by rw [hjournal]⟩
  · rename_i bytes hjournal
    split
    · exact .inl ⟨some bytes, rfl, by rw [hjournal]⟩
    · split
      · exact .inl ⟨_, rfl, by rw [hjournal]; rfl⟩
      · rename_i hframe
        exact .inr ⟨rfl, by rw [hjournal]; rfl, hframe⟩

/-- A commit fails exactly if there is a journal and a length does not fit into the record. -/
theorem Sound.commit_eq_error_iff (h : t.Sound) {e : StoreError} :
    t.commit.1 = .error e ↔ e = .tooLong ∧ t.store.journal?.isSome ∧
      t.operations ≠ [] ∧ Record.Overflows ⟨Stamp.next t.store.current, t.operations⟩ := by
  rw [← Journal.frame?_eq_none_iff]
  have hafter := journalAfter_eq h.readable (Stamp.next t.store.current)
  unfold commit
  dsimp only
  rw [hafter]
  cases t.store.journal? with
  | none => simp
  | some bytes =>
    dsimp only
    cases hoperations : t.operations with
    | nil => simp
    | cons op rest =>
      cases hframe : Journal.frame? ⟨Stamp.next t.store.current, op :: rest⟩ with
      | none => simp [eq_comm]
      | some frame => simp

/-- If a commit fails, the changes are taken back. -/
theorem commit_eq_rollback {e : StoreError} (h : t.commit.1 = .error e) :
    t.commit.2 = t.rollback := by
  cases hafter : t.journalAfter (Stamp.next t.store.current) with
  | error _ => rw [commit_of_error hafter]
  | ok _ =>
    rw [commit_of_ok hafter] at h
    exact nomatch h

end Transaction
end QuadStore
