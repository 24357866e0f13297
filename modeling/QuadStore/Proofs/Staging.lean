import QuadStore.Proofs.Contents

/-!
# Staging

The life of an entry is written in its two stamps. `Entry.Lawful` lists the states in which an
entry can be; two entries of one quad never overlap (`Entry.Apart`). `Transaction.Sound` says so of
all entries of an open transaction, together with what the live quads, the staged changes and the
garbage have to do with them. Every change that a transaction can stage keeps it.
-/

namespace QuadStore

theorem Stamp.pending_lt_never : Stamp.pending < Stamp.never := by decide

/-- A number that is not reserved is the one before the next. -/
theorem Stamp.next_eq {n : Nat} (h : n < Stamp.pending) : Stamp.next n = n + 1 := by
  unfold Stamp.next
  refine Nat.mod_eq_of_lt ?_
  have : Stamp.pending + 1 < Stamp.wordSize := by decide
  omega

namespace Entry

theorem isVisible_iff {e : Entry} {s : Nat} :
    e.isVisible s = true ↔ e.since ≤ s ∧ s < e.till := by
  simp [isVisible]

/-- An entry is taken back, staged, there from some snapshot on (until the open transaction is
committed, perhaps), or removed. -/
def Lawful (current : Nat) (e : Entry) : Prop :=
  e.since = Stamp.never ∧ e.till = Stamp.never ∨ e.since = Stamp.pending ∧ e.till = Stamp.never ∨
    e.since ≤ current ∧ (e.till = Stamp.never ∨ e.till = Stamp.pending) ∨
      e.since < e.till ∧ e.till ≤ current

/-- Of two entries of one quad, the second one is added when the first one has been removed. -/
def Apart (a b : Entry) : Prop :=
  a.quad = b.quad → a.since = Stamp.never ∨ b.since = Stamp.never ∨ a.till ≤ b.since

/-- The entry after its removal by the open transaction. -/
def removed (e : Entry) : Entry :=
  if e.since = Stamp.pending then { e with since := Stamp.never }
  else { e with till := Stamp.pending }

theorem faithful_removed : Index.Faithful removed := by
  intro e
  unfold removed
  split <;> exact ⟨rfl, rfl⟩

/-- Inside of a transaction, an entry is visible exactly if it is not taken back and not removed. -/
theorem Lawful.isVisible_pending_iff {current : Nat} {e : Entry} (h : e.Lawful current)
    (hc : current < Stamp.pending) :
    e.isVisible Stamp.pending = true ↔ e.since ≠ Stamp.never ∧ e.till = Stamp.never := by
  have := Stamp.pending_lt_never
  rw [isVisible_iff]
  unfold Lawful at h
  omega

/-- A staged entry is taken back, and a committed one ends with the transaction. -/
theorem Lawful.removed_stamps {current : Nat} {e : Entry} (h : e.Lawful current)
    (hvisible : e.since ≠ Stamp.never ∧ e.till = Stamp.never) :
    e.since = Stamp.pending ∧ e.removed.since = Stamp.never ∧ e.removed.till = Stamp.never ∨
      e.since ≤ current ∧ e.removed.since = e.since ∧ e.removed.till = Stamp.pending := by
  unfold Lawful at h
  by_cases hpending : e.since = Stamp.pending
  · left
    rw [removed, if_pos hpending]
    exact ⟨hpending, rfl, hvisible.2⟩
  · right
    rw [removed, if_neg hpending]
    exact ⟨by omega, rfl, rfl⟩

theorem Lawful.removed {current : Nat} {e : Entry} (h : e.Lawful current)
    (hvisible : e.since ≠ Stamp.never ∧ e.till = Stamp.never) : e.removed.Lawful current := by
  rcases h.removed_stamps hvisible with ⟨-, hsince, htill⟩ | ⟨hold, hsince, htill⟩
  · exact .inl ⟨hsince, htill⟩
  · rw [← hsince] at hold
    exact .inr (.inr (.inl ⟨hold, .inr htill⟩))

theorem Lawful.isVisible_removed {current : Nat} {e : Entry} (h : e.Lawful current)
    (hvisible : e.since ≠ Stamp.never ∧ e.till = Stamp.never) :
    e.removed.isVisible Stamp.pending = false := by
  have hnever := Stamp.pending_lt_never
  rw [← Bool.not_eq_true, isVisible_iff]
  rcases h.removed_stamps hvisible with ⟨-, hsince, -⟩ | ⟨-, -, htill⟩
  · rw [hsince]
    omega
  · rw [htill]
    omega

/-- A quad with an entry that is there has no later entry that is there. -/
theorem Apart.removed_left {current : Nat} {a b : Entry} (hab : a.Apart b)
    (ha : a.since ≠ Stamp.never ∧ a.till = Stamp.never) (hb : b.Lawful current)
    (hc : current < Stamp.pending) : a.removed.Apart b := by
  intro hq
  rw [(faithful_removed a).2] at hq
  have hnever := Stamp.pending_lt_never
  rcases hab hq with hgone | hgone | hle
  · exact absurd hgone ha.1
  · exact .inr (.inl hgone)
  · rw [ha.2] at hle
    unfold Lawful at hb
    exact .inr (.inl (by omega))

theorem Apart.removed_right {current : Nat} {a b : Entry} (hab : a.Apart b)
    (hb : b.since ≠ Stamp.never ∧ b.till = Stamp.never) (hlawful : b.Lawful current) :
    a.Apart b.removed := by
  intro hq
  rw [(faithful_removed b).2] at hq
  rcases hlawful.removed_stamps hb with ⟨-, hsince, -⟩ | ⟨-, hsince, -⟩
  · exact .inr (.inl hsince)
  · rw [hsince]
    exact hab hq

/-- The entry, removed if it has the number. -/
def removedIf (id : EntryId) (e : Entry) : Entry := if e.id = id then e.removed else e

theorem faithful_removedIf (id : EntryId) : Index.Faithful (removedIf id) :=
  faithful_removed.changed id

end Entry

/-- The entry that is changed. -/
def Change.entry : Change → EntryId
  | insert id => id
  | remove id => id
  | discard id => id

namespace Transaction

/-- What is staged of an entry agrees with its stamps, and it waits to be deleted exactly if it has
been removed or taken back before. -/
structure Accounts (t : Transaction) (e : Entry) : Prop where
  inserted : .insert e.id ∈ t.changes ↔ e.since = Stamp.pending ∨ .discard e.id ∈ t.changes
  removed : .remove e.id ∈ t.changes ↔ e.till = Stamp.pending
  discarded : .discard e.id ∈ t.changes → e.since = Stamp.never
  waiting : e.id ∈ t.store.garbage ↔
    e.till ≤ t.store.current ∨ e.since = Stamp.never ∧ .discard e.id ∉ t.changes

/-- A change of another entry is no change of this one. -/
theorem Accounts.append {t t' : Transaction} {e : Entry} (h : t.Accounts e) {c : Change}
    (hc : c.entry ≠ e.id) (hchanges : t'.changes = t.changes ++ [c])
    (hgarbage : t'.store.garbage = t.store.garbage)
    (hcurrent : t'.store.current = t.store.current) : t'.Accounts e := by
  obtain ⟨hinserted, hremoved, hdiscarded, hwaiting⟩ := h
  have hmember : ∀ other : Change, other.entry = e.id →
      (other ∈ t'.changes ↔ other ∈ t.changes) := by
    intro other hother
    rw [hchanges, List.mem_append, List.mem_singleton, or_iff_left]
    rintro rfl
    exact hc hother
  have hdiscard := hmember (.discard e.id) rfl
  refine ⟨?_, ?_, ?_, ?_⟩
  · rw [hmember _ rfl, hdiscard, hinserted]
  · rw [hmember _ rfl, hremoved]
  · rw [hdiscard]
    exact hdiscarded
  · rw [hdiscard, hgarbage, hcurrent, hwaiting]

/-- The entries, the live quads, the staged changes and the garbage of a transaction agree. -/
structure Sound (t : Transaction) : Prop where
  readable : t.store.Readable
  below : t.store.current < Stamp.pending
  pinned : ∀ p ∈ t.store.pins.held, p.stamp ≤ t.store.current
  lawful : ∀ e ∈ t.store.index.entries, e.Lawful t.store.current
  apart : t.store.index.entries.Pairwise Entry.Apart
  live : ∀ q id, t.store.live.get? q = some id ↔
    ∃ e ∈ t.store.index.entries, e.id = id ∧ e.quad = q ∧ e.isVisible Stamp.pending = true
  accounts : ∀ e ∈ t.store.index.entries, t.Accounts e
  nodupChanges : t.changes.Nodup
  nodupGarbage : t.store.garbage.Nodup
  changed : ∀ c ∈ t.changes, ∃ e ∈ t.store.index.entries, e.id = c.entry
  garbage : ∀ id ∈ t.store.garbage, ∃ e ∈ t.store.index.entries, e.id = id

end Transaction

/-- The entries, the live quads and the garbage of a store agree. -/
def Store.Sound (s : Store) : Prop := s.begin.Sound

theorem Store.sound_empty (options : StoreOptions) : (Store.empty options).Sound where
  readable := ⟨Index.wellFormed_empty, by simp [Store.begin, Store.empty, Index.empty]⟩
  below := by
    show 0 < Stamp.pending
    decide
  pinned := by simp [Store.begin, Store.empty, Pins.empty]
  lawful := by simp [Store.begin, Store.empty, Index.empty]
  apart := .nil
  live := by simp [Store.begin, Store.empty, Index.empty]
  accounts := by simp [Store.begin, Store.empty, Index.empty]
  nodupChanges := .nil
  nodupGarbage := .nil
  changed := by simp [Store.begin]
  garbage := by simp [Store.begin, Store.empty]

namespace Store.Sound

variable {s : Store}

theorem readable (h : s.Sound) : s.Readable := Transaction.Sound.readable h

theorem below (h : s.Sound) : s.current < Stamp.pending := Transaction.Sound.below h

theorem pinned (h : s.Sound) : ∀ p ∈ s.pins.held, p.stamp ≤ s.current := Transaction.Sound.pinned h

theorem lawful (h : s.Sound) : ∀ e ∈ s.index.entries, e.Lawful s.current :=
  Transaction.Sound.lawful h

/-- Outside of a transaction nothing is staged. -/
theorem settled (h : s.Sound) {e : Entry} (he : e ∈ s.index.entries) :
    e.since ≠ Stamp.pending ∧ e.till ≠ Stamp.pending := by
  have haccounts := Transaction.Sound.accounts h e he
  have hinserted := haccounts.inserted
  have hremoved := haccounts.removed
  simp only [begin, List.not_mem_nil, false_iff, or_false] at hinserted hremoved
  exact ⟨hinserted, hremoved⟩

/-- The entries that wait to be deleted are those that are removed or taken back. -/
theorem mem_garbage_iff (h : s.Sound) {e : Entry} (he : e ∈ s.index.entries) :
    e.id ∈ s.garbage ↔ e.till ≤ s.current ∨ e.since = Stamp.never := by
  have hwaiting := (Transaction.Sound.accounts h e he).waiting
  simpa [begin] using hwaiting

end Store.Sound

namespace Transaction

variable {t : Transaction}

/-! ## Visible entries -/

namespace Sound

/-- No quad is visible twice. -/
theorem eq_of_isVisible (h : t.Sound) {s : Nat} (hs : s < Stamp.never) {a b : Entry}
    (ha : a ∈ t.store.index.entries) (hb : b ∈ t.store.index.entries) (hq : a.quad = b.quad)
    (hva : a.isVisible s = true) (hvb : b.isVisible s = true) : a = b := by
  rw [Entry.isVisible_iff] at hva hvb
  obtain ⟨i, hi, rfl⟩ := List.getElem_of_mem ha
  obtain ⟨j, hj, rfl⟩ := List.getElem_of_mem hb
  have hapart := List.pairwise_iff_getElem.1 h.apart
  rcases Nat.lt_trichotomy i j with hlt | rfl | hlt
  · have := hapart i j hi hj hlt hq
    omega
  · rfl
  · have := hapart j i hj hi hlt hq.symm
    omega

/-- The live entries are those that the transaction shows. -/
theorem liveEntry?_eq_some_iff (h : t.Sound) {q : EncodedQuad} {e : Entry} :
    t.liveEntry? q = some e ↔
      e ∈ t.store.index.entries ∧ e.quad = q ∧ e.isVisible Stamp.pending = true := by
  unfold liveEntry?
  rw [Option.bind_eq_some_iff]
  constructor
  · rintro ⟨id, hlive, hget⟩
    obtain ⟨x, hx, hid, hquad, hvisible⟩ := (h.live q id).1 hlive
    rw [← hid, h.readable.indexed.get?_id hx] at hget
    rw [← Option.some.inj hget]
    exact ⟨hx, hquad, hvisible⟩
  · rintro ⟨he, hquad, hvisible⟩
    exact ⟨e.id, (h.live q e.id).2 ⟨e, he, rfl, hquad, hvisible⟩, h.readable.indexed.get?_id he⟩

/-- A quad without a live entry is not there. -/
theorem live_of_liveEntry?_eq_none (h : t.Sound) {q : EncodedQuad}
    (hnone : t.liveEntry? q = none) : t.store.live.get? q = none := by
  cases hlive : t.store.live.get? q with
  | none => rfl
  | some id =>
    obtain ⟨e, he, -, hquad, hvisible⟩ := (h.live q id).1 hlive
    rw [h.liveEntry?_eq_some_iff.2 ⟨he, hquad, hvisible⟩] at hnone
    simp at hnone

end Sound

/-! ## Removal -/

/-- The change that the removal of an entry is. -/
def removal (e : Entry) : Change :=
  if e.since = Stamp.pending then .discard e.id else .remove e.id

theorem entry_removal (e : Entry) : (removal e).entry = e.id := by
  unfold removal
  split <;> rfl

/-- A removal changes the stamps of one entry. -/
theorem stageRemoval_eq (hw : t.store.index.WellFormed) {e : Entry}
    (he : e ∈ t.store.index.entries) :
    t.stageRemoval e =
      { t with
        store := { t.store with
          index := t.store.index.modify e.id Entry.removed
          live := t.store.live.erase e.quad }
        changes := t.changes ++ [removal e] } := by
  have hmodify : ∀ f : Entry → Entry, f e = e.removed →
      t.store.index.modify e.id f = t.store.index.modify e.id Entry.removed := by
    intro f hf
    unfold Index.modify
    congr 1
    refine List.map_congr_left ?_
    intro x hx
    split
    · rename_i hid
      rw [hw.eq_of_id_eq hx he hid, hf]
    · rfl
  unfold stageRemoval removal
  split
  · rename_i hpending
    unfold Index.setSince
    dsimp only
    rw [hmodify _ (by rw [Entry.removed, if_pos hpending])]
  · rename_i hpending
    unfold Index.setTill
    dsimp only
    rw [hmodify _ (by rw [Entry.removed, if_neg hpending])]

/-- An entry that the transaction shows is there, and neither taken back nor removed. -/
theorem Sound.of_mem_visible (h : t.Sound) {e : Entry} (he : e ∈ t.view.visible) :
    e ∈ t.store.index.entries ∧ e.Lawful t.store.current ∧
      e.since ≠ Stamp.never ∧ e.till = Stamp.never := by
  obtain ⟨hmem, hvisible⟩ : e ∈ t.store.index.entries ∧ e.isVisible Stamp.pending = true :=
    View.mem_visible.1 he
  have hlawful := h.lawful e hmem
  exact ⟨hmem, hlawful, (hlawful.isVisible_pending_iff h.below).1 hvisible⟩

/-- A removal is of the one entry with the number. -/
theorem Sound.removedIf_cases (h : t.Sound) {e x : Entry} (he : e ∈ t.store.index.entries)
    (hx : x ∈ t.store.index.entries) :
    x = e ∧ x.removedIf e.id = e.removed ∨ x.id ≠ e.id ∧ x.removedIf e.id = x := by
  by_cases hid : x.id = e.id
  · left
    rw [h.readable.indexed.eq_of_id_eq hx he hid]
    exact ⟨rfl, if_pos rfl⟩
  · exact .inr ⟨hid, if_neg hid⟩

theorem Sound.lawful_removal (h : t.Sound) {e : Entry} (he : e ∈ t.view.visible) :
    ∀ x ∈ t.store.index.entries, (x.removedIf e.id).Lawful t.store.current := by
  intro x hx
  obtain ⟨hmem, hlawful, hshown⟩ := h.of_mem_visible he
  rcases h.removedIf_cases hmem hx with ⟨rfl, heq⟩ | ⟨-, heq⟩
  · rw [heq]
    exact hlawful.removed hshown
  · rw [heq]
    exact h.lawful x hx

theorem Sound.apart_removal (h : t.Sound) {e : Entry} (he : e ∈ t.view.visible) :
    (t.store.index.entries.map (Entry.removedIf e.id)).Pairwise Entry.Apart := by
  obtain ⟨hmem, hlawful, hshown⟩ := h.of_mem_visible he
  rw [List.pairwise_map]
  refine h.apart.imp_of_mem ?_
  intro a b ha hb hab
  have hleft : (a.removedIf e.id).Apart b := by
    rcases h.removedIf_cases hmem ha with ⟨rfl, heq⟩ | ⟨-, heq⟩
    · rw [heq]
      exact hab.removed_left hshown (h.lawful b hb) h.below
    · rw [heq]
      exact hab
  rcases h.removedIf_cases hmem hb with ⟨rfl, heq⟩ | ⟨-, heq⟩
  · rw [heq]
    exact hleft.removed_right hshown hlawful
  · rw [heq]
    exact hleft

/-- The quad of a removed entry is not live any more. -/
theorem Sound.live_removal (h : t.Sound) {e : Entry} (he : e ∈ t.view.visible) (q : EncodedQuad)
    (id : EntryId) :
    (t.store.live.erase e.quad).get? q = some id ↔
      ∃ x ∈ t.store.index.entries.map (Entry.removedIf e.id),
        x.id = id ∧ x.quad = q ∧ x.isVisible Stamp.pending = true := by
  obtain ⟨hmem, hlawful, hshown⟩ := h.of_mem_visible he
  have hvisible := (hlawful.isVisible_pending_iff h.below).2 hshown
  have hfaithful := Entry.faithful_removedIf e.id
  simp only [Table.get?_erase, List.mem_map, exists_exists_and_eq_and]
  split
  · rename_i hq
    refine iff_of_false (by simp) ?_
    rintro ⟨x, hx, -, hquad, hseen⟩
    rw [(hfaithful x).2] at hquad
    rcases h.removedIf_cases hmem hx with ⟨-, heq⟩ | ⟨hid, heq⟩
    · rw [heq, hlawful.isVisible_removed hshown] at hseen
      exact Bool.false_ne_true hseen
    · rw [heq] at hseen
      have hsame := h.eq_of_isVisible Stamp.pending_lt_never hx hmem (hquad.trans hq) hseen hvisible
      exact hid (congrArg Entry.id hsame)
  · rename_i hq
    rw [h.live]
    refine exists_congr fun x => and_congr_right fun hx => ?_
    rw [(hfaithful x).1, (hfaithful x).2]
    refine and_congr_right fun _ => and_congr_right fun hquad => ?_
    rcases h.removedIf_cases hmem hx with ⟨rfl, -⟩ | ⟨-, heq⟩
    · exact absurd hquad.symm hq
    · rw [heq]

/-- An entry that the transaction shows does not wait to be deleted. -/
theorem Accounts.not_mem_garbage {e : Entry} (h : t.Accounts e)
    (hbelow : t.store.current < Stamp.pending)
    (hshown : e.since ≠ Stamp.never ∧ e.till = Stamp.never) : e.id ∉ t.store.garbage := by
  have hnever := Stamp.pending_lt_never
  rw [h.waiting, hshown.2]
  rintro (hle | ⟨hsince, -⟩)
  · omega
  · exact hshown.1 hsince

/-- The removal is the first one of the entry. -/
theorem Accounts.removal_not_mem {e : Entry} (h : t.Accounts e)
    (hshown : e.since ≠ Stamp.never ∧ e.till = Stamp.never) : removal e ∉ t.changes := by
  have hnever := Stamp.pending_lt_never
  unfold removal
  split
  · exact fun hc => hshown.1 (h.discarded hc)
  · rw [h.removed, hshown.2]
    exact Nat.ne_of_gt hnever

/-- The removal of an entry is staged, or it takes back that the entry was. -/
theorem Accounts.removal {t t' : Transaction} {e : Entry} (h : t.Accounts e)
    (hbelow : t.store.current < Stamp.pending) (hlawful : e.Lawful t.store.current)
    (hshown : e.since ≠ Stamp.never ∧ e.till = Stamp.never)
    (hchanges : t'.changes = t.changes ++ [Transaction.removal e])
    (hgarbage : t'.store.garbage = t.store.garbage)
    (hcurrent : t'.store.current = t.store.current) : t'.Accounts e.removed := by
  have hnever := Stamp.pending_lt_never
  have hkept := (Entry.faithful_removed e).1
  have hwaiting := h.not_mem_garbage hbelow hshown
  have hdiscard : .discard e.id ∉ t.changes := fun hc => hshown.1 (h.discarded hc)
  have hremove : .remove e.id ∉ t.changes := by
    rw [h.removed, hshown.2]
    exact Nat.ne_of_gt hnever
  rcases hlawful.removed_stamps hshown with ⟨hsince, hsince', htill'⟩ | ⟨hold, hsince', htill'⟩
  · -- the entry was staged: it is taken back
    have hremoval : Transaction.removal e = .discard e.id := if_pos hsince
    have hinsert : .insert e.id ∈ t.changes := h.inserted.2 (.inl hsince)
    have hfar : ¬ Stamp.never ≤ t.store.current := by omega
    refine ⟨?_, ?_, fun _ => hsince', ?_⟩ <;>
      simp [hkept, hchanges, hgarbage, hcurrent, hremoval, hinsert, hremove, hwaiting, htill', hfar,
        Nat.ne_of_gt hnever]
  · -- the entry was committed: its removal is staged
    have hsince : e.since ≠ Stamp.pending := by omega
    have hremoval : Transaction.removal e = .remove e.id := if_neg hsince
    have hinsert : .insert e.id ∉ t.changes := by
      rw [h.inserted]
      exact not_or.2 ⟨hsince, hdiscard⟩
    have hfar : ¬ Stamp.pending ≤ t.store.current := by omega
    refine ⟨?_, ?_, ?_, ?_⟩ <;>
      simp [hkept, hchanges, hgarbage, hcurrent, hremoval, hinsert, hdiscard, hwaiting, hsince',
        hsince, htill', hfar, hshown.1]

/-- Removing an entry that the transaction shows keeps everything in agreement. -/
theorem Sound.stageRemoval (h : t.Sound) {e : Entry} (he : e ∈ t.view.visible) :
    (t.stageRemoval e).Sound := by
  obtain ⟨hmem, hlawful, hshown⟩ := h.of_mem_visible he
  have hw := h.readable.indexed
  have hfaithful := Entry.faithful_removedIf e.id
  have haccounts := h.accounts e hmem
  have hids : ∀ id, (∃ x ∈ t.store.index.entries, x.id = id) →
      ∃ x ∈ t.store.index.entries.map (Entry.removedIf e.id), x.id = id := by
    rintro id ⟨x, hx, hid⟩
    exact ⟨_, List.mem_map_of_mem hx, by rw [(hfaithful x).1, hid]⟩
  rw [stageRemoval_eq hw hmem]
  refine ⟨h.readable.modify e.id Entry.faithful_removed rfl rfl, h.below, h.pinned, ?_,
    h.apart_removal he, h.live_removal he, ?_, ?_, h.nodupGarbage, ?_,
    fun id hid => hids id (h.garbage id hid)⟩
  · intro x' hx'
    obtain ⟨x, hx, rfl⟩ := List.mem_map.1 hx'
    exact h.lawful_removal he x hx
  · intro x' hx'
    obtain ⟨x, hx, hx'⟩ := List.mem_map.1 hx'
    rw [← hx']
    show Accounts _ (x.removedIf e.id)
    rcases h.removedIf_cases hmem hx with ⟨-, heq⟩ | ⟨hid, heq⟩
    · rw [heq]
      exact haccounts.removal h.below hlawful hshown rfl rfl rfl
    · rw [heq]
      have hother : (removal e).entry ≠ x.id := fun hsame =>
        hid (hsame.symm.trans (entry_removal e))
      exact (h.accounts x hx).append hother rfl rfl rfl
  · have hfirst := haccounts.removal_not_mem hshown
    rw [List.nodup_append]
    refine ⟨h.nodupChanges, List.nodup_singleton _, ?_⟩
    intro c hc c' hc' heq
    rw [heq, List.mem_singleton.1 hc'] at hc
    exact hfirst hc
  · intro c hc
    rcases List.mem_append.1 hc with hc | hc
    · exact hids _ (h.changed c hc)
    · rw [List.mem_singleton.1 hc, entry_removal]
      exact hids _ ⟨e, hmem, rfl⟩

/-! ## Insertion -/

theorem changes_stageInsertion (t : Transaction) (q : EncodedQuad) (explicit : Bool) :
    (t.stageInsertion q explicit).changes = t.changes ++ [.insert ⟨t.store.index.nextId⟩] := rfl

theorem store_stageInsertion (t : Transaction) (q : EncodedQuad) (explicit : Bool) :
    (t.stageInsertion q explicit).store = { t.store with
      index := (t.store.index.insert q explicit Stamp.pending).2
      live := t.store.live.set q ⟨t.store.index.nextId⟩ } := rfl

theorem readable_stageInsertion (h : t.store.Readable) {q : EncodedQuad}
    (hknown : ∃ quad, t.store.dictionary.resolveQuad q = .ok quad) (explicit : Bool) :
    (t.stageInsertion q explicit).store.Readable := by
  rw [store_stageInsertion]
  refine ⟨h.indexed.insert q explicit Stamp.pending, fun e he => ?_⟩
  rcases List.mem_append.1 he with he | he
  · exact h.known e he
  · rw [List.mem_singleton.1 he]
    exact hknown

theorem mem_entries_stageInsertion {q : EncodedQuad} {explicit : Bool} {e : Entry} :
    e ∈ (t.stageInsertion q explicit).store.index.entries ↔
      e ∈ t.store.index.entries ∨ e = t.store.index.inserted q explicit Stamp.pending :=
  List.mem_append.trans (or_congr_right List.mem_singleton)

/-- The number of the next entry is of no entry yet. -/
theorem Sound.id_ne_next (h : t.Sound) {e : Entry} (he : e ∈ t.store.index.entries) :
    e.id ≠ ⟨t.store.index.nextId⟩ := by
  intro hid
  have hlt := h.readable.indexed.fresh e he
  rw [hid] at hlt
  exact Nat.lt_irrefl _ hlt

theorem Sound.entry_ne_next (h : t.Sound) {c : Change} (hc : c ∈ t.changes) :
    c.entry ≠ ⟨t.store.index.nextId⟩ := by
  obtain ⟨e, he, hid⟩ := h.changed c hc
  rw [← hid]
  exact h.id_ne_next he

theorem Sound.next_not_mem_garbage (h : t.Sound) :
    (⟨t.store.index.nextId⟩ : EntryId) ∉ t.store.garbage := by
  intro hid
  obtain ⟨e, he, hid⟩ := h.garbage _ hid
  exact h.id_ne_next he hid

/-- Where a quad is not live, its entries are all over before anything is staged. -/
theorem Sound.apart_insertion (h : t.Sound) {q : EncodedQuad}
    (hfree : t.store.live.get? q = none) (explicit : Bool) :
    (t.store.index.entries ++
      [t.store.index.inserted q explicit Stamp.pending]).Pairwise Entry.Apart := by
  rw [List.pairwise_append]
  refine ⟨h.apart, List.pairwise_singleton _ _, ?_⟩
  intro e he new hnew hq
  rw [List.mem_singleton.1 hnew] at hq ⊢
  have hlawful := h.lawful e he
  have hhidden : ¬ e.isVisible Stamp.pending = true := by
    intro hvisible
    rw [(h.live q e.id).2 ⟨e, he, rfl, hq, hvisible⟩] at hfree
    exact nomatch hfree
  rw [hlawful.isVisible_pending_iff h.below] at hhidden
  have hbelow := h.below
  have hnever := Stamp.pending_lt_never
  show e.since = Stamp.never ∨ Stamp.pending = Stamp.never ∨ e.till ≤ Stamp.pending
  unfold Entry.Lawful at hlawful
  omega

/-- The quad of the new entry is live, and nothing else has changed. -/
theorem Sound.live_insertion (h : t.Sound) {q : EncodedQuad}
    (hfree : t.store.live.get? q = none) (explicit : Bool) (p : EncodedQuad) (id : EntryId) :
    (t.store.live.set q ⟨t.store.index.nextId⟩).get? p = some id ↔
      ∃ e ∈ t.store.index.entries ++ [t.store.index.inserted q explicit Stamp.pending],
        e.id = id ∧ e.quad = p ∧ e.isVisible Stamp.pending = true := by
  have hlive := h.live p id
  simp only [Table.get?_set, List.mem_append, List.mem_singleton, or_and_right, exists_or,
    exists_eq_left]
  split
  · rename_i hp
    subst hp
    rw [hfree] at hlive
    rw [← hlive]
    simp [Index.inserted, Entry.isVisible, Stamp.pending_lt_never]
  · rename_i hp
    rw [hlive, or_iff_left]
    rintro ⟨-, hq, -⟩
    exact hp hq.symm

/-- Of the new entry, the insertion alone is staged. -/
theorem Sound.accounts_insertion (h : t.Sound) (q : EncodedQuad) (explicit : Bool) :
    (t.stageInsertion q explicit).Accounts (t.store.index.inserted q explicit Stamp.pending) := by
  have hnever := Stamp.pending_lt_never
  have hbelow := h.below
  have hfar : ¬ Stamp.never ≤ t.store.current := by omega
  have hwaiting := h.next_not_mem_garbage
  have hremove : .remove ⟨t.store.index.nextId⟩ ∉ t.changes := fun hc => h.entry_ne_next hc rfl
  have hdiscard : .discard ⟨t.store.index.nextId⟩ ∉ t.changes := fun hc => h.entry_ne_next hc rfl
  refine ⟨?_, ?_, ?_, ?_⟩ <;>
    simp [changes_stageInsertion, store_stageInsertion, Index.inserted, hremove, hdiscard, hwaiting,
      hfar, Nat.ne_of_gt hnever, Nat.ne_of_lt hnever]

/-- Inserting an entry of a quad that is not there keeps everything in agreement. -/
theorem Sound.stageInsertion (h : t.Sound) {q : EncodedQuad}
    (hknown : ∃ quad, t.store.dictionary.resolveQuad q = .ok quad)
    (hfree : t.store.live.get? q = none) (explicit : Bool) :
    (t.stageInsertion q explicit).Sound := by
  have hold : ∀ {e : Entry}, e ∈ t.store.index.entries →
      e ∈ (t.stageInsertion q explicit).store.index.entries :=
    fun he => mem_entries_stageInsertion.2 (.inl he)
  refine ⟨readable_stageInsertion h.readable hknown explicit, h.below, h.pinned, ?lawful,
    h.apart_insertion hfree explicit, h.live_insertion hfree explicit, ?accounts, ?nodupChanges,
    h.nodupGarbage, ?changed, ?garbage⟩
  case lawful =>
    intro e he
    rcases mem_entries_stageInsertion.1 he with he | rfl
    · exact h.lawful e he
    · exact .inr (.inl ⟨rfl, rfl⟩)
  case accounts =>
    intro e he
    rcases mem_entries_stageInsertion.1 he with he | rfl
    · exact (h.accounts e he).append (c := .insert ⟨t.store.index.nextId⟩)
        (h.id_ne_next he).symm rfl rfl rfl
    · exact h.accounts_insertion q explicit
  case nodupChanges =>
    refine List.nodup_append.2 ⟨h.nodupChanges, List.nodup_singleton _, ?_⟩
    intro c hc c' hc' heq
    rw [List.mem_singleton.1 hc'] at heq
    exact h.entry_ne_next hc (congrArg Change.entry heq)
  case changed =>
    intro c hc
    rcases List.mem_append.1 hc with hc | hc
    · obtain ⟨e, he, hid⟩ := h.changed c hc
      exact ⟨e, hold he, hid⟩
    · rw [List.mem_singleton.1 hc]
      exact ⟨t.store.index.inserted q explicit Stamp.pending,
        mem_entries_stageInsertion.2 (.inr rfl), rfl⟩
  case garbage =>
    intro id hid
    obtain ⟨e, he, hid⟩ := h.garbage id hid
    exact ⟨e, hold he, hid⟩

/-! ## What the transaction shows -/

theorem live_stageRemoval (t : Transaction) (e : Entry) :
    (t.stageRemoval e).store.live = t.store.live.erase e.quad := by
  unfold stageRemoval
  split <;> rfl

theorem dictionary_stageRemoval (t : Transaction) (e : Entry) :
    (t.stageRemoval e).store.dictionary = t.store.dictionary := by
  unfold stageRemoval
  split <;> rfl

/-- A removed entry is not shown any more. -/
theorem Sound.visible_stageRemoval (h : t.Sound) {e : Entry} (he : e ∈ t.view.visible) :
    (t.stageRemoval e).view.visible = t.view.visible.filter fun x => x.id != e.id := by
  obtain ⟨hmem, hlawful, hshown⟩ := h.of_mem_visible he
  have hgone := hlawful.isVisible_removed hshown
  rw [stageRemoval_eq h.readable.indexed hmem]
  show (t.store.index.entries.map (Entry.removedIf e.id)).filter (·.isVisible Stamp.pending) =
    (t.store.index.entries.filter (·.isVisible Stamp.pending)).filter _
  rw [List.filter_filter, List.filter_map]
  have hfilter : t.store.index.entries.filter
      ((fun x => x.isVisible Stamp.pending) ∘ Entry.removedIf e.id) =
        t.store.index.entries.filter fun x => x.id != e.id && x.isVisible Stamp.pending := by
    refine List.filter_congr ?_
    intro x hx
    rw [Function.comp_apply]
    rcases h.removedIf_cases hmem hx with ⟨rfl, heq⟩ | ⟨hid, heq⟩
    · rw [heq, hgone]
      simp
    · rw [heq]
      simp [hid]
  rw [hfilter]
  refine (List.map_congr_left ?_).trans (List.map_id _)
  intro x hx
  have hid := (List.mem_filter.1 hx).2
  rw [Bool.and_eq_true, bne_iff_ne] at hid
  exact if_neg hid.1

/-- An inserted entry is shown after all others. -/
theorem visible_stageInsertion (t : Transaction) (q : EncodedQuad) (explicit : Bool) :
    (t.stageInsertion q explicit).view.visible =
      t.view.visible ++ [t.store.index.inserted q explicit Stamp.pending] := by
  show (t.store.index.entries ++ [t.store.index.inserted q explicit Stamp.pending]).filter
    (·.isVisible Stamp.pending) = _
  have hnew : (t.store.index.inserted q explicit Stamp.pending).isVisible Stamp.pending = true :=
    Entry.isVisible_iff.2 ⟨Nat.le_refl _, Stamp.pending_lt_never⟩
  rw [List.filter_append, List.filter_cons, if_pos hnew]
  rfl

/-! ## Steps of a transaction -/

/-- What a transaction can do, bit by bit: learn terms, remove an entry that it shows, insert one of
a quad that is not there, and change the namespaces. -/
inductive Stages (t : Transaction) : Transaction → Prop
  | refl : t.Stages t
  | learn {u : Transaction} {d : Dictionary} : t.Stages u → u.store.dictionary.Within d →
      t.Stages { u with store := { u.store with dictionary := d } }
  | remove {u : Transaction} {e : Entry} : t.Stages u → e ∈ u.view.visible →
      t.Stages (u.stageRemoval e)
  | insert {u : Transaction} {q : EncodedQuad} (explicit : Bool) : t.Stages u →
      (∃ quad, u.store.dictionary.resolveQuad q = .ok quad) → u.store.live.get? q = none →
      t.Stages (u.stageInsertion q explicit)
  | changeNamespaces {u : Transaction} (change : NamespaceChange) : t.Stages u →
      t.Stages (u.changeNamespaces change)

/-- The agreement is about the entries, the live quads, the changes and the garbage alone. -/
theorem Sound.transfer (h : t.Sound) {u : Transaction}
    (hdictionary : t.store.dictionary.Within u.store.dictionary)
    (hpins : ∀ p ∈ u.store.pins.held, p.stamp ≤ t.store.current)
    (hstore : u.store.index = t.store.index ∧ u.store.live = t.store.live ∧
      u.store.garbage = t.store.garbage ∧ u.store.current = t.store.current)
    (hchanges : u.changes = t.changes) : u.Sound := by
  obtain ⟨⟨_, index, current, _, live, garbage, _, _, _⟩, changes, _⟩ := u
  dsimp only at hstore hchanges hdictionary hpins
  obtain ⟨rfl, rfl, rfl, rfl⟩ := hstore
  subst hchanges
  exact
    { readable := h.readable.transfer rfl hdictionary
      below := h.below
      pinned := hpins
      lawful := h.lawful
      apart := h.apart
      live := h.live
      accounts := fun e he =>
        have ⟨hinserted, hremoved, hdiscarded, hwaiting⟩ := h.accounts e he
        ⟨hinserted, hremoved, hdiscarded, hwaiting⟩
      nodupChanges := h.nodupChanges
      nodupGarbage := h.nodupGarbage
      changed := h.changed
      garbage := h.garbage }

/-- Learning terms keeps everything in agreement. -/
theorem Sound.learn (h : t.Sound) {d : Dictionary} (hd : t.store.dictionary.Within d) :
    Sound { t with store := { t.store with dictionary := d } } :=
  h.transfer hd h.pinned ⟨rfl, rfl, rfl, rfl⟩ rfl

/-- The journal has nothing to do with the agreement. -/
theorem Sound.withJournal (h : t.Sound) (journal? : Option Bytes) :
    Sound { t with store := { t.store with journal? := journal? } } :=
  h.transfer (.refl _) h.pinned ⟨rfl, rfl, rfl, rfl⟩ rfl

theorem Sound.current_lt_next (h : t.Sound) : t.store.current < Stamp.next t.store.current := by
  rw [Stamp.next_eq h.below]
  exact Nat.lt_succ_self _

theorem Sound.changeNamespaces (h : t.Sound) (change : NamespaceChange) :
    (t.changeNamespaces change).Sound :=
  h.transfer (.refl _) h.pinned ⟨rfl, rfl, rfl, rfl⟩ rfl

/-- Whatever a transaction does keeps everything in agreement. -/
theorem Stages.sound {u : Transaction} (hs : t.Stages u) (h : t.Sound) : u.Sound := by
  induction hs with
  | refl => exact h
  | learn _ hd ih => exact ih.learn hd
  | remove _ he ih => exact ih.stageRemoval he
  | insert explicit _ hknown hfree ih => exact ih.stageInsertion hknown hfree explicit
  | changeNamespaces change _ ih => exact ih.changeNamespaces change

theorem Stages.trans {u v : Transaction} (htu : t.Stages u) (huv : u.Stages v) : t.Stages v := by
  induction huv with
  | refl => exact htu
  | learn _ hd ih => exact .learn ih hd
  | remove _ he ih => exact .remove ih he
  | insert explicit _ hknown hfree ih => exact .insert explicit ih hknown hfree
  | changeNamespaces change _ ih => exact .changeNamespaces change ih

/-- The removal of an entry frees its quad. -/
theorem live_stageRemoval_self (t : Transaction) (e : Entry) :
    (t.stageRemoval e).store.live.get? e.quad = none := by
  rw [live_stageRemoval, Table.get?_erase, if_pos rfl]

/-- The transaction when it has learned the terms of a quad. -/
def knowing (t : Transaction) (q : Quad) : Transaction :=
  { t with store := { t.store with dictionary := (t.store.dictionary.internQuad q).2 } }

theorem insert_eq_knowing (t : Transaction) (q : Quad) (explicit : Bool) :
    t.insert q explicit =
      match liveEntry? (t.knowing q) (t.store.dictionary.internQuad q).1 with
      | none => (true, (t.knowing q).stageInsertion (t.store.dictionary.internQuad q).1 explicit)
      | some e =>
        if e.explicit || !explicit then (false, t.knowing q)
        else (true, ((t.knowing q).stageRemoval e).stageInsertion
          (t.store.dictionary.internQuad q).1 explicit) := rfl

theorem stages_knowing (t : Transaction) (q : Quad) : t.Stages (t.knowing q) :=
  .learn .refl (Dictionary.within_internQuad t.store.dictionary q)

theorem stages_insert (h : t.Sound) (q : Quad) (explicit : Bool) :
    t.Stages (t.insert q explicit).2 := by
  have hlearn := t.stages_knowing q
  have hsound := hlearn.sound h
  have hknown : (t.knowing q).store.dictionary.resolveQuad (t.store.dictionary.internQuad q).1 =
      .ok q := Dictionary.resolveQuad_internQuad t.store.dictionary q
  rw [insert_eq_knowing]
  split
  · rename_i hnone
    exact .insert explicit hlearn ⟨q, hknown⟩ (hsound.live_of_liveEntry?_eq_none hnone)
  · rename_i e hsome
    split
    · exact hlearn
    · obtain ⟨he, hquad, hvisible⟩ := hsound.liveEntry?_eq_some_iff.1 hsome
      refine .insert explicit (.remove hlearn (View.mem_visible.2 ⟨he, hvisible⟩)) ⟨q, ?_⟩ ?_
      · rw [dictionary_stageRemoval]
        exact hknown
      · rw [← hquad]
        exact live_stageRemoval_self _ e

theorem stages_remove (h : t.Sound) (q : Quad) (explicit : Bool) :
    t.Stages (t.remove q explicit).2 := by
  unfold remove
  split
  · exact .refl
  · rename_i e hsome
    obtain ⟨encoded, -, hlive⟩ := Option.bind_eq_some_iff.1 hsome
    obtain ⟨he, -, hvisible⟩ := h.liveEntry?_eq_some_iff.1 hlive
    split
    · exact .remove .refl (View.mem_visible.2 ⟨he, hvisible⟩)
    · exact .refl

/-- Entries that are shown can be removed one after the other. -/
theorem stages_foldl_stageRemoval (h : t.Sound) {es : List Entry}
    (hes : ∀ e ∈ es, e ∈ t.view.visible) (hnodup : (es.map (·.id)).Nodup) :
    t.Stages (es.foldl stageRemoval t) ∧
      (es.foldl stageRemoval t).view.visible =
        t.view.visible.filter fun x => !(es.map (·.id)).contains x.id := by
  induction es generalizing t with
  | nil => exact ⟨.refl, by simp⟩
  | cons e rest ih =>
    rw [List.map_cons, List.nodup_cons] at hnodup
    have he := hes e List.mem_cons_self
    have hremove : t.Stages (t.stageRemoval e) := .remove .refl he
    have hvisible := h.visible_stageRemoval he
    have hrest : ∀ x ∈ rest, x ∈ (t.stageRemoval e).view.visible := by
      intro x hx
      rw [hvisible, List.mem_filter]
      refine ⟨hes x (List.mem_cons_of_mem _ hx), ?_⟩
      rw [bne_iff_ne]
      intro heq
      exact hnodup.1 (heq ▸ List.mem_map_of_mem hx)
    obtain ⟨hstages, hshown⟩ := ih (hremove.sound h) hrest hnodup.2
    refine ⟨hremove.trans hstages, ?_⟩
    rw [List.foldl_cons, hshown, hvisible, List.filter_filter]
    refine List.filter_congr ?_
    intro x _
    by_cases hid : x.id = e.id <;> simp [hid]

end Transaction
end QuadStore
