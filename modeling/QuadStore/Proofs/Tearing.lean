import QuadStore.Proofs.Recording

/-!
# Torn journals

A process that dies while it appends to a journal leaves a prefix of what it would have written. The
records whose frames are complete are read back, the rest is cut off, and the commits of the store
continue the journal from there: `Journal.recover_take`.
-/

namespace QuadStore

/-- What a commit appends to a journal that is read to its end is read after the other records. -/
theorem Transaction.recover_journalAfter {t : Transaction} (hr : t.store.Readable) {stamp : Nat}
    (hstamp : stamp < 2 ^ 64) {bytes : Bytes} {records : List Record}
    (hbytes : t.store.journal? = some (Journal.header ++ bytes))
    (hframes : Journal.Frames bytes records) {journal? : Option Bytes}
    (hafter : t.journalAfter stamp = .ok journal?) :
    ∃ after, journal? = some after ∧ Journal.recover after =
      .ok (records ++ if t.operations.isEmpty then [] else [⟨stamp, t.operations⟩], after) := by
  rw [journalAfter_eq hr, hbytes] at hafter
  dsimp only at hafter
  split at hafter
  · rename_i hempty
    refine ⟨_, (Except.ok.inj hafter).symm, ?_⟩
    rw [if_pos hempty, List.append_nil]
    exact hframes.recover
  · rename_i hsome
    split at hafter
    · rename_i frame hframe
      refine ⟨_, (Except.ok.inj hafter).symm, ?_⟩
      rw [if_neg hsome, List.append_assoc]
      exact (hframes.append (Journal.frames_frame? hstamp hframe)).recover
    · exact nomatch hafter

namespace Journal

variable {frames : List Bytes} {records : List Record}

/-- How many of some frames are complete in the first bytes. -/
def completeIn : List Bytes → Nat → Nat
  | [], _ => 0
  | frame :: rest, k => if frame.length ≤ k then completeIn rest (k - frame.length) + 1 else 0

theorem completeIn_le (frames : List Bytes) (k : Nat) : completeIn frames k ≤ frames.length := by
  induction frames generalizing k with
  | nil => exact Nat.le_refl 0
  | cons frame rest ih =>
    unfold completeIn
    split
    · exact Nat.succ_le_succ (ih _)
    · exact Nat.zero_le _

/-- A frame is counted if it ends within the bytes. -/
theorem lt_completeIn_iff {i k : Nat} (hi : i < frames.length) :
    i < completeIn frames k ↔ (frames.take (i + 1)).flatten.length ≤ k := by
  induction frames generalizing i k with
  | nil => exact absurd hi (Nat.not_lt_zero i)
  | cons frame rest ih =>
    rw [List.take_succ_cons, List.flatten_cons, List.length_append, completeIn]
    split
    · cases i with
      | zero =>
        rw [List.take_zero, List.flatten_nil, List.length_nil]
        omega
      | succ i =>
        have hrest := ih (k := k - frame.length) (Nat.lt_of_succ_lt_succ hi)
        omega
    · omega

/-- A frame that is cut is not complete. -/
theorem splitFrame?_take {r : Record} {frame : Bytes} (h : frame? r = some frame) {k : Nat}
    (hk : k < frame.length) : splitFrame? (frame.take k) = none := by
  obtain ⟨payload, -, h⟩ := Option.bind_eq_some_iff.1 h
  obtain ⟨size, hsize, h⟩ := Option.bind_eq_some_iff.1 h
  obtain ⟨hlength, rfl⟩ := Bytes.ofLength?_eq_some_iff.1 hsize
  obtain rfl := Option.some.inj h
  have hfour := Bytes.length_ofNat 4 payload.length
  rw [Option.eq_none_iff_forall_ne_some]
  rintro ⟨found, rest⟩ hfound
  obtain ⟨size, hsize, hnumber, heq⟩ := splitFrame?_eq_some_iff.1 hfound
  -- the bytes begin with the length of the whole payload, so that they are too few
  have hlengths := congrArg List.length heq
  rw [List.length_take, List.length_append, List.length_append, List.length_append] at hlengths
  rw [List.length_append] at hk
  have hfirst : size = Bytes.ofNat 4 payload.length := by
    have htake := congrArg (List.take 4) heq
    rw [List.take_take, Nat.min_eq_left (by omega), List.take_left' hfour,
      List.take_left' hsize] at htake
    exact htake.symm
  rw [hfirst, Bytes.toNat_ofNat 4 (n := payload.length) hlength] at hnumber
  omega

/-- The first bytes of some frames are those of the complete frames and a tail that has none. -/
theorem exists_take_flatten (h : AreFrames records frames) (k : Nat) :
    ∃ tail, frames.flatten.take k = (frames.take (completeIn frames k)).flatten ++ tail ∧
      splitFrame? tail = none := by
  induction h generalizing k with
  | nil => exact ⟨[], by rw [List.flatten_nil, List.take_nil]; rfl, rfl⟩
  | @cons r frame records rest hr _ ih =>
    rw [List.flatten_cons, completeIn]
    split
    · rename_i hlong
      obtain ⟨tail, htake, htail⟩ := ih (k - frame.length)
      refine ⟨tail, ?_, htail⟩
      rw [List.take_append, List.take_of_length_le hlong, htake, List.take_succ_cons,
        List.flatten_cons, List.append_assoc]
    · rename_i hshort
      have hk : k < frame.length := Nat.lt_of_not_le hshort
      refine ⟨frame.take k, ?_, splitFrame?_take hr hk⟩
      rw [List.take_append_of_le_length (Nat.le_of_lt hk)]
      rfl

/-- What is left of the journal of some records that is cut to its first `k` bytes: the first `m`
records. -/
structure Torn (records : List Record) (frames : List Bytes) (k m : Nat) : Prop where
  le : m ≤ records.length
  /-- These are the records whose frames lie within the bytes. -/
  complete : ∀ i < records.length, i < m ↔ (header ++ (frames.take (i + 1)).flatten).length ≤ k
  /-- They are read, and the journal is left with their frames. -/
  recovered : recover ((header ++ frames.flatten).take k) =
    .ok (records.take m, header ++ (frames.take m).flatten)
  /-- So is the file, and the store that is opened on it. -/
  opened : ∀ options,
    (Store.openJournal options ((header ++ frames.flatten).take k)).file =
        header ++ (frames.take m).flatten ∧
      ∀ s, (Store.openJournal options ((header ++ frames.flatten).take k)).result = .ok s →
        s.journal? = some (header ++ (frames.take m).flatten)
  /-- A record whose frame is appended is read after them. -/
  appended : ∀ r frame, r.snapshot < 2 ^ 64 → frame? r = some frame →
    recover (header ++ (frames.take m).flatten ++ frame) =
      .ok (records.take m ++ [r], header ++ (frames.take m).flatten ++ frame)
  /-- This is how a commit appends its record, if it has one. -/
  committed : ∀ t : Transaction, t.store.Readable →
    t.store.journal? = some (header ++ (frames.take m).flatten) → ∀ n, t.commit.1 = .ok n →
      ∃ after, t.commit.2.journal? = some after ∧ recover after =
        .ok (records.take m ++ if t.operations.isEmpty then [] else [⟨n, t.operations⟩], after)

/-- Wherever the journal of some records is cut behind its header, the records whose frames are
complete are read, the file is left with their frames, and other records can be appended. -/
theorem recover_take (hsnapshots : ∀ r ∈ records, r.snapshot < 2 ^ 64)
    (hframes : AreFrames records frames) {k : Nat} (hk : 4 ≤ k) :
    ∃ m, Torn records frames k m := by
  have hheader : header.length = 4 := rfl
  have hlength := hframes.length_eq
  obtain ⟨tail, htake, htail⟩ := exists_take_flatten hframes (k - 4)
  -- what is kept are frames without a tail, so that any frame can follow
  have hcomplete : Frames (frames.take (completeIn frames (k - 4))).flatten
      (records.take (completeIn frames (k - 4))) :=
    AreFrames.flatten (List.forall₂_take _ hframes) fun r hr =>
      hsnapshots r (List.mem_of_mem_take hr)
  have hrecover : recover ((header ++ frames.flatten).take k) = .ok
      (records.take (completeIn frames (k - 4)),
        header ++ (frames.take (completeIn frames (k - 4))).flatten) := by
    rw [List.take_append, hheader, List.take_of_length_le (by omega), htake, ← List.append_assoc]
    exact hcomplete.recover_append htail
  refine ⟨completeIn frames (k - 4), ?le, ?complete, hrecover, ?opened, ?appended, ?committed⟩
  case le =>
    rw [hlength]
    exact completeIn_le frames (k - 4)
  case complete =>
    intro i hi
    rw [lt_completeIn_iff (hlength ▸ hi), List.length_append, hheader]
    omega
  case opened =>
    intro options
    unfold Store.openJournal
    rw [hrecover]
    refine ⟨rfl, fun s hs => ?_⟩
    obtain ⟨s', -, hs'⟩ := Except.exists_of_bind_eq_ok hs
    rw [← Except.ok.inj hs']
  case appended =>
    intro r frame hr hframe
    rw [List.append_assoc]
    exact (hcomplete.append (frames_frame? hr hframe)).recover
  case committed =>
    intro t hr hjournal n hn
    -- a commit fails before it has appended anything, or appends and then publishes
    cases hafter : t.journalAfter (Stamp.next t.store.current) with
    | error e =>
      rw [Transaction.commit_of_error hafter] at hn
      exact nomatch hn
    | ok journal? =>
      rw [Transaction.commit_of_ok hafter] at hn ⊢
      obtain ⟨_, _, hpublish⟩ := Transaction.frame_publish
        { t with store := { t.store with journal? := journal? } } (Stamp.next t.store.current)
      rw [← Except.ok.inj hn, hpublish]
      exact t.recover_journalAfter hr (Nat.mod_lt _ (by decide)) hjournal hcomplete hafter

/-- Two records, in each of which the namespaces are cleared. -/
def cleared : List Record := [⟨1, [.changeNamespaces .clear]⟩, ⟨2, [.changeNamespaces .clear]⟩]

/-- Their frames, of 17 bytes each. -/
def clearedFrames : List Bytes :=
  [[0, 0, 0, 13, 0, 0, 0, 0, 0, 0, 0, 1, 0, 0, 0, 1, 5],
    [0, 0, 0, 13, 0, 0, 0, 0, 0, 0, 0, 2, 0, 0, 0, 1, 5]]

/-- A cut in the second frame, before its last byte. -/
theorem recover_take_cleared : (∀ r ∈ cleared, r.snapshot < 2 ^ 64) ∧
    AreFrames cleared clearedFrames ∧ 4 ≤ 37 ∧ ∃ m, Torn cleared clearedFrames 37 m := by
  have hsnapshots : ∀ r ∈ cleared, r.snapshot < 2 ^ 64 := by decide
  have hframes : AreFrames cleared clearedFrames := .cons rfl (.cons rfl .nil)
  exact ⟨hsnapshots, hframes, by decide, recover_take hsnapshots hframes (by decide)⟩

end Journal
end QuadStore
