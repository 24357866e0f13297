import QuadStore.Proofs.Moves

/-!
# Pins and their readers

Every named snapshot and every open cursor holds one pin. `Pins.Serves` says that the pins that are
held are those of a list of readers, counted reader by reader; `Session.step_serves` says that the
pins of a session serve its snapshots and cursors after every step. A pin that is gone never comes
back, as no number is given to two of them.
-/

namespace QuadStore

namespace Pins

/-- The pins that are held are those of some readers, each with its pin and its snapshot. -/
structure Serves (pins : Pins) (readers : List (PinId × Nat)) : Prop where
  distinct : (pins.held.map (·.id)).Nodup
  fresh : ∀ p ∈ pins.held, p.id.number < pins.nextId
  held : ∀ reader ∈ readers, ∃ p ∈ pins.held, p.id = reader.1 ∧ p.stamp = reader.2
  counted : ∀ p ∈ pins.held, p.holders = readers.countP (·.1 == p.id)
  occupied : ∀ p ∈ pins.held, 0 < p.holders

theorem serves_empty : empty.Serves [] :=
  ⟨List.nodup_nil, by simp [empty], by simp, by simp [empty], by simp [empty]⟩

namespace Serves

variable {pins : Pins} {readers others : List (PinId × Nat)}

theorem perm (h : pins.Serves readers) (hp : readers.Perm others) : pins.Serves others where
  distinct := h.distinct
  fresh := h.fresh
  held := fun reader hr => h.held reader (hp.mem_iff.2 hr)
  counted := fun p hp' => (h.counted p hp').trans (hp.countP_eq _)
  occupied := h.occupied

/-- The pinned snapshots are those that the readers read. -/
theorem exists_stamp_iff (h : pins.Serves readers) (stamp : Nat) :
    (∃ p ∈ pins.held, p.stamp = stamp) ↔ stamp ∈ readers.map (·.2) := by
  rw [List.mem_map]
  constructor
  · rintro ⟨p, hp, rfl⟩
    have hcount := h.occupied p hp
    rw [h.counted p hp, List.countP_pos_iff] at hcount
    obtain ⟨reader, hr, hid⟩ := hcount
    obtain ⟨p', hp', hid', hstamp⟩ := h.held reader hr
    obtain rfl : p' = p :=
      List.inj_on_of_nodup_map h.distinct hp' hp (hid'.trans (eq_of_beq hid))
    exact ⟨reader, hr, hstamp.symm⟩
  · rintro ⟨reader, hr, rfl⟩
    obtain ⟨p, hp, -, hstamp⟩ := h.held reader hr
    exact ⟨p, hp, hstamp⟩

/-- Two pins with one number are the same. -/
theorem eq_of_id_eq (h : pins.Serves readers) {p p' : Pin} (hp : p ∈ pins.held)
    (hp' : p' ∈ pins.held) (hid : p.id = p'.id) : p = p' :=
  List.inj_on_of_nodup_map h.distinct hp hp' hid

/-- The number of a new pin is held by no reader. -/
theorem not_mem_of_nextId (h : pins.Serves readers) {reader : PinId × Nat} (hr : reader ∈ readers) :
    reader.1 ≠ ⟨pins.nextId⟩ := by
  intro heq
  obtain ⟨p, hp, hid, -⟩ := h.held reader hr
  have hfresh := h.fresh p hp
  rw [hid, heq] at hfresh
  exact Nat.lt_irrefl _ hfresh

theorem add (h : pins.Serves readers) (stamp : Nat) :
    (pins.add stamp).2.Serves (((pins.add stamp).1, stamp) :: readers) where
  distinct := by
    show ((pins.held ++ [⟨⟨pins.nextId⟩, stamp, 1⟩] : List Pin).map (·.id)).Nodup
    rw [List.map_append, List.nodup_append]
    refine ⟨h.distinct, List.nodup_singleton _, ?_⟩
    intro id hid id' hid' heq
    obtain ⟨p, hp, rfl⟩ := List.mem_map.1 hid
    have hfresh := h.fresh p hp
    rw [heq, List.mem_singleton.1 hid'] at hfresh
    exact Nat.lt_irrefl _ hfresh
  fresh := by
    intro p hp
    rcases List.mem_append.1 hp with hp | hp
    · exact Nat.lt_succ_of_lt (h.fresh p hp)
    · rw [List.mem_singleton.1 hp]
      exact Nat.lt_succ_self _
  held := by
    intro reader hr
    rcases List.mem_cons.1 hr with rfl | hr
    · exact ⟨_, List.mem_append_right _ (List.mem_singleton_self _), rfl, rfl⟩
    · obtain ⟨p, hp, heq⟩ := h.held reader hr
      exact ⟨p, List.mem_append_left _ hp, heq⟩
  counted := by
    intro p hp
    rw [List.countP_cons]
    rcases List.mem_append.1 hp with hp | hp
    · have hne : ((pins.add stamp).1 == p.id) = false := by
        rw [beq_eq_false_iff_ne]
        intro heq
        have hfresh := h.fresh p hp
        rw [← heq] at hfresh
        exact Nat.lt_irrefl _ hfresh
      rw [h.counted p hp, hne]
      rfl
    · rw [List.mem_singleton.1 hp, List.countP_eq_zero.2]
      · simp [Pins.add]
      · intro reader hr
        rw [beq_iff_eq]
        exact h.not_mem_of_nextId hr
  occupied := by
    intro p hp
    rcases List.mem_append.1 hp with hp | hp
    · exact h.occupied p hp
    · rw [List.mem_singleton.1 hp]
      exact Nat.one_pos

theorem share (h : pins.Serves readers) {reader : PinId × Nat} (hr : reader ∈ readers) :
    (pins.share reader.1).Serves (reader :: readers) where
  distinct := by
    have hids : (pins.share reader.1).held.map (·.id) = pins.held.map (·.id) := by
      unfold Pins.share
      rw [List.map_map]
      refine List.map_congr_left fun p _ => ?_
      rw [Function.comp_apply]
      split <;> rfl
    rw [hids]
    exact h.distinct
  fresh := by
    intro p hp
    obtain ⟨old, hold, hid, -⟩ := exists_of_mem_share hp
    rw [hid]
    exact h.fresh old hold
  held := by
    intro other ho
    have hother : other ∈ readers := by
      rcases List.mem_cons.1 ho with rfl | ho
      · exact hr
      · exact ho
    obtain ⟨p, hp, hid, hstamp⟩ := h.held other hother
    refine ⟨_, List.mem_map_of_mem hp, ?_⟩
    split <;> exact ⟨hid, hstamp⟩
  counted := by
    intro p hp
    obtain ⟨old, hold, hid, -, hholders⟩ := exists_of_mem_share hp
    rw [hid, hholders, List.countP_cons, h.counted old hold]
    by_cases hshared : old.id = reader.1
    · simp [hshared]
    · simp [hshared, Ne.symm hshared]
  occupied := by
    intro p hp
    obtain ⟨old, hold, -, -, hholders⟩ := exists_of_mem_share hp
    have hpos := h.occupied old hold
    rw [hholders]
    split <;> omega

/-- The readers of a pin are counted without the one that lets go of it. -/
theorem counted_release {reader : PinId × Nat} (h : pins.Serves (reader :: readers)) {p : Pin}
    (hp : p ∈ (pins.release reader.1).held) :
    p.holders = readers.countP (·.1 == p.id) ∧ 0 < p.holders := by
  obtain ⟨old, hold, hid, -, hholders⟩ := exists_of_mem_release hp
  have hcount := h.counted old hold
  have hpos := h.occupied old hold
  rw [List.countP_cons] at hcount
  rw [hid]
  rcases hholders with ⟨hreader, hmore, hholders⟩ | ⟨hother, hholders⟩
  · rw [← hreader, beq_self_eq_true, if_pos rfl] at hcount
    omega
  · rw [beq_eq_false_iff_ne.2 hother.symm, if_neg Bool.false_ne_true] at hcount
    omega

theorem release {reader : PinId × Nat} (h : pins.Serves (reader :: readers)) :
    (pins.release reader.1).Serves readers where
  distinct := h.distinct.sublist (map_id_release_sublist pins reader.1)
  fresh := by
    intro p hp
    obtain ⟨old, hold, hid, -⟩ := exists_of_mem_release hp
    rw [hid]
    exact h.fresh old hold
  held := by
    intro other ho
    obtain ⟨p, hp, hid, hstamp⟩ := h.held other (List.mem_cons_of_mem _ ho)
    by_cases hreader : p.id = reader.1
    · -- the other reader is one of at least two
      have hcount := h.counted p hp
      have hpos : 0 < readers.countP (·.1 == p.id) :=
        List.countP_pos_iff.2 ⟨other, ho, beq_iff_eq.2 hid.symm⟩
      rw [List.countP_cons, ← hreader, beq_self_eq_true, if_pos rfl] at hcount
      refine ⟨{ p with holders := p.holders - 1 }, List.mem_filterMap.2 ⟨p, hp, ?_⟩, hid, hstamp⟩
      rw [if_pos hreader, if_neg (by omega)]
    · refine ⟨p, List.mem_filterMap.2 ⟨p, hp, ?_⟩, hid, hstamp⟩
      rw [if_neg hreader]
  counted := fun p hp => (h.counted_release hp).1
  occupied := fun p hp => (h.counted_release hp).2

end Serves

/-- Of later pins, those that are not new have been held before, for the same snapshot. -/
structure Continues (pins later : Pins) : Prop where
  nextId : pins.nextId ≤ later.nextId
  old : ∀ p ∈ later.held, p.id.number < pins.nextId →
    ∃ o ∈ pins.held, o.id = p.id ∧ o.stamp = p.stamp

namespace Continues

variable {a b c : Pins}

theorem refl (pins : Pins) : pins.Continues pins :=
  ⟨Nat.le_refl _, fun p hp _ => ⟨p, hp, rfl, rfl⟩⟩

theorem trans (hab : a.Continues b) (hbc : b.Continues c) : a.Continues c where
  nextId := Nat.le_trans hab.nextId hbc.nextId
  old := by
    intro p hp hold
    obtain ⟨o, ho, hid, hstamp⟩ := hbc.old p hp (Nat.lt_of_lt_of_le hold hab.nextId)
    rw [← hid] at hold
    obtain ⟨o', ho', hid', hstamp'⟩ := hab.old o ho hold
    exact ⟨o', ho', hid'.trans hid, hstamp'.trans hstamp⟩

theorem add (pins : Pins) (stamp : Nat) : pins.Continues (pins.add stamp).2 where
  nextId := Nat.le_succ _
  old := by
    intro p hp hold
    rcases List.mem_append.1 hp with hp | hp
    · exact ⟨p, hp, rfl, rfl⟩
    · rw [List.mem_singleton.1 hp] at hold
      exact absurd hold (Nat.lt_irrefl _)

theorem share (pins : Pins) (id : PinId) : pins.Continues (pins.share id) where
  nextId := Nat.le_refl _
  old := by
    intro p hp _
    obtain ⟨o, ho, hid, hstamp, -⟩ := exists_of_mem_share hp
    exact ⟨o, ho, hid.symm, hstamp.symm⟩

theorem release (pins : Pins) (id : PinId) : pins.Continues (pins.release id) where
  nextId := Nat.le_refl _
  old := by
    intro p hp _
    obtain ⟨o, ho, hid, hstamp, -⟩ := exists_of_mem_release hp
    exact ⟨o, ho, hid.symm, hstamp.symm⟩

end Continues
end Pins

namespace Store.Repins

variable {s s' : Store}

theorem continues (h : s.Repins s') : s.pins.Continues s'.pins := by
  induction h with
  | refl => exact .refl _
  | add _ ih => exact ih.trans (.add _ _)
  | share id _ ih => exact ih.trans (.share _ id)
  | release id _ ih => exact ih.trans (.release _ id)

/-- Readers that come and go change nothing at any snapshot. -/
theorem keeps (h : s.Repins s') (stamp : Nat) : s.Keeps stamp s' := by
  induction h with
  | refl => exact .refl stamp s
  | add _ ih => exact ⟨ih.dictionary, ih.visible⟩
  | share id _ ih => exact ⟨ih.dictionary, ih.visible⟩
  | release id _ ih => exact ⟨ih.dictionary, ih.visible⟩

end Store.Repins

/-! ## Pinned snapshots are kept -/

/-- The snapshots that are pinned before and afterwards show the same. -/
structure Store.Preserves (s s' : Store) : Prop where
  options : s'.options = s.options
  pins : s.pins.Continues s'.pins
  keeps : ∀ p ∈ s'.pins.held, p.id.number < s.pins.nextId → s.Keeps p.stamp s'

namespace Store.Preserves

variable {s t u : Store}

theorem refl (s : Store) : s.Preserves s := ⟨rfl, .refl _, fun _ _ _ => .refl _ _⟩

theorem trans (hst : s.Preserves t) (htu : t.Preserves u) : s.Preserves u where
  options := htu.options.trans hst.options
  pins := hst.pins.trans htu.pins
  keeps := by
    intro p hp hold
    have hlater := Nat.lt_of_lt_of_le hold hst.pins.nextId
    obtain ⟨o, ho, hid, hstamp⟩ := htu.pins.old p hp hlater
    rw [← hid] at hold
    have hfirst := hst.keeps o ho hold
    rw [hstamp] at hfirst
    exact hfirst.trans (htu.keeps p hp hlater)

/-- Where the pins stay as they are, it is enough that every pinned snapshot is kept. -/
theorem of_keeps (hoptions : t.options = s.options) (hpins : t.pins = s.pins)
    (hkeeps : ∀ p ∈ s.pins.held, s.Keeps p.stamp t) : s.Preserves t where
  options := hoptions
  pins := by
    rw [hpins]
    exact .refl _
  keeps := by
    intro p hp _
    rw [hpins] at hp
    exact hkeeps p hp

theorem of_repins (hr : s.Repins t) : s.Preserves t where
  options := by
    induction hr with
    | refl => rfl
    | add _ ih => exact ih
    | share id _ ih => exact ih
    | release id _ ih => exact ih
  pins := hr.continues
  keeps := fun p _ _ => hr.keeps p.stamp

end Store.Preserves

namespace SessionState

/-- What is pinned in the store of a state is preserved in that of a later one. -/
def Preserves (a b : SessionState) : Prop :=
  ∀ s', b.store? = some s' → ∃ s, a.store? = some s ∧ s.Preserves s'

theorem Preserves.refl (a : SessionState) : a.Preserves a := fun s hs => ⟨s, hs, .refl s⟩

theorem Preserves.trans {a b c : SessionState} (hab : a.Preserves b) (hbc : b.Preserves c) :
    a.Preserves c := by
  intro u hu
  obtain ⟨t, ht, htu⟩ := hbc u hu
  obtain ⟨s, hs, hst⟩ := hab t ht
  exact ⟨s, hs, hst.trans htu⟩

theorem preserves_of_store {a b : SessionState} {s s' : Store} (ha : a.store? = some s)
    (hb : b.store? = some s') (h : s.Preserves s') : a.Preserves b := by
  intro t ht
  rw [hb] at ht
  rw [← Option.some.inj ht]
  exact ⟨s, ha, h⟩

theorem Moves.preserves {a b : SessionState} (hm : a.Moves b) (h : a.Sound) :
    a.Preserves b := by
  cases hm with
  | repin hr =>
    cases hr with
    | closed file => exact .refl _
    | idle hs => exact preserves_of_store rfl rfl (.of_repins hs)
    | writing hs => exact preserves_of_store rfl rfl (.of_repins hs)
  | begin w => exact preserves_of_store rfl rfl (.refl _)
  | @stage w t u hs =>
    obtain ⟨base, hsince⟩ := h
    obtain ⟨_, _, _, hu⟩ := hs.frame hsince.sound
    refine preserves_of_store rfl rfl (.of_keeps (by rw [hu]) (by rw [hu]) fun p hp => ?_)
    exact hs.keeps hsince.sound (hsince.sound.pinned p hp)
  | @rollback w t =>
    obtain ⟨base, hsince⟩ := h
    obtain ⟨_, _, _, hframe⟩ := Transaction.Since.frame_rollback t
    refine preserves_of_store rfl rfl (.of_keeps (by rw [hframe]) (by rw [hframe]) fun p hp => ?_)
    exact hsince.keeps_rollback (.inr ⟨p, hp, rfl⟩)
  | collect =>
    exact preserves_of_store rfl rfl (.of_keeps rfl rfl fun p hp =>
      Store.Sound.keeps_collect h (.inr ⟨p, hp, rfl⟩))
  | @compact s =>
    obtain ⟨journal?, hcompact, -⟩ := s.frame_compact
    have hcollect : s.Preserves s.collect.2 := .of_keeps rfl rfl fun p hp =>
      Store.Sound.keeps_collect h (.inr ⟨p, hp, rfl⟩)
    refine preserves_of_store rfl rfl ?_
    rw [hcompact]
    exact ⟨hcollect.options, hcollect.pins, fun p hp hold =>
      ⟨(hcollect.keeps p hp hold).dictionary, (hcollect.keeps p hp hold).visible⟩⟩

theorem Reaches.preserves {a b : SessionState} (hr : a.Reaches b) (h : a.Sound) :
    a.Preserves b := by
  induction hr with
  | refl => exact .refl _
  | tail hr hm ih => exact ih.trans (hm.preserves (hr.sound h))

theorem Commits.preserves {a b : SessionState} (hc : a.Commits b) (h : a.Sound) (hb : b.Below) :
    a.Preserves b := by
  cases hc with
  | @publish w t journal? hjournal =>
    obtain ⟨base, hsince⟩ := h
    have hbelow := hb.idle
    rw [Transaction.current_publish] at hbelow
    obtain ⟨_, _, hpublish⟩ := Transaction.frame_publish
      { t with store := { t.store with journal? := journal? } } (Stamp.next t.store.current)
    refine preserves_of_store rfl rfl
      (.of_keeps (by rw [hpublish]) (by rw [hpublish]) fun p hp => ?_)
    have hkeeps := (hsince.sound.withJournal journal?).keeps_publish
      hsince.sound.current_lt_next hbelow hp
    exact ⟨hkeeps.dictionary, hkeeps.visible⟩

theorem Goes.preserves {a b : SessionState} (hg : a.Goes b) (h : a.Sound) (hb : b.Below) :
    a.Preserves b := by
  cases hg with
  | quiet hr => exact hr.preserves h
  | commit hr hc => exact (hr.preserves h).trans (hc.preserves (hr.sound h) hb)

end SessionState

/-! ## The readers of a session -/

/-- Whether a step lets readers come or go, or pulls a cursor. -/
def Step.changesReaders : Step → Bool
  | .takeSnapshot .. | .dropSnapshot .. => true
  | .openQuads .. | .openRows .. | .next .. | .close .. | .dropCursor .. => true
  | _ => false

namespace Table

variable {κ α : Type} [DecidableEq κ]

theorem get?_set_self (t : Table κ α) (k : κ) (v : α) : (t.set k v).get? k = some v := by
  rw [get?_set, if_pos rfl]

/-- A key can be put before the others. -/
theorem perm_erase {t : Table κ α} {k : κ} {v : α} (h : t.get? k = some v) :
    t.entries.Perm ((k, v) :: (t.erase k).entries) := by
  have hnew : (k, v) ∉ (t.erase k).entries := by
    rw [← get?_eq_some_iff, get?_erase, if_pos rfl]
    exact Option.some_ne_none v ∘ Eq.symm
  rw [List.perm_ext_iff_of_nodup (.of_map _ t.nodup)
    (List.nodup_cons.2 ⟨hnew, .of_map _ (t.erase k).nodup⟩)]
  rintro ⟨j, w⟩
  rw [List.mem_cons, ← get?_eq_some_iff, ← get?_eq_some_iff, get?_erase, Prod.mk.injEq]
  by_cases hj : j = k
  · rw [if_pos hj, hj, h, Option.some.injEq]
    simp [eq_comm]
  · simp [hj]

/-- A key that is set can be put before the others. -/
theorem perm_set (t : Table κ α) (k : κ) (v : α) :
    (t.set k v).entries.Perm ((k, v) :: (t.erase k).entries) := by
  refine (perm_erase (t.get?_set_self k v)).trans (.cons _ ?_)
  rw [List.perm_ext_iff_of_nodup (.of_map _ ((t.set k v).erase k).nodup)
    (.of_map _ (t.erase k).nodup)]
  rintro ⟨j, w⟩
  rw [← get?_eq_some_iff, ← get?_eq_some_iff, get?_erase, get?_erase, get?_set]
  by_cases hj : j = k
  · rw [if_pos hj, if_pos hj]
  · rw [if_neg hj, if_neg hj, if_neg hj]

theorem erase_of_get?_eq_none {t : Table κ α} {k : κ} (h : t.get? k = none) :
    (t.erase k).entries = t.entries := by
  refine List.filter_eq_self.2 ?_
  rintro ⟨j, w⟩ hmem
  rw [bne_iff_ne]
  rintro rfl
  rw [get?_eq_some_iff.2 hmem] at h
  exact Option.some_ne_none w h

end Table

/-- The pin that a cursor holds, and its snapshot. -/
def OpenCursor.reader? : OpenCursor → Option (PinId × Nat)
  | quads c => c.pin?.map (·, c.stamp)
  | rows c => some (c.pin, c.stamp)

/-- A pull of a row keeps the pin. -/
theorem RowCursor.reader?_next (c : RowCursor) (s : Store) :
    (OpenCursor.rows (c.next s).2).reader? = (OpenCursor.rows c).reader? := by
  unfold next
  split
  · rfl
  · rfl
  · split <;> rfl

namespace Session

variable {session : Session} {extra : List (PinId × Nat)}
  {snapshots : Table String Snapshot} {cursors : Table String OpenCursor}

/-- The pins that snapshots and cursors hold, each with its snapshot. -/
def readers (snapshots : Table String Snapshot) (cursors : Table String OpenCursor) :
    List (PinId × Nat) :=
  snapshots.entries.map (fun e => (e.2.pin, e.2.stamp)) ++ cursors.entries.filterMap (·.2.reader?)

/-- The pins serve the readers of the session and some more. -/
def ServesWith (session : Session) (extra : List (PinId × Nat)) : Prop :=
  ∀ s, session.state.store? = some s →
    s.pins.Serves (extra ++ readers session.snapshots session.cursors)

theorem readers_erase_snapshot {name : String} {snapshot : Snapshot}
    (h : snapshots.get? name = some snapshot) (cursors : Table String OpenCursor) :
    (readers snapshots cursors).Perm
      ((snapshot.pin, snapshot.stamp) :: readers (snapshots.erase name) cursors) :=
  ((Table.perm_erase h).map _).append_right _

theorem readers_set_snapshot (snapshots : Table String Snapshot) (name : String)
    (snapshot : Snapshot) (cursors : Table String OpenCursor) :
    (readers (snapshots.set name snapshot) cursors).Perm
      ((snapshot.pin, snapshot.stamp) :: readers (snapshots.erase name) cursors) :=
  ((snapshots.perm_set name snapshot).map _).append_right _

/-- The reader that a cursor is can be put before the others. -/
theorem readers_cons_cursor (snapshots : Table String Snapshot)
    {entries : List (String × OpenCursor)} {name : String} {c : OpenCursor}
    (h : cursors.entries.Perm ((name, c) :: entries)) :
    (readers snapshots cursors).Perm (c.reader?.toList ++
      (snapshots.entries.map (fun e => (e.2.pin, e.2.stamp)) ++
        entries.filterMap (·.2.reader?))) := by
  have hcons : ((name, c) :: entries).filterMap (·.2.reader?) =
      c.reader?.toList ++ entries.filterMap (·.2.reader?) := by
    rw [List.filterMap_cons]
    dsimp only
    cases c.reader? <;> rfl
  have hperm := (h.filterMap (·.2.reader?)).append_left
    (snapshots.entries.map fun e => (e.2.pin, e.2.stamp))
  rw [hcons] at hperm
  exact hperm.trans (List.perm_append_comm_assoc _ _ _)

theorem readers_erase_cursor (snapshots : Table String Snapshot) {name : String} {c : OpenCursor}
    (h : cursors.get? name = some c) :
    (readers snapshots cursors).Perm
      (c.reader?.toList ++ readers snapshots (cursors.erase name)) :=
  readers_cons_cursor snapshots (Table.perm_erase h)

theorem readers_set_cursor (snapshots : Table String Snapshot) (cursors : Table String OpenCursor)
    (name : String) (c : OpenCursor) :
    (readers snapshots (cursors.set name c)).Perm
      (c.reader?.toList ++ readers snapshots (cursors.erase name)) :=
  readers_cons_cursor snapshots (cursors.perm_set name c)

theorem frame_mapStore (session : Session) (f : Store → Store) :
    (session.mapStore f).state.store? = session.state.store?.map f ∧
      (session.mapStore f).snapshots = session.snapshots ∧
        (session.mapStore f).cursors = session.cursors := by
  unfold mapStore
  cases hstate : session.state with
  | closed file =>
    dsimp only
    rw [hstate]
    exact ⟨rfl, rfl, rfl⟩
  | idle s => exact ⟨rfl, rfl, rfl⟩
  | writing w t => exact ⟨rfl, rfl, rfl⟩

/-- A change of the store has to fit to the readers that there are then. -/
theorem servesWith_of_mapStore {after : Session} {f : Store → Store}
    (hstate : after.state = (session.mapStore f).state)
    (hf : ∀ s, session.state.store? = some s →
      (f s).pins.Serves (extra ++ readers after.snapshots after.cursors)) :
    after.ServesWith extra := by
  intro s' hs'
  rw [hstate, (session.frame_mapStore f).1, Option.map_eq_some_iff] at hs'
  obtain ⟨s, hs, rfl⟩ := hs'
  exact hf s hs

theorem ServesWith.mapStore {f : Store → Store}
    (hf : ∀ s, session.state.store? = some s →
      (f s).pins.Serves (extra ++ readers session.snapshots session.cursors)) :
    (session.mapStore f).ServesWith extra := by
  refine servesWith_of_mapStore rfl fun s hs => ?_
  rw [(session.frame_mapStore f).2.1, (session.frame_mapStore f).2.2]
  exact hf s hs

/-! ### Snapshots -/

theorem servesWith_dropSnapshot (h : session.ServesWith extra) (name : String) :
    (session.dropSnapshot name).ServesWith extra := by
  unfold dropSnapshot
  cases hget : session.snapshots.get? name with
  | none => exact h
  | some snapshot =>
    refine servesWith_of_mapStore rfl fun s hs => ?_
    have hperm := (readers_erase_snapshot hget session.cursors).append_left extra
    have hserves := (h s hs).perm (hperm.trans List.perm_middle)
    show (s.pins.release snapshot.pin).Serves (extra ++ readers _ (session.mapStore _).cursors)
    rw [(session.frame_mapStore _).2.2]
    exact hserves.release

/-- A snapshot that is dropped is not known any more. -/
theorem get?_dropSnapshot (session : Session) (name : String) :
    (session.dropSnapshot name).snapshots.get? name = none := by
  unfold dropSnapshot
  cases hget : session.snapshots.get? name with
  | none => exact hget
  | some snapshot =>
    show (session.snapshots.erase name).get? name = none
    rw [Table.get?_erase, if_pos rfl]

theorem servesWith_keepSnapshot {snapshot : Snapshot}
    (h : session.ServesWith ((snapshot.pin, snapshot.stamp) :: extra)) (name : String) :
    (session.keepSnapshot name snapshot).2.ServesWith extra := by
  intro s hs
  have hserves := servesWith_dropSnapshot h name s hs
  refine hserves.perm ?_
  have hset := (readers_set_snapshot (session.dropSnapshot name).snapshots name snapshot
    (session.dropSnapshot name).cursors).append_left extra
  refine .trans ?_ (hset.trans List.perm_middle).symm
  unfold readers
  rw [Table.erase_of_get?_eq_none (session.get?_dropSnapshot name)]
  rfl

/-- The pin of the latest snapshot is new. -/
theorem ServesWith.add (h : session.ServesWith []) {s : Store} (hs : session.store? = some s) :
    (session.mapStore (·.snapshot.2)).ServesWith [(s.snapshot.1.pin, s.snapshot.1.stamp)] := by
  refine .mapStore fun s' hs' => ?_
  rw [← store?_eq, hs] at hs'
  obtain rfl := Option.some.inj hs'
  rw [store?_eq] at hs
  exact (h s hs).add s.current

/-- The pin of a snapshot can be shared. -/
theorem ServesWith.share (h : session.ServesWith []) {name : String} {snapshot : Snapshot}
    (hget : session.snapshots.get? name = some snapshot) :
    (session.mapStore (·.share snapshot.pin)).ServesWith [(snapshot.pin, snapshot.stamp)] := by
  refine .mapStore fun s hs => ?_
  have hmem : (snapshot.pin, snapshot.stamp) ∈ readers session.snapshots session.cursors :=
    List.mem_append_left _ (List.mem_map.2 ⟨(name, snapshot), Table.get?_eq_some_iff.1 hget, rfl⟩)
  exact (h s hs).share hmem

theorem servesWith_takeSnapshot (h : session.ServesWith []) (name : String)
    (source? : Option String) : (session.takeSnapshot name source?).2.ServesWith [] := by
  unfold takeSnapshot
  cases hs : session.store? with
  | none => exact h
  | some s =>
    cases source? with
    | none => exact servesWith_keepSnapshot (h.add hs) name
    | some source =>
      dsimp only
      cases hget : session.snapshots.get? source with
      | none => exact h
      | some snapshot => exact servesWith_keepSnapshot (h.share hget) name

/-! ### Cursors -/

/-- A cursor that is closed, or dropped, is no reader any more. -/
theorem serves_closeQuads {c : QuadCursor} {s : Store} {others : List (PinId × Nat)}
    (h : s.pins.Serves ((OpenCursor.quads c).reader?.toList ++ others)) :
    (c.close s).2.pins.Serves others := by
  have h : s.pins.Serves ((c.pin?.map (·, c.stamp)).toList ++ others) := h
  unfold QuadCursor.close
  cases hpin : c.pin? with
  | none =>
    rw [hpin] at h
    exact h
  | some pin =>
    rw [hpin] at h
    exact h.release

theorem serves_drop {c : OpenCursor} {s : Store} {others : List (PinId × Nat)}
    (h : s.pins.Serves (c.reader?.toList ++ others)) : (c.drop s).pins.Serves others := by
  cases c with
  | quads c => exact serves_closeQuads h
  | rows c => exact h.release

theorem servesWith_dropCursor (h : session.ServesWith extra) (name : String) :
    (session.dropCursor name).ServesWith extra := by
  unfold dropCursor
  cases hget : session.cursors.get? name with
  | none => exact h
  | some c =>
    refine servesWith_of_mapStore rfl fun s hs => ?_
    have hperm := (readers_erase_cursor session.snapshots hget).append_left extra
    have hserves := (h s hs).perm (hperm.trans (List.perm_append_comm_assoc _ _ _))
    show (c.drop s).pins.Serves (extra ++ readers (session.mapStore _).snapshots _)
    rw [(session.frame_mapStore _).2.1]
    exact serves_drop hserves

theorem get?_dropCursor (session : Session) (name : String) :
    (session.dropCursor name).cursors.get? name = none := by
  unfold dropCursor
  cases hget : session.cursors.get? name with
  | none => exact hget
  | some c =>
    show (session.cursors.erase name).get? name = none
    rw [Table.get?_erase, if_pos rfl]

theorem servesWith_keepCursor {c : OpenCursor} (h : session.ServesWith (c.reader?.toList ++ extra))
    (name : String) : (session.keepCursor name c).2.ServesWith extra := by
  intro s hs
  refine (servesWith_dropCursor h name s hs).perm ?_
  have hset := (readers_set_cursor (session.dropCursor name).snapshots
    (session.dropCursor name).cursors name c).append_left extra
  refine .trans ?_ (hset.trans (List.perm_append_comm_assoc _ _ _)).symm
  rw [List.append_assoc]
  unfold readers
  rw [Table.erase_of_get?_eq_none (session.get?_dropCursor name)]

theorem servesWith_openQuads (h : session.ServesWith []) (name : String) (q : QuadQuery)
    (inferred : Bool) (snapshot? : Option String) :
    (session.openQuads name q inferred snapshot?).2.ServesWith [] := by
  unfold openQuads
  cases hs : session.store? with
  | none => exact h
  | some s =>
    cases snapshot? with
    | none => exact servesWith_keepCursor (h.add hs) name
    | some source =>
      dsimp only
      cases hget : session.snapshots.get? source with
      | none => exact h
      | some snapshot => exact servesWith_keepCursor (h.share hget) name

theorem servesWith_openRows (h : session.ServesWith []) (name : String) (pattern : GraphPattern)
    (bindings : BindingSet) (inferred : Bool) (source : String) :
    (session.openRows name pattern bindings inferred source).2.ServesWith [] := by
  unfold openRows
  cases hs : session.store? with
  | none => exact h
  | some s =>
    dsimp only
    cases hget : session.snapshots.get? source with
    | none => exact h
    | some snapshot =>
      dsimp only
      cases Query.ofPattern pattern bindings with
      | error e => exact h
      | ok query => exact servesWith_keepCursor (h.share hget) name

/-- A pull keeps the pin, or lets go of it. -/
theorem serves_pull {s : Store} {c : OpenCursor} {others : List (PinId × Nat)}
    (h : s.pins.Serves (c.reader?.toList ++ others)) :
    (pull s c).2.2.pins.Serves ((pull s c).2.1.reader?.toList ++ others) := by
  cases c with
  | quads c =>
    show (c.next s).2.2.pins.Serves ((OpenCursor.quads (c.next s).2.1).reader?.toList ++ others)
    unfold QuadCursor.next
    cases QuadCursor.advance s.index c.stamp c.inferred c.scan? c.shapes with
    | none => exact serves_closeQuads h
    | some found =>
      obtain ⟨e, scan, shapes⟩ := found
      dsimp only
      cases s.dictionary.resolveQuad e.quad with
      | ok q => exact h
      | error fault => exact serves_closeQuads h
  | rows c =>
    show s.pins.Serves ((OpenCursor.rows (c.next s).2).reader?.toList ++ others)
    rw [c.reader?_next s]
    exact h

theorem serves_pullMany {s : Store} {c : OpenCursor} {others : List (PinId × Nat)} (n : Nat)
    (h : s.pins.Serves (c.reader?.toList ++ others)) :
    (pullMany s c n).2.2.pins.Serves ((pullMany s c n).2.1.reader?.toList ++ others) := by
  induction n generalizing s c with
  | zero => exact h
  | succ n ih => exact ih (serves_pull h)

theorem servesWith_withCursor (h : session.ServesWith []) (name : String)
    {f : Store → OpenCursor → Answer × OpenCursor × Store}
    (hf : ∀ s c others, s.pins.Serves (c.reader?.toList ++ others) →
      (f s c).2.2.pins.Serves ((f s c).2.1.reader?.toList ++ others)) :
    (session.withCursor name f).2.ServesWith [] := by
  unfold withCursor
  cases hs : session.store? with
  | none => exact h
  | some s =>
    dsimp only
    cases hget : session.cursors.get? name with
    | none => exact h
    | some c =>
      refine servesWith_of_mapStore (f := fun _ => (f s c).2.2) rfl fun s' hs' => ?_
      rw [← store?_eq, hs] at hs'
      obtain rfl := Option.some.inj hs'
      rw [store?_eq] at hs
      have hserves := hf s c _ ((h s hs).perm (readers_erase_cursor session.snapshots hget))
      refine hserves.perm ?_
      show List.Perm _ (readers (session.mapStore _).snapshots _)
      rw [(session.frame_mapStore _).2.1]
      exact (readers_set_cursor _ _ name _).symm

theorem servesWith_next (h : session.ServesWith []) (name : String) (count : Nat) :
    (session.next name count).2.ServesWith [] :=
  servesWith_withCursor h name fun _ _ _ hserves => serves_pullMany count hserves

theorem servesWith_close (h : session.ServesWith []) (name : String) :
    (session.close name).2.ServesWith [] := by
  refine servesWith_withCursor h name fun s c others hserves => ?_
  cases c with
  | quads c => exact serves_closeQuads hserves
  | rows c => exact hserves

/-! ### Steps without readers -/

/-- No reader comes or goes. -/
structure Steady (a b : Session) : Prop where
  snapshots : b.snapshots = a.snapshots
  cursors : b.cursors = a.cursors
  pins : b.state.store?.map (·.pins) = a.state.store?.map (·.pins)

theorem Steady.refl (session : Session) : session.Steady session := ⟨rfl, rfl, rfl⟩

theorem ServesWith.steady (h : session.ServesWith extra) {after : Session}
    (hs : session.Steady after) : after.ServesWith extra := by
  intro s' hs'
  have hpins := hs.pins
  rw [hs', Option.map_some, eq_comm, Option.map_eq_some_iff] at hpins
  obtain ⟨s, hs'', hpins⟩ := hpins
  rw [← hpins, hs.snapshots, hs.cursors]
  exact h s hs''

theorem pins_rollback (t : Transaction) : t.rollback.pins = t.store.pins := by
  obtain ⟨_, _, _, hframe⟩ := Transaction.Since.frame_rollback t
  rw [hframe]

theorem pins_commit (t : Transaction) : t.commit.2.pins = t.store.pins := by
  cases hjournal : t.journalAfter (Stamp.next t.store.current) with
  | error e =>
    rw [Transaction.commit_of_error hjournal]
    exact pins_rollback t
  | ok journal? =>
    obtain ⟨_, _, hpublish⟩ := Transaction.frame_publish
      { t with store := { t.store with journal? := journal? } } (Stamp.next t.store.current)
    rw [Transaction.commit_of_ok hjournal, hpublish]

theorem pins_stages {t u : Transaction} (hs : t.Stages u) (h : t.Sound) :
    u.store.pins = t.store.pins := by
  obtain ⟨_, _, _, hframe⟩ := hs.frame h
  rw [hframe]

theorem pins_committing {α : Type} {s : Store} {result : α × Transaction} (h : s.Sound)
    (hs : s.begin.Stages result.2) : (Store.committing result).2.pins = s.pins := by
  rw [committing_eq]
  exact (pins_commit _).trans (pins_stages hs h)

theorem steady_withIdle {f : Store → Answer × Store}
    (hf : ∀ s, session.state = .idle s → (f s).2.pins = s.pins) :
    session.Steady (session.withIdle f).2 := by
  unfold withIdle
  split
  · exact .refl _
  · exact .refl _
  · rename_i s hs
    refine ⟨rfl, rfl, ?_⟩
    rw [hs]
    exact congrArg some (hf s hs)

theorem steady_withTransaction {w : Writer} {f : Transaction → Answer × SessionState}
    (hf : ∀ t, session.state = .writing w t →
      (f t).2.store?.map (·.pins) = some t.store.pins) :
    session.Steady (session.withTransaction w f).2 := by
  unfold withTransaction
  split
  · exact .refl _
  · rename_i t ht
    have hstate := transactionOf?_eq_some_iff.1 ht
    refine ⟨rfl, rfl, ?_⟩
    rw [hstate]
    exact hf t hstate

theorem steady_begin (w : Writer) : session.Steady (session.begin w).2 := by
  unfold begin
  split
  · exact .refl _
  · rename_i s hs
    split
    · exact ⟨rfl, rfl, by rw [hs]; rfl⟩
    · exact .refl _
  · split
    · exact .refl _
    · split <;> exact .refl _

theorem steady_rollback (w : Writer) : session.Steady (session.rollback w).2 :=
  steady_withTransaction fun t _ => congrArg some (pins_rollback t)

theorem steady_disconnect (name : String) : session.Steady (session.disconnect name) :=
  ⟨(steady_rollback _).snapshots, (steady_rollback _).cursors, (steady_rollback _).pins⟩

theorem steady_connect (name : String) : session.Steady (session.connect name) :=
  ⟨(steady_disconnect name).snapshots, (steady_disconnect name).cursors,
    (steady_disconnect name).pins⟩

/-- A step in which no reader comes or goes. -/
theorem steady_step (h : session.state.Sound) {step : Step} (hopen : step.keepsOpen = true)
    (hreaders : step.changesReaders = false) : session.Steady (session.step step).2 := by
  cases step with
  | reopen edit options => exact absurd hopen Bool.false_ne_true
  | connect name => exact keeps_unlessClosed (.refl _) (steady_connect name)
  | disconnect name => exact keeps_unlessClosed (.refl _) (steady_disconnect name)
  | insert q =>
    refine steady_withIdle fun s hs => ?_
    rw [hs] at h
    exact pins_committing h (Transaction.stages_insert h q true)
  | remove q =>
    refine steady_withIdle fun s hs => ?_
    rw [hs] at h
    exact pins_committing h (Transaction.stages_remove h q true)
  | extend quads =>
    refine steady_withIdle fun s hs => ?_
    rw [hs] at h
    have hstages := stages_insertAll h quads
    exact pins_committing h hstages
  | collect => exact steady_withIdle fun s _ => rfl
  | compact =>
    refine steady_withIdle fun s _ => ?_
    obtain ⟨_, hcompact, -⟩ := s.frame_compact
    exact (congrArg Store.pins hcompact).trans rfl
  | validate => exact steady_withIdle fun s _ => rfl
  | begin w => exact steady_begin w
  | commit w => exact steady_withTransaction fun t _ => congrArg some (pins_commit t)
  | rollback w => exact steady_rollback w
  | write w change =>
    refine steady_withTransaction fun t ht => ?_
    rw [ht] at h
    obtain ⟨base, hsince⟩ := h
    have hstages := (Transaction.stage_eq hsince.sound change).2.2
    exact congrArg some (pins_stages hstages hsince.sound)
  | takeSnapshot | dropSnapshot | openQuads | openRows | next | close | dropCursor =>
    exact absurd hreaders.symm Bool.false_ne_true
  | stats | options | file | files | openAgain | latest | read | isActive => exact .refl _

/-- Every pin is one of a snapshot or a cursor, and each of these has one, after every step. -/
theorem step_serves (h : session.ServesWith []) (hsound : session.state.Sound) {step : Step}
    (hopen : step.keepsOpen = true) : (session.step step).2.ServesWith [] := by
  cases hreaders : step.changesReaders with
  | false => exact h.steady (steady_step hsound hopen hreaders)
  | true =>
    cases step with
    | takeSnapshot name source? => exact servesWith_takeSnapshot h name source?
    | dropSnapshot name =>
      exact keeps_unlessClosed (P := (ServesWith · [])) h (servesWith_dropSnapshot h name)
    | openQuads name q inferred snapshot? => exact servesWith_openQuads h name q inferred snapshot?
    | openRows name pattern bindings inferred snapshot =>
      exact servesWith_openRows h name pattern bindings inferred snapshot
    | next name count => exact servesWith_next h name count
    | close name => exact servesWith_close h name
    | dropCursor name =>
      exact keeps_unlessClosed (P := (ServesWith · [])) h (servesWith_dropCursor h name)
    | _ => exact absurd hreaders Bool.false_ne_true

end Session
end QuadStore
