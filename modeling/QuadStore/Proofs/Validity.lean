import QuadStore.Proofs.Isolation

/-!
# Validation

A store that can be reached is valid whenever no transaction is open: `Store.validate` finds nothing
to complain about. `Store.Valid` says what it looks for, and `Transaction.Tracks` what is left of
this while a transaction is open. Both follow from the invariant of all runs.
-/

/-- Steps that all succeed, one for each element. -/
theorem List.forM_eq_ok {ε α : Type} {f : α → Except ε Unit} {xs : List α}
    (h : ∀ x ∈ xs, f x = .ok ()) : xs.forM f = .ok () := by
  induction xs with
  | nil => rfl
  | cons x rest ih =>
    show (f x >>= fun _ => rest.forM f) = _
    rw [h x List.mem_cons_self]
    exact ih fun y hy => h y (List.mem_cons_of_mem _ hy)

namespace QuadStore

/-- An entry that is removed has been added before. -/
theorem Entry.Lawful.since_lt_till {current : Nat} {e : Entry} (h : e.Lawful current)
    (hbelow : current < Stamp.pending) (hremoved : e.till ≠ Stamp.never) : e.since < e.till := by
  unfold Lawful at h
  omega

namespace Index

variable {index : Index} {role : Role}

theorem require_of_true {holds : Bool} (h : holds = true) (complaint : Corruption) :
    require holds complaint = .ok () := if_pos h

/-- The lists of a role, with their terms. -/
def lists (index : Index) (role : Role) : List ((Role × TermId) × List EntryId) :=
  index.occurrences.entries.filter (·.1.1 == role)

theorem nodup_terms (index : Index) (role : Role) : ((index.lists role).map (·.1.2)).Nodup := by
  have hkeys := Table.nodup_filter (·.1.1 == role) index.occurrences.nodup
  have hpair : (index.lists role).map (·.1) = ((index.lists role).map (·.1.2)).map (role, ·) := by
    rw [List.map_map]
    refine List.map_congr_left fun list hlist => ?_
    have hrole : list.1.1 = role := eq_of_beq (List.mem_filter.1 hlist).2
    exact Prod.ext hrole rfl
  rw [show (index.occurrences.entries.filter _).map _ = _ from hpair] at hkeys
  exact .of_map _ hkeys

namespace WellFormed

/-- In a list are the entries of its term, and there is one. -/
theorem list_eq (hw : index.WellFormed) {list : (Role × TermId) × List EntryId}
    (hlist : list ∈ index.lists role) :
    list.2 = (index.entries.filter fun e => e.quad.part role == list.1.2).map (·.id) ∧
      list.2 ≠ [] := by
  obtain ⟨⟨r, t⟩, ids⟩ := list
  obtain ⟨hmem, hrole⟩ := List.mem_filter.1 hlist
  replace hrole : r = role := eq_of_beq hrole
  rw [hrole] at hmem
  have hget := Table.get?_eq_some_iff.2 hmem
  have hids : index.listOf role t = ids := by
    unfold listOf
    rw [hget]
    rfl
  refine ⟨hids ▸ hw.listed role t, ?_⟩
  rintro rfl
  exact hw.occupied role t hget

/-- The terms with a list are those that play the role in some entry. -/
theorem mem_terms_iff (hw : index.WellFormed) {t : TermId} :
    t ∈ (index.lists role).map (·.1.2) ↔ t ∈ index.entries.map fun e => e.quad.part role := by
  rw [List.mem_map, List.mem_map]
  constructor
  · rintro ⟨list, hlist, rfl⟩
    obtain ⟨hids, hsome⟩ := hw.list_eq hlist
    obtain ⟨id, hid⟩ := List.exists_mem_of_ne_nil list.2 hsome
    rw [hids] at hid
    obtain ⟨e, he, -⟩ := List.mem_map.1 hid
    obtain ⟨he, hpart⟩ := List.mem_filter.1 he
    exact ⟨e, he, eq_of_beq hpart⟩
  · rintro ⟨e, he, rfl⟩
    have hin : e.id ∈ index.listOf role (e.quad.part role) := by
      rw [hw.listed]
      exact List.mem_map_of_mem (List.mem_filter.2 ⟨he, beq_self_eq_true _⟩)
    unfold listOf at hin
    cases hget : index.occurrences.get? (role, e.quad.part role) with
    | none =>
      rw [hget] at hin
      exact absurd hin List.not_mem_nil
    | some ids =>
      exact ⟨_, List.mem_filter.2 ⟨Table.get?_eq_some_iff.1 hget, beq_self_eq_true role⟩, rfl⟩

/-- The lists of a role have one place for each entry. -/
theorem sum_length_lists (hw : index.WellFormed) (role : Role) :
    (index.lists role).foldl (fun n list => n + list.2.length) 0 = index.entries.length := by
  have hsum : (index.lists role).foldl (fun n list => n + list.2.length) 0 =
      ((index.lists role).map (·.2.length)).sum := by
    rw [List.sum_eq_foldl, List.foldl_map]
  have hlengths : (index.lists role).map (·.2.length) =
      ((index.lists role).map (·.1.2)).map fun t =>
        (index.entries.map fun e => e.quad.part role).count t := by
    rw [List.map_map]
    refine List.map_congr_left fun list hlist => ?_
    rw [(hw.list_eq hlist).1, List.length_map, Function.comp_apply, List.count, List.countP_map,
      List.countP_eq_length_filter]
    rfl
  have hperm : ((index.lists role).map (·.1.2)).Perm
      (index.entries.map fun e => e.quad.part role).dedup := by
    rw [List.perm_ext_iff_of_nodup (index.nodup_terms role) (List.nodup_dedup _)]
    intro t
    rw [List.mem_dedup]
    exact hw.mem_terms_iff
  rw [hsum, hlengths, (hperm.map _).sum_eq, List.sum_map_count_dedup_eq_length, List.length_map]

/-- An entry is not listed before, and it is in the lists of its terms. -/
theorem checkEntry_eq (hw : index.WellFormed) {i : Nat} {e : Entry}
    (he : index.entries[i]? = some e) (hstamps : e.till ≠ Stamp.never → e.since < e.till) :
    index.checkEntry (index.entries.take i) e = .ok () := by
  obtain ⟨hi, rfl⟩ := List.getElem?_eq_some_iff.1 he
  have hbefore :
      (index.entries.take i).all (fun other => other.id != index.entries[i].id) = true := by
    rw [List.all_eq_true]
    intro other hother
    obtain ⟨j, hj, rfl⟩ := List.getElem_of_mem hother
    rw [List.length_take] at hj
    rw [List.getElem_take, bne_iff_ne]
    intro heq
    have hlt := List.pairwise_iff_getElem.1 hw.ordered j i (by omega) hi (by omega)
    rw [heq] at hlt
    exact Nat.lt_irrefl _ hlt
  have hordered : (index.entries[i].since == Stamp.never || index.entries[i].till == Stamp.never ||
      decide (index.entries[i].since < index.entries[i].till)) = true := by
    by_cases htill : index.entries[i].till = Stamp.never
    · rw [beq_iff_eq.2 htill, Bool.or_true, Bool.true_or]
    · rw [decide_eq_true (hstamps htill), Bool.or_true]
  unfold checkEntry
  rw [require_of_true hbefore, require_of_true hordered]
  refine List.forM_eq_ok fun role _ => require_of_true ?_ _
  rw [List.contains_iff_mem, hw.listed]
  exact List.mem_map_of_mem (List.mem_filter.2 ⟨List.getElem_mem hi, beq_self_eq_true _⟩)

theorem checkRole_eq (hw : index.WellFormed) (role : Role) : index.checkRole role = .ok () := by
  have hlists : ∀ list ∈ index.lists role, index.checkList role list.1.2 list.2 = .ok () := by
    intro list hlist
    obtain ⟨hids, hsome⟩ := hw.list_eq hlist
    have hempty : (!list.2.isEmpty) = true := by
      rw [Bool.not_eq_true', List.isEmpty_eq_false_iff]
      exact hsome
    unfold checkList
    rw [require_of_true hempty]
    refine List.forM_eq_ok fun id hid => require_of_true ?_ _
    rw [hids] at hid
    obtain ⟨e, he, rfl⟩ := List.mem_map.1 hid
    rw [hw.get?_id (List.mem_filter.1 he).1]
    rfl
  unfold checkRole
  show ((index.lists role).forM (fun list => index.checkList role list.1.2 list.2) >>= _) = _
  rw [List.forM_eq_ok hlists]
  exact require_of_true (beq_iff_eq.2 (hw.sum_length_lists role)) _

/-- Nothing is wrong with an index whose lists agree with its entries, if all these are removed
after they have been added. -/
theorem validate_eq (hw : index.WellFormed)
    (hstamps : ∀ e ∈ index.entries, e.till ≠ Stamp.never → e.since < e.till) :
    index.validate = .ok () := by
  have hentries : ∀ x ∈ index.entries.zipIdx,
      index.checkEntry (index.entries.take x.2) x.1 = .ok () := by
    rintro ⟨e, i⟩ hmem
    have he := List.mem_zipIdx_iff_getElem?.1 hmem
    exact hw.checkEntry_eq he (hstamps e (List.mem_of_getElem? he))
  unfold validate
  show (List.forM index.entries.zipIdx (fun x =>
    index.checkEntry (index.entries.take x.2) x.1) >>= _) = _
  rw [List.forM_eq_ok hentries]
  exact List.forM_eq_ok fun role _ => hw.checkRole_eq role

end WellFormed
end Index

/-! ## Valid stores -/

/-- What holds of a store while no transaction is open. -/
structure Store.Valid (s : Store) : Prop where
  /-- Nothing is found wrong. -/
  validate : s.validate = .ok ()
  /-- An entry stands once among all entries. -/
  nodup : (s.index.entries.map (·.id)).Nodup
  /-- It stands once in the lists of its terms, and in no other list. -/
  listed : ∀ e ∈ s.index.entries, ∀ role t,
    (s.index.listOf role t).count e.id = if e.quad.part role = t then 1 else 0
  /-- There are only entries in the lists, and no list is empty. -/
  lists : ∀ role t ids, s.index.occurrences.get? (role, t) = some ids →
    ids ≠ [] ∧ ∀ id ∈ ids, ∃ e ∈ s.index.entries, e.id = id
  /-- An entry that is removed has been added before. -/
  ordered : ∀ e ∈ s.index.entries, e.till ≠ Stamp.never → e.since < e.till
  /-- Nothing is staged. -/
  settled : ∀ e ∈ s.index.entries, e.since ≠ Stamp.pending ∧ e.till ≠ Stamp.pending
  /-- The live entries are those that the latest snapshot shows. -/
  live : ∀ q id, s.live.get? q = some id ↔
    ∃ e ∈ s.index.entries, e.id = id ∧ e.quad = q ∧ e.isVisible s.current = true

/-- What holds of a transaction that is open. -/
structure Transaction.Tracks (t : Transaction) : Prop where
  /-- The live entries are those that the transaction shows. -/
  live : ∀ q id, t.store.live.get? q = some id ↔
    ∃ e ∈ t.store.index.entries, e.id = id ∧ e.quad = q ∧ e.isVisible Stamp.pending = true
  /-- They are as many as all quads, in all contexts, explicit and inferred. -/
  size : t.size = t.view.count {} true

namespace Index.WellFormed

variable {index : Index}

/-- In each role, an entry stands in the list of its term alone, and once. -/
theorem count_listOf (hw : index.WellFormed) {e : Entry} (he : e ∈ index.entries) (role : Role)
    (t : TermId) : (index.listOf role t).count e.id = if e.quad.part role = t then 1 else 0 := by
  have hnodup : (index.listOf role t).Nodup := by
    rw [hw.listed]
    exact hw.nodup.sublist (List.filter_sublist.map _)
  have hmem : e.id ∈ index.listOf role t ↔ e.quad.part role = t := by
    rw [hw.listed, List.mem_map]
    constructor
    · rintro ⟨other, hother, hid⟩
      obtain ⟨hin, hpart⟩ := List.mem_filter.1 hother
      rw [← hw.eq_of_id_eq hin he hid]
      exact eq_of_beq hpart
    · intro hpart
      exact ⟨e, List.mem_filter.2 ⟨he, beq_iff_eq.2 hpart⟩, rfl⟩
  split
  · rename_i hpart
    exact List.count_eq_one_of_mem hnodup (hmem.2 hpart)
  · rename_i hpart
    exact List.count_eq_zero_of_not_mem fun hin => hpart (hmem.1 hin)

/-- There are only entries in a list, and at least one. -/
theorem exists_of_mem_list (hw : index.WellFormed) {role : Role} {t : TermId} {ids : List EntryId}
    (hids : index.occurrences.get? (role, t) = some ids) :
    ids ≠ [] ∧ ∀ id ∈ ids, ∃ e ∈ index.entries, e.id = id := by
  have hlist : ((role, t), ids) ∈ index.lists role :=
    List.mem_filter.2 ⟨Table.get?_eq_some_iff.1 hids, beq_self_eq_true role⟩
  obtain ⟨heq, hsome⟩ := hw.list_eq hlist
  refine ⟨hsome, fun id hid => ?_⟩
  rw [show ids = _ from heq] at hid
  obtain ⟨e, he, rfl⟩ := List.mem_map.1 hid
  exact ⟨e, (List.mem_filter.1 he).1, rfl⟩

end Index.WellFormed

namespace Store.Sound

variable {s : Store}

theorem since_lt_till (h : s.Sound) {e : Entry} (he : e ∈ s.index.entries)
    (hremoved : e.till ≠ Stamp.never) : e.since < e.till :=
  (h.lawful e he).since_lt_till h.below hremoved

/-- The live entries are those that the latest snapshot shows. -/
theorem live_iff (h : s.Sound) (q : EncodedQuad) (id : EntryId) : s.live.get? q = some id ↔
    ∃ e ∈ s.index.entries, e.id = id ∧ e.quad = q ∧ e.isVisible s.current = true := by
  refine (Transaction.Sound.live h q id).trans (exists_congr fun e => and_congr_right fun he => ?_)
  rw [h.isVisible_pending_iff he]

theorem checkEntry_eq (h : s.Sound) {e : Entry} (he : e ∈ s.index.entries) :
    s.checkEntry e = .ok () := by
  obtain ⟨q, hq⟩ := h.readable.known e he
  have hsettled : (e.since != Stamp.pending && e.till != Stamp.pending) = true := by
    rw [Bool.and_eq_true, bne_iff_ne, bne_iff_ne]
    exact h.settled he
  have hlive : (!e.isVisible s.current || s.live.get? e.quad == some e.id) = true := by
    cases hvisible : e.isVisible s.current with
    | false => rfl
    | true => exact beq_iff_eq.2 ((h.live_iff e.quad e.id).2 ⟨e, he, rfl, rfl, hvisible⟩)
  unfold checkEntry
  rw [hq, Index.require_of_true hsettled, Index.require_of_true hlive]
  rfl

theorem size_live (h : s.Sound) : s.live.size = s.latest.visible.length := by
  have hsize := Transaction.size_eq h
  rw [h.statements_begin, View.length_statements (v := s.latest) h.readable] at hsize
  exact hsize

/-- Nothing is found wrong with a store in agreement. -/
theorem validate_eq (h : s.Sound) : s.validate = .ok () := by
  have hindex := h.readable.indexed.validate_eq fun e he => h.since_lt_till he
  have hcount : (s.index.entries.countP (·.isVisible s.current) == s.live.size) = true := by
    rw [beq_iff_eq, h.size_live, List.countP_eq_length_filter]
    rfl
  unfold Store.validate
  rw [hindex]
  show (s.index.entries.forM s.checkEntry >>= _) = _
  rw [List.forM_eq_ok fun e he => h.checkEntry_eq he]
  exact Index.require_of_true hcount _

theorem isValid (h : s.Sound) : s.Valid where
  validate := h.validate_eq
  nodup := h.readable.indexed.nodup
  listed := fun _ he => h.readable.indexed.count_listOf he
  lists := fun _ _ _ => h.readable.indexed.exists_of_mem_list
  ordered := fun _ => h.since_lt_till
  settled := fun _ => h.settled
  live := h.live_iff

end Store.Sound

theorem Transaction.Sound.tracks {t : Transaction} (h : t.Sound) : t.Tracks := by
  refine ⟨h.live, ?_⟩
  rw [Transaction.size_eq h]
  exact (View.size_eq (v := t.view) h.readable).symm

/-! ## Sessions -/

/-- A store is valid while no transaction is open, and an open transaction tracks its quads. -/
def SessionState.Valid : SessionState → Prop
  | .closed _ => True
  | .idle s => s.Valid
  | .writing _ t => t.Tracks

/-- Whatever has been done to a store, it is valid whenever no transaction is open. -/
theorem Session.Reachable.valid {session : Session} (h : session.Reachable) :
    session.state.Valid := by
  have hsound := h.consistent.sound
  cases hstate : session.state with
  | closed file => trivial
  | idle s =>
    rw [hstate] at hsound
    exact Store.Sound.isValid hsound
  | writing w t =>
    rw [hstate] at hsound
    obtain ⟨base, hsince⟩ := hsound
    exact hsince.sound.tracks

namespace Session

/-- A session whose open transaction has inserted a quad, inferred another one in the place of a
third, and taken the first one back. -/
def replacing : Session :=
  shared.after [
    .begin .transaction,
    .write .transaction (.insert ⟨.iri ⟨"s"⟩, ⟨"p"⟩, .iri ⟨"s"⟩, .default⟩ true),
    .write .transaction (.remove ⟨.iri ⟨"s"⟩, ⟨"p"⟩, .iri ⟨"o"⟩, .default⟩),
    .write .transaction (.insert ⟨.iri ⟨"s"⟩, ⟨"p"⟩, .iri ⟨"p"⟩, .default⟩ false),
    .write .transaction (.remove ⟨.iri ⟨"s"⟩, ⟨"p"⟩, .iri ⟨"s"⟩, .default⟩)]

theorem reachable_replacing : replacing.Reachable :=
  reachable_shared.after (runs_of_length reachable_shared.consistent.sound (n := 1) rfl
    (by simp [Step.keepsOpen]) (by decide))

/-- The session is valid before the transaction and within it. -/
theorem valid_replacing :
    (shared.Reachable ∧ shared.state.Valid) ∧ replacing.Reachable ∧ replacing.state.Valid :=
  ⟨⟨reachable_shared, reachable_shared.valid⟩, reachable_replacing, reachable_replacing.valid⟩

end Session

/-! ## Journals that are accepted -/

namespace Store

/-- A store that is opened on any bytes is valid, and a snapshot that is taken then shows all its
live quads, if the last record has no reserved number. -/
theorem validate_of_openJournal {options : StoreOptions} {bytes : Bytes} {s : Store}
    (hs : (openJournal options bytes).result = .ok s) (hbelow : s.current < Stamp.pending) :
    s.validate = .ok () ∧ ∀ q id, s.live.get? q = some id →
      ∃ e, s.index.get? id = some e ∧ e.quad = q ∧ e.isVisible s.snapshot.1.stamp = true := by
  have hsound := (sound_of_openJournal hs hbelow).1
  refine ⟨hsound.validate_eq, fun q id hlive => ?_⟩
  obtain ⟨e, he, rfl, hquad, hvisible⟩ := (hsound.live_iff q id).1 hlive
  exact ⟨e, hsound.readable.indexed.get?_id he, hquad, hvisible⟩

/-- A journal with one record, in which a quad is inserted; the record has some number. -/
def insertionJournal (number : List UInt8) : Bytes :=
  Journal.header ++ [0, 0, 0, 33] ++ number ++
    [0, 0, 0, 1, 1, 1, 1, 0, 0, 0, 1, 115, 1, 0, 0, 0, 1, 112, 1, 0, 0, 0, 1, 111, 0]

/-- A store that is opened on the record of the first snapshot. -/
theorem validate_insertionJournal : ∃ s,
    (openJournal {} (insertionJournal [0, 0, 0, 0, 0, 0, 0, 1])).result = .ok s ∧
      s.current < Stamp.pending ∧ s.validate = .ok () ∧ ∀ q id, s.live.get? q = some id →
        ∃ e, s.index.get? id = some e ∧ e.quad = q ∧ e.isVisible s.snapshot.1.stamp = true := by
  obtain ⟨s, hs, hcurrent⟩ : ∃ s,
      (openJournal {} (insertionJournal [0, 0, 0, 0, 0, 0, 0, 1])).result = .ok s ∧
        s.current = 1 := ⟨_, rfl, rfl⟩
  have hbelow : s.current < Stamp.pending := by
    rw [hcurrent]
    decide
  exact ⟨s, hs, hbelow, validate_of_openJournal hs hbelow⟩

/-- A record with the number of staged changes is accepted, and leaves a quad that seems staged. -/
theorem validate_reservedInsertion : ∃ s,
    (openJournal {} (insertionJournal [255, 255, 255, 255, 255, 255, 255, 254])).result = .ok s ∧
      s.validate = .error (.staged ⟨⟨1⟩, ⟨2⟩, ⟨3⟩, ⟨0⟩⟩) :=
  ⟨_, rfl, rfl⟩

end Store
end QuadStore
