import QuadStore.Proofs.Recording

/-!
# Surviving operations

What a transaction records are the operations that it has not undone. `Legal` says in which order
operations on quads can stand: a quad is removed that is there from the beginning, and inserted if
it is not there or has been removed. An insertion can be left out of such operations, so that they
stay legal however often a transaction undoes what it has inserted: `Stages.records`.
-/

/-- The last step of a row of steps is done where the others lead to. -/
theorem List.foldlM_concat_of_eq_some {α β : Type} {f : β → α → Option β} {xs : List α} {b c : β}
    (h : xs.foldlM f b = some c) (x : α) : (xs ++ [x]).foldlM f b = f c x := by
  rw [List.foldlM_append, h]
  show (f c x >>= fun b => some b) = f c x
  cases f c x <;> rfl

namespace QuadStore

/-- The content after an operation. A quad that is removed has to be there. -/
def Content.perform? (c : Content) : Operation → Option Content
  | .insert q explicit => some (c.insert q explicit).2
  | .remove q explicit => if (c.remove q explicit).1 then some (c.remove q explicit).2 else none
  | .changeNamespaces change => some { c with namespaces := c.namespaces.apply change }

namespace Operation

/-- The insertion of a quad. -/
def ofInserted (st : Statement) : Operation := .insert st.quad st.explicit

/-- The removal of a quad. -/
def ofRemoved (st : Statement) : Operation := .remove st.quad st.explicit

/-- What an operation inserts. -/
def inserted? : Operation → Option Statement
  | insert q explicit => some ⟨q, explicit⟩
  | _ => none

/-- What an operation removes. -/
def removed? : Operation → Option Statement
  | remove q explicit => some ⟨q, explicit⟩
  | _ => none

variable {statements : List Statement} {ops : List Operation}

/-- The quads that no operation removes. -/
def kept (statements : List Statement) (ops : List Operation) : List Statement :=
  statements.filter fun st => !(ops.filterMap removed?).contains st

/-- The quads that no operation removes, then those that are inserted. -/
def outcome (statements : List Statement) (ops : List Operation) : List Statement :=
  kept statements ops ++ ops.filterMap inserted?

theorem mem_kept {st : Statement} :
    st ∈ kept statements ops ↔ st ∈ statements ∧ st ∉ ops.filterMap removed? := by
  unfold kept
  rw [List.mem_filter, Bool.not_eq_true', ← Bool.not_eq_true, List.contains_iff_mem]

theorem outcome_nil (statements : List Statement) : outcome statements [] = statements := by
  have hkept : kept statements [] = statements := List.filter_eq_self.2 fun _ _ => rfl
  unfold outcome
  rw [hkept]
  exact List.append_nil _

theorem filterMap_removed?_append_inserted (xs ys : List Operation) (st : Statement) :
    (xs ++ ofInserted st :: ys).filterMap removed? = (xs ++ ys).filterMap removed? := by
  rw [List.filterMap_append, List.filterMap_append, List.filterMap_cons_none rfl]

theorem filterMap_inserted?_append_inserted (xs ys : List Operation) (st : Statement) :
    (xs ++ ofInserted st :: ys).filterMap inserted? =
      xs.filterMap inserted? ++ st :: ys.filterMap inserted? := by
  have hst : inserted? (ofInserted st) = some st := rfl
  rw [List.filterMap_append, List.filterMap_cons_some hst]

/-- An insertion in the middle of some operations changes the outcome by its quad alone. -/
theorem outcome_append_inserted (statements : List Statement) (xs ys : List Operation)
    (st : Statement) : outcome statements (xs ++ ofInserted st :: ys) =
      (kept statements (xs ++ ys) ++ xs.filterMap inserted?) ++ st :: ys.filterMap inserted? := by
  unfold outcome kept
  rw [filterMap_removed?_append_inserted, filterMap_inserted?_append_inserted, List.append_assoc]

theorem outcome_append (statements : List Statement) (xs ys : List Operation) :
    outcome statements (xs ++ ys) =
      (kept statements (xs ++ ys) ++ xs.filterMap inserted?) ++ ys.filterMap inserted? := by
  unfold outcome
  rw [List.filterMap_append, List.append_assoc]

/-- A removal at the end removes its quad alone. -/
theorem kept_append_removed (statements : List Statement) (ops : List Operation) (st : Statement) :
    kept statements (ops ++ [ofRemoved st]) = (kept statements ops).filter (· != st) := by
  unfold kept
  rw [List.filter_filter, List.filterMap_append]
  refine List.filter_congr fun other _ => ?_
  rw [Bool.eq_iff_iff]
  simp [ofRemoved, removed?, and_comm]

theorem outcome_append_removed (statements : List Statement) (ops : List Operation)
    (st : Statement) : outcome statements (ops ++ [ofRemoved st]) =
      (kept statements ops).filter (· != st) ++ ops.filterMap inserted? := by
  rw [outcome_append, kept_append_removed]
  exact List.append_nil _

/-- Operations that can be done one after the other, beginning with some quads. -/
inductive Legal (statements : List Statement) : List Operation → Prop
  | nil : Legal statements []
  | insert {ops : List Operation} {st : Statement} : Legal statements ops →
      (∀ other ∈ outcome statements ops, other.quad ≠ st.quad) →
        Legal statements (ops ++ [ofInserted st])
  | remove {ops : List Operation} {st : Statement} : Legal statements ops →
      st ∈ kept statements ops → st ∉ ops.filterMap inserted? →
        Legal statements (ops ++ [ofRemoved st])

/-- An insertion can be left out. -/
theorem Legal.leave (h : Legal statements ops) {xs ys : List Operation} {st : Statement}
    (hops : ops = xs ++ ofInserted st :: ys) : Legal statements (xs ++ ys) := by
  -- the insertion is the last operation, or the last one stays and fewer quads are in its way
  induction h generalizing ys with
  | nil =>
    rw [List.nil_eq_append_iff] at hops
    exact nomatch hops.2
  | @insert ops added hlegal hfresh ih =>
    rcases List.eq_nil_or_concat ys with rfl | ⟨rest, last, rfl⟩
    · obtain ⟨rfl, -⟩ := List.append_inj' hops rfl
      rw [List.append_nil]
      exact hlegal
    · rw [List.concat_eq_append, ← List.cons_append, ← List.append_assoc] at hops
      obtain ⟨rfl, hlast⟩ := List.append_inj' hops rfl
      rw [List.concat_eq_append, ← List.append_assoc, ← List.singleton_inj.1 hlast]
      refine .insert (ih rfl) fun other hother => hfresh other ?_
      rw [outcome_append] at hother
      rw [outcome_append_inserted]
      rcases List.mem_append.1 hother with hother | hother
      · exact List.mem_append_left _ hother
      · exact List.mem_append_right _ (List.mem_cons_of_mem _ hother)
  | @remove ops removed hlegal hkept hnot ih =>
    rcases List.eq_nil_or_concat ys with rfl | ⟨rest, last, rfl⟩
    · have hlast := (List.append_inj' hops rfl).2
      exact nomatch hlast
    · rw [List.concat_eq_append, ← List.cons_append, ← List.append_assoc] at hops
      obtain ⟨rfl, hlast⟩ := List.append_inj' hops rfl
      rw [List.concat_eq_append, ← List.append_assoc, ← List.singleton_inj.1 hlast]
      rw [filterMap_inserted?_append_inserted] at hnot
      refine .remove (ih rfl) ?_ ?_
      · rw [mem_kept, filterMap_removed?_append_inserted] at hkept
        exact mem_kept.2 hkept
      · rw [List.filterMap_append]
        intro hmem
        rcases List.mem_append.1 hmem with hmem | hmem
        · exact hnot (List.mem_append_left _ hmem)
        · exact hnot (List.mem_append_right _ (List.mem_cons_of_mem _ hmem))

/-- What is inserted twice has been taken back in between. -/
theorem Legal.nodup_inserted (h : Legal statements ops) : (ops.filterMap inserted?).Nodup := by
  induction h with
  | nil => exact .nil
  | @insert ops st _ hfresh ih =>
    have hinserted : (ops ++ [ofInserted st]).filterMap inserted? =
        ops.filterMap inserted? ++ [st] := filterMap_inserted?_append_inserted ops [] st
    rw [hinserted, List.nodup_append]
    refine ⟨ih, List.nodup_singleton st, fun other hother x hx => ?_⟩
    rw [List.mem_singleton.1 hx]
    rintro rfl
    exact hfresh other (List.mem_append_right _ hother) rfl
  | @remove ops st _ _ _ ih =>
    have hinserted : (ops ++ [ofRemoved st]).filterMap inserted? = ops.filterMap inserted? := by
      rw [List.filterMap_append]
      exact List.append_nil _
    rw [hinserted]
    exact ih

/-- Legal operations on a content can be done, and lead to their outcome. -/
theorem Legal.foldlM_perform? {c : Content} (h : Legal c.statements ops) :
    ops.foldlM Content.perform? c = some { c with statements := outcome c.statements ops } := by
  induction h with
  | nil =>
    rw [outcome_nil]
    rfl
  | @insert ops st _ hfresh ih =>
    have hfind : (outcome c.statements ops).find? (·.quad == st.quad) = none := by
      rw [List.find?_eq_none]
      intro other hother
      rw [beq_iff_eq]
      exact hfresh other hother
    have hinsert : Content.insert { c with statements := outcome c.statements ops } st.quad
        st.explicit = (true, { c with statements := outcome c.statements ops ++ [st] }) := by
      unfold Content.insert
      dsimp only
      rw [hfind]
    rw [List.foldlM_concat_of_eq_some ih]
    show some (Content.insert _ st.quad st.explicit).2 = _
    rw [hinsert, outcome_append_inserted, List.append_nil]
    rfl
  | @remove ops st _ hkept hnot ih =>
    have hcontains : (outcome c.statements ops).contains st = true :=
      List.contains_iff_mem.2 (List.mem_append_left _ hkept)
    have hfilter : (outcome c.statements ops).filter (· != st) =
        outcome c.statements (ops ++ [ofRemoved st]) := by
      have hinserted : (ops.filterMap inserted?).filter (· != st) = ops.filterMap inserted? := by
        rw [List.filter_eq_self]
        intro other hother
        rw [bne_iff_ne]
        rintro rfl
        exact hnot hother
      rw [outcome_append_removed]
      unfold outcome
      rw [List.filter_append, hinserted]
    rw [List.foldlM_concat_of_eq_some ih, ← hfilter]
    exact if_pos hcontains

end Operation

namespace Transaction

open Operation

variable {t : Transaction}

/-! ## What is recorded of the quads -/

/-- The operations on quads that are recorded. -/
def survivors (t : Transaction) : List Operation := t.changes.filterMap (recorded? t.store)

theorem recorded?_insert {s : Store} {id : EntryId} {e : Entry} (hget : s.index.get? id = some e)
    {st : Statement} (hst : s.dictionary.statement? e = some st) :
    recorded? s (.insert id) = if e.since = Stamp.pending then some (ofInserted st) else none := by
  simp only [recorded?, hget, hst, Option.bind_eq_bind, Option.bind_some]
  rfl

theorem recorded?_remove {s : Store} {id : EntryId} {e : Entry} (hget : s.index.get? id = some e)
    {st : Statement} (hst : s.dictionary.statement? e = some st) :
    recorded? s (.remove id) = some (ofRemoved st) := by
  simp only [recorded?, hget, hst, Option.bind_eq_bind, Option.bind_some]
  rfl

/-- What is recorded of a change depends on what the entry stands for and, for an insertion, on
whether it is staged. -/
theorem recorded?_congr {s s' : Store} {c : Change} {e e' : Entry}
    (hget : s.index.get? c.entry = some e) (hget' : s'.index.get? c.entry = some e')
    (hst : s'.dictionary.statement? e' = s.dictionary.statement? e)
    (hsince : c = .insert c.entry → (e'.since = Stamp.pending ↔ e.since = Stamp.pending)) :
    recorded? s' c = recorded? s c := by
  cases c with
  | insert id =>
    replace hget : s.index.get? id = some e := hget
    replace hget' : s'.index.get? id = some e' := hget'
    simp only [recorded?, hget, hget', hst, hsince rfl, Option.bind_eq_bind, Option.bind_some]
  | remove id =>
    replace hget : s.index.get? id = some e := hget
    replace hget' : s'.index.get? id = some e' := hget'
    simp only [recorded?, hget, hget', hst, Option.bind_eq_bind, Option.bind_some]
  | discard id => rfl

/-- What is inserted are the quads of the staged entries. -/
theorem Sound.exists_staged (h : t.Sound) {st : Statement}
    (hst : st ∈ t.survivors.filterMap inserted?) :
    ∃ e ∈ t.view.visible, e.since = Stamp.pending ∧ t.store.dictionary.statement? e = some st := by
  obtain ⟨op, hop, hinserted⟩ := List.mem_filterMap.1 hst
  obtain ⟨c, hc, hrecorded⟩ := List.mem_filterMap.1 hop
  obtain ⟨e, he, hid⟩ := h.changed c hc
  have hget := h.readable.indexed.get?_id he
  obtain ⟨q, hq⟩ := h.readable.known e he
  have hshown : t.store.dictionary.statement? e = some ⟨q, e.explicit⟩ :=
    Dictionary.statement?_eq_some_iff.2 ⟨hq, rfl⟩
  cases c with
  | insert id =>
    obtain rfl : e.id = id := hid
    rw [recorded?_insert hget hshown] at hrecorded
    split at hrecorded
    · rename_i hpending
      rw [← Option.some.inj hrecorded] at hinserted
      rw [← Option.some.inj hinserted]
      refine ⟨e, View.mem_visible.2 ⟨he, ?_⟩, hpending, hshown⟩
      have hlaw := h.lawful e he
      have hbelow := h.below
      have hnever := Stamp.pending_lt_never
      show e.isVisible Stamp.pending = true
      rw [Entry.isVisible_iff]
      unfold Entry.Lawful at hlaw
      omega
    · exact absurd hrecorded (Option.some_ne_none _).symm
  | remove id =>
    obtain rfl : e.id = id := hid
    rw [recorded?_remove hget hshown] at hrecorded
    rw [← Option.some.inj hrecorded] at hinserted
    exact absurd hinserted (Option.some_ne_none _).symm
  | discard id => exact absurd hrecorded (Option.some_ne_none _).symm

/-- The operations that are recorded can be done with what the latest snapshot shows, and lead to
what the transaction shows. -/
structure Records (t : Transaction) : Prop where
  legal : Legal t.store.latest.statements t.survivors
  shown : t.view.statements = outcome t.store.latest.statements t.survivors

/-! ## Steps -/

theorem survivors_learn (h : t.Sound) {d : Dictionary} (hd : t.store.dictionary.Within d) :
    survivors { t with store := { t.store with dictionary := d } } = t.survivors := by
  refine List.filterMap_congr fun c hc => ?_
  obtain ⟨e, he, hid⟩ := h.changed c hc
  have hget := h.readable.indexed.get?_id he
  rw [hid] at hget
  obtain ⟨q, hq⟩ := h.readable.known e he
  have hbefore : t.store.dictionary.statement? e = some ⟨q, e.explicit⟩ :=
    Dictionary.statement?_eq_some_iff.2 ⟨hq, rfl⟩
  have hafter : d.statement? e = some ⟨q, e.explicit⟩ :=
    Dictionary.statement?_eq_some_iff.2 ⟨hd.resolveQuad hq, rfl⟩
  exact recorded?_congr hget hget (hafter.trans hbefore.symm) fun _ => Iff.rfl

theorem survivors_stageInsertion (h : t.Sound) {q : EncodedQuad} {quad : Quad}
    (hq : t.store.dictionary.resolveQuad q = .ok quad) (explicit : Bool) :
    (t.stageInsertion q explicit).survivors = t.survivors ++ [ofInserted ⟨quad, explicit⟩] := by
  have hget := h.readable.indexed.get?_insert q explicit Stamp.pending
  unfold survivors
  rw [changes_stageInsertion, store_stageInsertion, List.filterMap_append]
  congr 1
  · refine List.filterMap_congr fun c hc => ?_
    obtain ⟨e, he, hid⟩ := h.changed c hc
    have hold := h.readable.indexed.get?_id he
    have hne : e.id ≠ ⟨t.store.index.nextId⟩ := by
      intro heq
      have := h.readable.indexed.fresh e he
      rw [heq] at this
      exact Nat.lt_irrefl _ this
    have hnew := hget e.id
    rw [if_neg hne, hold] at hnew
    rw [hid] at hold hnew
    exact recorded?_congr hold hnew rfl fun _ => Iff.rfl
  · have hnew := hget ⟨t.store.index.nextId⟩
    rw [if_pos rfl] at hnew
    have hst : t.store.dictionary.statement? (t.store.index.inserted q explicit Stamp.pending) =
        some ⟨quad, explicit⟩ := Dictionary.statement?_eq_some_iff.2 ⟨hq, rfl⟩
    have hrecorded : recorded? (t.stageInsertion q explicit).store
        (.insert ⟨t.store.index.nextId⟩) = some (ofInserted ⟨quad, explicit⟩) :=
      (recorded?_insert (s := (t.stageInsertion q explicit).store) hnew hst).trans (if_pos rfl)
    exact List.filterMap_cons_some hrecorded

/-- The entries after a removal. -/
theorem Sound.get?_stageRemoval (h : t.Sound) {e x : Entry} (he : e ∈ t.store.index.entries)
    (hx : x ∈ t.store.index.entries) :
    (t.stageRemoval e).store.index.get? x.id = some (x.removedIf e.id) := by
  rw [stageRemoval_eq h.readable.indexed he]
  show (t.store.index.modify e.id Entry.removed).get? x.id = _
  rw [Index.get?_modify _ _ _ Entry.faithful_removed, h.readable.indexed.get?_id hx]
  rfl

theorem statement?_removedIf (d : Dictionary) (id : EntryId) (e : Entry) :
    d.statement? (e.removedIf id) = d.statement? e := by
  unfold Dictionary.statement?
  rw [(Entry.faithful_removedIf id e).2]
  unfold Entry.removedIf Entry.removed
  split
  · split <;> rfl
  · rfl

theorem statement?_stageRemoval (t : Transaction) (e x : Entry) (id : EntryId) :
    (t.stageRemoval e).store.dictionary.statement? (x.removedIf id) =
      t.store.dictionary.statement? x := by
  rw [dictionary_stageRemoval, statement?_removedIf]

/-- The changes so far are recorded after a removal as before, other than the insertion of what is
removed. -/
theorem recorded?_stageRemoval (h : t.Sound) {e : Entry} (he : e ∈ t.store.index.entries)
    {c : Change} (hc : c ∈ t.changes) (hother : c = .insert e.id → e.since ≠ Stamp.pending) :
    recorded? (t.stageRemoval e).store c = recorded? t.store c := by
  obtain ⟨x, hx, hid⟩ := h.changed c hc
  have hbefore := h.readable.indexed.get?_id hx
  have hafter := h.get?_stageRemoval he hx
  rw [hid] at hbefore hafter
  refine recorded?_congr hbefore hafter (statement?_stageRemoval t e x e.id) fun hinsert => ?_
  rcases h.removedIf_cases he hx with ⟨rfl, heq⟩ | ⟨-, heq⟩
  · rw [← hid] at hinsert
    rw [heq, Entry.removed, if_neg (hother hinsert)]
  · rw [heq]

/-- If a staged entry is removed, its insertion is not recorded any more. -/
theorem survivors_stageRemoval_staged (h : t.Sound) {e : Entry} (he : e ∈ t.view.visible)
    {st : Statement} (hst : t.store.dictionary.statement? e = some st)
    (hpending : e.since = Stamp.pending) :
    ∃ xs ys, t.survivors = xs ++ ofInserted st :: ys ∧ (t.stageRemoval e).survivors = xs ++ ys := by
  have hmem := (View.mem_visible.1 he).1
  have hget := h.readable.indexed.get?_id hmem
  obtain ⟨before, later, hchanges⟩ :=
    List.append_of_mem ((h.accounts e hmem).inserted.2 (.inl hpending))
  have hnodup := h.nodupChanges
  rw [hchanges, List.nodup_append, List.nodup_cons] at hnodup
  -- of the changes, only the insertion of the entry is recorded otherwise, and it stands there once
  have hothers : ∀ cs : List Change, (∀ c ∈ cs, c ∈ t.changes) → .insert e.id ∉ cs →
      cs.filterMap (recorded? (t.stageRemoval e).store) = cs.filterMap (recorded? t.store) := by
    intro cs hcs hnot
    refine List.filterMap_congr fun c hc => recorded?_stageRemoval h hmem (hcs c hc) ?_
    rintro rfl
    exact absurd hc hnot
  have hbefore := hothers before (fun c hc => hchanges ▸ List.mem_append_left _ hc) fun hin =>
    hnodup.2.2 _ hin _ List.mem_cons_self rfl
  have hlater := hothers later (fun c hc => hchanges ▸ List.mem_append_right _
    (List.mem_cons_of_mem _ hc)) hnodup.2.1.1
  refine ⟨before.filterMap (recorded? t.store), later.filterMap (recorded? t.store), ?_, ?_⟩
  · have hrecorded : recorded? t.store (.insert e.id) = some (ofInserted st) :=
      (recorded?_insert hget hst).trans (if_pos hpending)
    unfold survivors
    rw [hchanges, List.filterMap_append, List.filterMap_cons_some hrecorded]
  · have hgone : recorded? (t.stageRemoval e).store (.insert e.id) = none := by
      have hsince : (e.removedIf e.id).since ≠ Stamp.pending := by
        unfold Entry.removedIf Entry.removed
        rw [if_pos rfl, if_pos hpending]
        exact Nat.ne_of_gt Stamp.pending_lt_never
      have hafter := (statement?_stageRemoval t e e e.id).trans hst
      exact (recorded?_insert (h.get?_stageRemoval hmem hmem) hafter).trans (if_neg hsince)
    have hremoval : (t.stageRemoval e).changes = t.changes ++ [.discard e.id] := by
      unfold stageRemoval
      rw [if_pos hpending]
    unfold survivors
    rw [hremoval, hchanges, List.filterMap_append, List.filterMap_append,
      List.filterMap_cons_none hgone, hbefore, hlater]
    exact List.append_nil _

/-- If a committed entry is removed, this is recorded. -/
theorem survivors_stageRemoval_settled (h : t.Sound) {e : Entry} (he : e ∈ t.view.visible)
    {st : Statement} (hst : t.store.dictionary.statement? e = some st)
    (hsettled : e.since ≠ Stamp.pending) :
    (t.stageRemoval e).survivors = t.survivors ++ [ofRemoved st] := by
  have hmem := (View.mem_visible.1 he).1
  have hchanges : (t.stageRemoval e).changes = t.changes ++ [.remove e.id] := by
    unfold stageRemoval
    rw [if_neg hsettled]
  have hrecorded : recorded? (t.stageRemoval e).store (.remove e.id) = some (ofRemoved st) :=
    recorded?_remove (h.get?_stageRemoval hmem hmem)
      ((statement?_stageRemoval t e e e.id).trans hst)
  unfold survivors
  rw [hchanges, List.filterMap_append, List.filterMap_cons_some hrecorded]
  congr 1
  exact List.filterMap_congr fun c hc => recorded?_stageRemoval h hmem hc fun _ => hsettled

/-! ## Whole transactions -/

theorem Records.begin {s : Store} (h : s.Sound) : s.begin.Records := by
  refine ⟨.nil, h.statements_begin.trans ?_⟩
  exact (outcome_nil _).symm

/-- Transactions with the same latest snapshot that have recorded the same and show the same. -/
theorem Records.congr {u : Transaction} (h : t.Records)
    (hlatest : u.store.latest.statements = t.store.latest.statements)
    (hsurvivors : u.survivors = t.survivors) (hshown : u.view.statements = t.view.statements) :
    u.Records := by
  refine ⟨?_, ?_⟩
  · rw [hlatest, hsurvivors]
    exact h.legal
  · rw [hlatest, hsurvivors, hshown]
    exact h.shown

theorem Records.stageInsertion (h : t.Records) (hs : t.Sound) {q : EncodedQuad} {quad : Quad}
    (hq : t.store.dictionary.resolveQuad q = .ok quad) (hfree : t.store.live.get? q = none)
    (explicit : Bool) : (t.stageInsertion q explicit).Records := by
  have hlatest : (t.stageInsertion q explicit).store.latest.statements =
      t.store.latest.statements :=
    (keeps_stageInsertion hs q explicit (Nat.le_refl _)).statements hs.readable
  have hshown := statements_stageInsertion hq explicit
  have hfresh : ∀ other ∈ t.view.statements, other.quad ≠ quad := by
    have hlive : t.liveEntry? q = none := by
      unfold liveEntry?
      rw [hfree]
      rfl
    have hfind := hs.find?_statements hq
    rw [hlive, Option.map_none, List.find?_eq_none] at hfind
    intro other hother heq
    exact hfind other hother (beq_iff_eq.2 heq)
  refine ⟨?_, ?_⟩
  · rw [hlatest, survivors_stageInsertion hs hq]
    refine .insert h.legal ?_
    rw [← h.shown]
    exact hfresh
  · rw [hlatest, survivors_stageInsertion hs hq, hshown, h.shown, outcome_append_inserted,
      List.append_nil]
    rfl

/-- A quad that stands once among others is all that goes when it is removed. -/
theorem filter_quad_ne {xs ys : List Statement} {st : Statement}
    (h : ((xs ++ st :: ys).map (·.quad)).Nodup) :
    (xs ++ st :: ys).filter (·.quad != st.quad) = xs ++ ys := by
  rw [List.map_append, List.map_cons, List.nodup_append, List.nodup_cons] at h
  have hbefore : xs.filter (·.quad != st.quad) = xs := by
    rw [List.filter_eq_self]
    intro other hother
    rw [bne_iff_ne]
    exact h.2.2 _ (List.mem_map_of_mem hother) _ List.mem_cons_self
  have hafter : ys.filter (·.quad != st.quad) = ys := by
    rw [List.filter_eq_self]
    intro other hother
    rw [bne_iff_ne]
    intro heq
    exact h.2.1.1 (List.mem_map.2 ⟨other, hother, heq⟩)
  rw [List.filter_append, List.filter_cons_of_neg (by simp), hbefore, hafter]

theorem Records.stageRemoval (h : t.Records) (hs : t.Sound) {e : Entry} (he : e ∈ t.view.visible) :
    (t.stageRemoval e).Records := by
  have hlatest : (t.stageRemoval e).store.latest.statements = t.store.latest.statements := by
    have hkeeps := keeps_stageRemoval hs he (Nat.le_refl _)
    have hcurrent : (t.stageRemoval e).store.current = t.store.current := by
      rw [stageRemoval_eq hs.readable.indexed (View.mem_visible.1 he).1]
    unfold Store.latest
    rw [hcurrent]
    exact hkeeps.statements hs.readable
  obtain ⟨st, hst⟩ := View.exists_statement? hs.readable he
  have hshown := hs.statements_stageRemoval he hst
  have hnodup := hs.nodup_statements
  rw [h.shown] at hshown hnodup
  by_cases hpending : e.since = Stamp.pending
  · obtain ⟨xs, ys, hbefore, hafter⟩ := survivors_stageRemoval_staged hs he hst hpending
    have hlegal := h.legal.leave hbefore
    rw [hbefore, outcome_append_inserted] at hshown hnodup
    rw [filter_quad_ne hnodup] at hshown
    refine ⟨?_, ?_⟩
    · rw [hlatest, hafter]
      exact hlegal
    · rw [hlatest, hafter, hshown, outcome_append]
  · have hafter := survivors_stageRemoval_settled hs he hst hpending
    -- the quad is one of the latest snapshot, as all inserted ones are those of staged entries
    have hother : ∀ other ∈ t.survivors.filterMap inserted?, other.quad ≠ st.quad := by
      intro other hother hquad
      obtain ⟨x, hx, hstaged, hxst⟩ := hs.exists_staged hother
      rw [hs.eq_of_statement? Stamp.pending_lt_never hx he hxst hst hquad] at hstaged
      exact hpending hstaged
    have hkept : st ∈ kept t.store.latest.statements t.survivors := by
      have hin : st ∈ t.view.statements := mem_statements_iff.2 ⟨e, he, hst⟩
      rw [h.shown] at hin
      rcases List.mem_append.1 hin with hin | hin
      · exact hin
      · exact absurd rfl (hother st hin)
    refine ⟨?_, ?_⟩
    · rw [hlatest, hafter]
      exact .remove h.legal hkept fun hin => hother st hin rfl
    · rw [hlatest, hafter, hshown, outcome_append_removed]
      unfold outcome
      rw [List.filter_append]
      congr 1
      · refine List.filter_congr fun other hin => ?_
        have hboth : other ∈ t.view.statements ∧ st ∈ t.view.statements := by
          rw [h.shown]
          exact ⟨List.mem_append_left _ hin, List.mem_append_left _ hkept⟩
        rw [Bool.eq_iff_iff, bne_iff_ne, bne_iff_ne, not_iff_not]
        exact ⟨hs.eq_of_quad_eq hboth.1 hboth.2, fun heq => by rw [heq]⟩
      · rw [List.filter_eq_self]
        intro other hin
        rw [bne_iff_ne]
        exact hother other hin

/-- Whatever a transaction does, what it records leads from the latest snapshot to what it shows. -/
theorem Stages.records {u : Transaction} (hstages : t.Stages u) (hs : t.Sound) (h : t.Records) :
    u.Records := by
  induction hstages with
  | refl => exact h
  | @learn u d hu hd ih =>
    have hsound := hu.sound hs
    have hkeeps : ∀ stamp, u.store.Keeps stamp { u.store with dictionary := d } :=
      fun _ => ⟨hd, rfl⟩
    exact ih.congr ((hkeeps _).statements hsound.readable) (survivors_learn hsound hd)
      ((hkeeps _).statements hsound.readable)
  | @remove u e hu he ih => exact ih.stageRemoval (hu.sound hs) he
  | @insert u q explicit hu hknown hfree ih =>
    obtain ⟨quad, hq⟩ := hknown
    exact ih.stageInsertion (hu.sound hs) hq hfree explicit
  | changeNamespaces change _ ih => exact ih.congr rfl rfl rfl

end Transaction
end QuadStore
