import QuadStore.Proofs.Encoding
import QuadStore.Proofs.Isolation
import QuadStore.Proofs.Surviving

/-!
# Durability

The journal of a store says what the latest snapshot shows. `Committed.replay?` goes through the
records of a journal with a list of quads, and a store replays them in the same way. Each step of a
session keeps the journal up to date: a commit appends what it has recorded, and a compaction writes
down what there is. So a store that is opened on the journal of another one shows the same:
`Session.Lasting.reopen`.
-/

namespace QuadStore

/-! ## Contents of journals -/

/-- The number of a snapshot, and its content. -/
structure Committed where
  number : Nat
  content : Content

namespace Committed

/-- What is committed before the first record. -/
def empty : Committed := ⟨0, ⟨[], .empty⟩⟩

/-- What is committed after a record, which has to follow the latest snapshot. -/
def replay? (c : Committed) (r : Record) : Option Committed :=
  if r.operations.isEmpty then some c
  else if r.snapshot ≤ c.number then none
  else (r.operations.foldlM Content.perform? c.content).map (⟨r.snapshot, ·⟩)

variable {c c' : Committed} {r : Record}

theorem replay?_of_isEmpty (h : r.operations.isEmpty = true) : c.replay? r = some c := if_pos h

theorem replay?_cases (h : c.replay? r = some c') :
    r.operations = [] ∧ c' = c ∨ c.number < r.snapshot ∧ c'.number = r.snapshot := by
  unfold replay? at h
  split at h
  · rename_i hempty
    exact .inl ⟨List.isEmpty_iff.1 hempty, (Option.some.inj h).symm⟩
  · split at h
    · exact absurd h (Option.some_ne_none _).symm
    · rename_i hnew
      obtain ⟨content, -, rfl⟩ := Option.map_eq_some_iff.1 h
      exact .inr ⟨Nat.lt_of_not_le hnew, rfl⟩

theorem number_le_of_foldlM_replay? {records : List Record}
    (h : records.foldlM replay? c = some c') : c.number ≤ c'.number := by
  induction records generalizing c with
  | nil => exact Nat.le_of_eq (congrArg number (Option.some.inj h))
  | cons r rest ih =>
    obtain ⟨next, hnext, hrest⟩ := Option.bind_eq_some_iff.1 (List.foldlM_cons.symm.trans h)
    have hle := ih hrest
    rcases replay?_cases hnext with ⟨-, rfl⟩ | ⟨hnew, heq⟩
    · exact hle
    · omega

/-- As long as no snapshot is counted, nothing happens. -/
theorem eq_of_foldlM_replay? {records : List Record} (h : records.foldlM replay? c = some c')
    (hnumber : c'.number ≤ c.number) : c' = c := by
  induction records generalizing c with
  | nil => exact (Option.some.inj h).symm
  | cons r rest ih =>
    obtain ⟨next, hnext, hrest⟩ := Option.bind_eq_some_iff.1 (List.foldlM_cons.symm.trans h)
    have hle := number_le_of_foldlM_replay? hrest
    rcases replay?_cases hnext with ⟨-, rfl⟩ | ⟨hnew, heq⟩
    · exact ih hrest hnumber
    · omega

end Committed

/-- What is committed in a store. -/
def Store.committed (s : Store) : Committed := ⟨s.current, s.latest.content s.namespaces⟩

/-! ## Replay and contents -/

namespace Transaction

variable {t u : Transaction}

/-- An operation is repeated as it would be in the content. -/
theorem perform_eq (h : t.Sound) (op : Operation) :
    (t.perform op).toOption.map content = t.content.perform? op := by
  cases op with
  | insert q explicit => exact congrArg some (insert_eq h q explicit).2
  | remove q explicit =>
    obtain ⟨hanswer, hcontent⟩ := remove_eq h q explicit
    unfold perform Content.perform?
    dsimp only
    rw [← hanswer, ← hcontent]
    rcases t.remove q explicit with ⟨removed, u⟩
    cases removed <;> rfl
  | changeNamespaces change =>
    show some (Content.mk _ (Namespaces.applyAll _ (t.namespaceChanges ++ [change]))) =
      some (Content.mk _ _)
    unfold Namespaces.applyAll
    rw [List.foldl_append]
    rfl

theorem foldlM_perform_eq (h : t.Sound) (ops : List Operation) :
    (ops.foldlM perform t).toOption.map content = ops.foldlM Content.perform? t.content := by
  induction ops generalizing t with
  | nil => rfl
  | cons op rest ih =>
    rw [List.foldlM_cons, List.foldlM_cons, ← perform_eq h]
    cases hop : t.perform op with
    | error c => rfl
    | ok u => exact ih ((Store.stages_perform h hop).sound h)

theorem content_begin {s : Store} (h : s.Sound) : s.begin.content = s.committed.content :=
  congrArg (Content.mk · s.namespaces) h.statements_begin

/-- A commit puts what the transaction shows in the place of what was committed. -/
theorem Sound.committed_publish (h : t.Sound) {stamp : Nat} (hnew : t.store.current < stamp)
    (hstamp : stamp < Stamp.pending) : (t.publish stamp).committed = ⟨stamp, t.content⟩ := by
  have hstatements := h.statements_publish hnew hstamp
  have hcurrent := t.current_publish stamp
  have hnamespaces : (t.publish stamp).namespaces = t.namespaces := by
    obtain ⟨_, _, hpublish⟩ := t.frame_publish stamp
    rw [hpublish]
  unfold Store.committed Store.latest View.content
  rw [hcurrent, hstatements, hnamespaces]
  rfl

end Transaction

namespace Store

variable {s s' : Store} {c : Committed}

/-- A record is replayed as it would be in the content. -/
theorem Sound.replay_eq (h : s.Sound) {r : Record}
    (hr : r.operations ≠ [] → r.snapshot < Stamp.pending) :
    (s.replay r).toOption.map committed = s.committed.replay? r := by
  unfold Store.replay Committed.replay?
  split
  · rfl
  · rename_i hsome
    rw [List.isEmpty_iff] at hsome
    show _ = if r.snapshot ≤ s.current then none else _
    split
    · rfl
    · rename_i hnew
      rw [← Transaction.content_begin h, ← Transaction.foldlM_perform_eq h]
      cases ht : r.operations.foldlM Transaction.perform s.begin with
      | error c => rfl
      | ok t =>
        have hsince := (Transaction.Since.begin h).stages (stages_foldlM_perform h ht)
        have hlt : t.store.current < r.snapshot := by
          rw [hsince.frame.1]
          exact Nat.lt_of_not_le hnew
        exact congrArg some (hsince.sound.committed_publish hlt (hr hsome))

/-- What a store has replayed, its content has. -/
theorem Sound.committed_of_foldlM_replay (h : s.Sound) {records : List Record}
    (hs : records.foldlM Store.replay s = .ok s') (hbelow : s'.current < Stamp.pending) :
    records.foldlM Committed.replay? s.committed = some s'.committed := by
  induction records generalizing s with
  | nil =>
    rw [← Except.ok.inj hs]
    rfl
  | cons r rest ih =>
    rw [List.foldlM_cons] at hs
    obtain ⟨next, hnext, hrest⟩ := Except.exists_of_bind_eq_ok hs
    have hle := current_le_of_foldlM_replay hrest
    have hr : r.operations ≠ [] → r.snapshot < Stamp.pending := by
      intro hsome
      rcases replay_cases hnext with ⟨hempty, -⟩ | ⟨-, t, -, rfl⟩
      · exact absurd hempty hsome
      · rw [Transaction.current_publish] at hle
        omega
    have hfirst := h.replay_eq hr
    rw [hnext] at hfirst
    rw [List.foldlM_cons, ← hfirst]
    exact ih (h.replay hnext (by omega)) hrest

/-- What can be replayed in the content of a store, the store can replay. -/
theorem Sound.exists_foldlM_replay (h : s.Sound) {records : List Record}
    (hc : records.foldlM Committed.replay? s.committed = some c)
    (hbelow : c.number < Stamp.pending) :
    ∃ s', records.foldlM Store.replay s = .ok s' ∧ s'.committed = c := by
  induction records generalizing s with
  | nil => exact ⟨s, rfl, Option.some.inj hc⟩
  | cons r rest ih =>
    obtain ⟨next, hnext, hrest⟩ := Option.bind_eq_some_iff.1 (List.foldlM_cons.symm.trans hc)
    have hle := Committed.number_le_of_foldlM_replay? hrest
    have hr : r.operations ≠ [] → r.snapshot < Stamp.pending := by
      intro hsome
      rcases Committed.replay?_cases hnext with ⟨hempty, -⟩ | ⟨-, hnumber⟩
      · exact absurd hempty hsome
      · omega
    have hfirst := h.replay_eq hr
    rw [hnext] at hfirst
    cases hreplay : s.replay r with
    | error corruption =>
      rw [hreplay] at hfirst
      exact absurd hfirst.symm (Option.some_ne_none _)
    | ok s₁ =>
      rw [hreplay] at hfirst
      obtain rfl := Option.some.inj hfirst
      obtain ⟨s', hs', hcommitted⟩ := ih (h.replay hreplay (Nat.lt_of_le_of_lt hle hbelow)) hrest
      refine ⟨s', ?_, hcommitted⟩
      rw [List.foldlM_cons, hreplay]
      exact hs'

end Store

/-! ## Records of contents -/

theorem Content.foldlM_changeNamespaces (c : Content) (changes : List NamespaceChange) :
    (changes.map Operation.changeNamespaces).foldlM Content.perform? c =
      some { c with namespaces := c.namespaces.applyAll changes } := by
  induction changes generalizing c with
  | nil => rfl
  | cons change rest ih => exact ih { c with namespaces := c.namespaces.apply change }

/-- What a transaction records leads from what is committed to what it shows. -/
theorem Transaction.Records.foldlM_operations {t : Transaction} (h : t.Records) :
    t.operations.foldlM Content.perform? t.store.committed.content = some t.content := by
  have hquads : t.survivors.foldlM Content.perform? t.store.committed.content =
      some ⟨t.view.statements, t.store.namespaces⟩ := by
    rw [h.shown]
    exact h.legal.foldlM_perform?
  show (t.survivors ++ t.namespaceChanges.map _).foldlM _ _ = _
  rw [List.foldlM_append, hquads]
  exact Content.foldlM_changeNamespaces _ _

namespace Namespaces

/-- A label above all others is put at the end. -/
theorem setIn_of_lt {label space : String} {entries : List (String × String)}
    (h : ∀ e ∈ entries, e.1 < label) : setIn label space entries = entries ++ [(label, space)] := by
  induction entries with
  | nil => rfl
  | cons first rest ih =>
    have hlt : first.1 < label := h first List.mem_cons_self
    have hne : first.1 ≠ label := fun heq => String.lt_irrefl label (heq ▸ hlt)
    have hrest := ih fun e he => h e (List.mem_cons_of_mem _ he)
    rw [setIn, if_neg hne, if_neg (String.lt_asymm hlt), hrest]
    rfl

/-- The changes that declare some labels. -/
def declarations (ns : Namespaces) : List NamespaceChange :=
  ns.entries.map fun (label, space) => .set label space

/-- The labels are set in their order, so that each of them comes after those that are there. -/
theorem applyAll_declarations (ns : Namespaces) : empty.applyAll ns.declarations = ns := by
  have hset : ∀ (rest first : List (String × String)) (hfirst : first.Pairwise (·.1 < ·.1))
      (hall : (first ++ rest).Pairwise (·.1 < ·.1)),
      applyAll ⟨first, hfirst⟩ (rest.map fun (label, space) => .set label space) =
        ⟨first ++ rest, hall⟩ := by
    intro rest
    induction rest with
    | nil =>
      intro first hfirst hall
      exact Namespaces.mk.injEq .. ▸ (List.append_nil first).symm
    | cons e rest ih =>
      intro first hfirst hall
      have hlt : ∀ x ∈ first, x.1 < e.1 := fun x hx =>
        (List.pairwise_append.1 hall).2.2 x hx e List.mem_cons_self
      have hstep : (Namespaces.mk first hfirst).set e.1 e.2 =
          ⟨first ++ [e], setIn_of_lt hlt ▸ sorted_setIn e.1 e.2 hfirst⟩ := by
        unfold set
        congr 1
        exact setIn_of_lt hlt
      rw [List.append_cons] at hall
      show applyAll ((Namespaces.mk first hfirst).set e.1 e.2) _ = _
      rw [hstep, ih _ _ hall]
      congr 1
      exact (List.append_cons first e rest).symm
  exact hset ns.entries [] .nil ns.sorted

end Namespaces

namespace Operation

theorem outcome_inserted (statements : List Statement) :
    outcome [] (statements.map ofInserted) = statements := by
  have hinserted : inserted? ∘ ofInserted = some := rfl
  show [] ++ (statements.map ofInserted).filterMap inserted? = _
  rw [List.filterMap_map, hinserted, List.filterMap_some, List.nil_append]

/-- Quads of which none is there twice can be inserted one after the other. -/
theorem legal_inserted {statements : List Statement} (h : (statements.map (·.quad)).Nodup) :
    Legal [] (statements.map ofInserted) := by
  induction statements using List.reverseRecOn with
  | nil => exact .nil
  | append_singleton init last ih =>
    rw [List.map_append, List.nodup_append] at h
    rw [List.map_append]
    refine .insert (ih h.1) ?_
    rw [outcome_inserted]
    intro other hother
    exact h.2.2 _ (List.mem_map_of_mem hother) _ List.mem_cons_self

end Operation

/-- The operations that make up a content: its namespaces are declared, then its quads inserted. -/
def Content.declared (c : Content) : List Operation :=
  c.namespaces.declarations.map .changeNamespaces ++ c.statements.map .ofInserted

theorem Content.foldlM_declared {c : Content} (h : (c.statements.map (·.quad)).Nodup) :
    c.declared.foldlM Content.perform? Committed.empty.content = some c := by
  have hnamespaces := foldlM_changeNamespaces Committed.empty.content c.namespaces.declarations
  rw [show Committed.empty.content.namespaces = .empty from rfl,
    Namespaces.applyAll_declarations] at hnamespaces
  have hquads := (Operation.legal_inserted h).foldlM_perform? (c := ⟨[], c.namespaces⟩)
  rw [Operation.outcome_inserted] at hquads
  unfold declared
  rw [List.foldlM_append, hnamespaces]
  exact hquads

/-- Visible entries are written down as the quads that they stand for. -/
theorem View.mapM_inserted {v : View} (hr : v.store.Readable) {es : List Entry}
    (hes : ∀ e ∈ es, e ∈ v.visible) :
    (es.mapM fun e => do
      return Operation.insert (← v.store.dictionary.resolveQuad e.quad) e.explicit) =
    .ok ((es.filterMap v.store.dictionary.statement?).map .ofInserted) := by
  induction es with
  | nil => rfl
  | cons e rest ih =>
    obtain ⟨st, hst⟩ := exists_statement? hr (hes e List.mem_cons_self)
    obtain ⟨hquad, hexplicit⟩ := Dictionary.statement?_eq_some_iff.1 hst
    rw [List.mapM_cons, hquad, ih fun x hx => hes x (List.mem_cons_of_mem _ hx),
      List.filterMap_cons_some hst, hexplicit]
    rfl

/-- A compaction writes down the content of the latest snapshot. -/
theorem Store.Readable.summary_eq {s : Store} (hr : s.Readable) :
    s.summary = .ok ⟨s.current, s.committed.content.declared⟩ := by
  have hvisible : s.index.entries.filter (·.isVisible s.current) = s.latest.visible := rfl
  have hinserts := View.mapM_inserted (v := s.latest) hr fun _ he => he
  unfold Store.summary
  rw [hvisible]
  show (s.latest.visible.mapM (fun e => do
    return Operation.insert (← s.latest.store.dictionary.resolveQuad e.quad) e.explicit) >>= _) = _
  rw [hinserts]
  show Except.ok (Record.mk s.current (List.map _ s.namespaces.entries ++ _)) = _
  unfold Content.declared Namespaces.declarations
  rw [List.map_map]
  rfl

/-! ## Journals that are up to date -/

namespace Committed

variable {c : Committed} {bytes frame : Bytes}

/-- A journal says what is committed: its records lead to this content, with this number or an
earlier one. -/
def KeptIn (c : Committed) (bytes : Bytes) : Prop :=
  ∃ frames records number, bytes = Journal.header ++ frames ∧ Journal.Frames frames records ∧
    records.foldlM replay? empty = some ⟨number, c.content⟩ ∧ number ≤ c.number

/-- The records of a journal lead to what is committed, with the same number. -/
def WrittenIn (c : Committed) (bytes : Bytes) : Prop :=
  ∃ frames records, bytes = Journal.header ++ frames ∧ Journal.Frames frames records ∧
    records.foldlM replay? empty = some c

theorem WrittenIn.keptIn (h : c.WrittenIn bytes) : c.KeptIn bytes := by
  obtain ⟨frames, records, hbytes, hframes, hreplay⟩ := h
  exact ⟨frames, records, c.number, hbytes, hframes, hreplay, Nat.le_refl _⟩

theorem KeptIn.exists_writtenIn (h : c.KeptIn bytes) :
    ∃ number ≤ c.number, WrittenIn ⟨number, c.content⟩ bytes := by
  obtain ⟨frames, records, number, hbytes, hframes, hreplay, hle⟩ := h
  exact ⟨number, hle, frames, records, hbytes, hframes, hreplay⟩

theorem KeptIn.later (h : c.KeptIn bytes) {n : Nat} (hn : c.number ≤ n) :
    KeptIn ⟨n, c.content⟩ bytes := by
  obtain ⟨frames, records, number, hbytes, hframes, hreplay, hle⟩ := h
  exact ⟨frames, records, number, hbytes, hframes, hreplay, Nat.le_trans hle hn⟩

/-- A record that is appended says what it leads to. -/
theorem KeptIn.append (h : c.KeptIn bytes) {r : Record} (hnew : c.number < r.snapshot)
    (hfits : r.snapshot < 2 ^ 64) (hsome : r.operations.isEmpty = false) {content : Content}
    (hcontent : r.operations.foldlM Content.perform? c.content = some content)
    (hframe : Journal.frame? r = some frame) :
    WrittenIn ⟨r.snapshot, content⟩ (bytes ++ frame) := by
  obtain ⟨frames, records, number, rfl, hframes, hreplay, hle⟩ := h
  have hold : ¬ r.snapshot ≤ number := by omega
  refine ⟨frames ++ frame, records ++ [r], List.append_assoc .., ?_, ?_⟩
  · exact hframes.append (Journal.frames_frame? hfits hframe)
  · rw [List.foldlM_concat_of_eq_some hreplay]
    unfold replay?
    rw [hsome, if_neg Bool.false_ne_true, if_neg hold, hcontent]
    rfl

/-- Only an empty content can have the number of an empty journal. -/
theorem KeptIn.number_pos (h : c.KeptIn bytes) (hsome : c.content.declared.isEmpty = false) :
    0 < c.number := by
  obtain ⟨frames, records, number, -, -, hreplay, hle⟩ := h
  rcases Nat.eq_zero_or_pos c.number with hzero | hpos
  · rw [hzero] at hle
    have heq := eq_of_foldlM_replay? hreplay hle
    have hcontent : c.content = empty.content := (Committed.mk.inj heq).2
    rw [hcontent] at hsome
    exact absurd hsome.symm Bool.false_ne_true
  · exact hpos

/-- A single record of a content that is not empty says the same as all the records before it. -/
theorem KeptIn.writtenIn_declared (h : c.KeptIn bytes)
    (hnodup : (c.content.statements.map (·.quad)).Nodup) (hfits : c.number < 2 ^ 64)
    (hframe : Journal.frame? ⟨c.number, c.content.declared⟩ = some frame)
    (hsome : c.content.declared.isEmpty = false) : c.WrittenIn (Journal.header ++ frame) := by
  have hfirst : empty.KeptIn Journal.header := ⟨[], [], 0, rfl, .nil, rfl, Nat.le_refl _⟩
  exact hfirst.append (r := ⟨c.number, c.content.declared⟩) (h.number_pos hsome) hfits hsome
    (Content.foldlM_declared hnodup) hframe

/-- So does one of an empty content, other than its number. -/
theorem KeptIn.declared (h : c.KeptIn bytes) (hnodup : (c.content.statements.map (·.quad)).Nodup)
    (hfits : c.number < 2 ^ 64)
    (hframe : Journal.frame? ⟨c.number, c.content.declared⟩ = some frame) :
    c.KeptIn (Journal.header ++ frame) := by
  cases hempty : c.content.declared.isEmpty with
  | true =>
    have hcontent := Content.foldlM_declared hnodup
    have hreplay : empty.replay? ⟨c.number, c.content.declared⟩ = some empty :=
      replay?_of_isEmpty hempty
    rw [List.isEmpty_iff.1 hempty] at hcontent
    refine ⟨frame, _, 0, rfl, Journal.frames_frame? hfits hframe, ?_, Nat.zero_le _⟩
    rw [List.foldlM_cons, hreplay, ← Option.some.inj hcontent]
    rfl
  | false => exact (h.writtenIn_declared hnodup hfits hframe hempty).keptIn

end Committed

/-- The journal of a store says what its latest snapshot shows. -/
def Store.Durable (s : Store) : Prop := ∃ bytes, s.journal? = some bytes ∧ s.committed.KeptIn bytes

namespace Store

variable {s s' : Store} {bytes : Bytes} {options : StoreOptions}

/-- What a store shows in its latest snapshot is what is committed in it. -/
theorem Keeps.committed_eq (hkeeps : s.Keeps s.current s') (hr : s.Readable)
    (hcurrent : s'.current = s.current) (hnamespaces : s'.namespaces = s.namespaces) :
    s'.committed = s.committed := by
  unfold committed latest View.content
  rw [hcurrent, hnamespaces, hkeeps.statements hr]

/-- A store that shows the same in its latest snapshot has no need of another journal. -/
theorem Durable.keeps (h : s.Durable) (hr : s.Readable) (hkeeps : s.Keeps s.current s')
    (hframe : s'.current = s.current ∧ s'.namespaces = s.namespaces ∧ s'.journal? = s.journal?) :
    s'.Durable := by
  unfold Durable
  rw [hkeeps.committed_eq hr hframe.1 hframe.2.1, hframe.2.2]
  exact h

/-- A store that is opened on a journal is what the records lead to. -/
theorem writtenIn_of_openJournal (hs : (openJournal options bytes).result = .ok s)
    (hbelow : s.current < Stamp.pending) :
    ∃ kept, s.journal? = some kept ∧ s.committed.WrittenIn kept := by
  unfold openJournal at hs
  split at hs
  · exact nomatch hs
  · rename_i records kept hrecover
    obtain ⟨frames, rfl, hframes⟩ := Journal.frames_of_recover hrecover
    obtain ⟨replayed, hreplay, hs⟩ := Except.exists_of_bind_eq_ok hs
    obtain rfl := Except.ok.inj hs
    have hcommitted := (sound_empty options).committed_of_foldlM_replay hreplay hbelow
    exact ⟨_, rfl, frames, records, rfl, hframes, hcommitted⟩

theorem durable_of_openJournal (hs : (openJournal options bytes).result = .ok s)
    (hbelow : s.current < Stamp.pending) : s.Durable := by
  obtain ⟨kept, hkept, hwritten⟩ := writtenIn_of_openJournal hs hbelow
  exact ⟨kept, hkept, hwritten.keptIn⟩

/-- A store that is opened on the journal of another one shows the same. -/
theorem Durable.openJournal (h : s.Durable) (hbelow : s.current < Stamp.pending)
    (hbytes : s.journal? = some bytes) (options : StoreOptions) :
    ∃ s', (Store.openJournal options bytes).result = .ok s' ∧ s'.current ≤ s.current ∧
      s'.committed.content = s.committed.content := by
  obtain ⟨journal, hjournal, frames, records, number, rfl, hframes, hreplay, hle⟩ := h
  rw [hjournal] at hbytes
  obtain rfl := Option.some.inj hbytes
  have hlt : number < Stamp.pending := Nat.lt_of_le_of_lt hle hbelow
  obtain ⟨replayed, hreplayed, hcommitted⟩ :=
    (sound_empty options).exists_foldlM_replay hreplay hlt
  refine ⟨{ replayed with journal? := some (Journal.header ++ frames) }, ?_, ?_, ?_⟩
  · unfold Store.openJournal
    rw [hframes.recover]
    dsimp only
    rw [hreplayed]
    rfl
  · have hnumber : replayed.current = number := congrArg Committed.number hcommitted
    exact hnumber ▸ hle
  · have hcontent : replayed.committed.content = s.committed.content := by rw [hcommitted]
    exact hcontent

/-- A compaction leaves a journal that says the same. -/
theorem Durable.compact (h : s.Durable) (hs : s.Sound) : s.compact.2.Durable := by
  have hcollect := h.keeps hs.readable (hs.keeps_collect s.protects_current) ⟨rfl, rfl, rfl⟩
  have hbelow := hs.collect.below
  have hnodup : (s.collect.2.committed.content.statements.map (·.quad)).Nodup :=
    hs.collect.nodup_statements_at (Nat.lt_trans hbelow Stamp.pending_lt_never)
  have hfits : s.collect.2.committed.number < 2 ^ 64 :=
    Nat.lt_trans hbelow (by decide)
  obtain ⟨bytes, hbytes, hkept⟩ := hcollect
  unfold Store.compact
  dsimp only
  rw [hbytes, hs.collect.readable.summary_eq]
  dsimp only
  split
  · rename_i frame hframe
    exact ⟨_, rfl, hkept.declared hnodup hfits hframe⟩
  · exact ⟨bytes, hbytes, hkept⟩

end Store

/-- A commit that could be recorded leaves a journal that says what the transaction showed. -/
theorem Transaction.Sound.durable_publish {t : Transaction} (h : t.Sound) (hrecords : t.Records)
    (hdurable : t.store.Durable) {stamp : Nat} (hnew : t.store.current < stamp)
    (hstamp : stamp < Stamp.pending) {journal? : Option Bytes}
    (hjournal : t.journalAfter stamp = .ok journal?) :
    (Transaction.publish
      { t with store := { t.store with journal? := journal? } } stamp).Durable := by
  obtain ⟨bytes, hbytes, hkept⟩ := hdurable
  have hcommitted := (h.withJournal journal?).committed_publish hnew hstamp
  have hkeep : ∀ {after : Bytes}, journal? = some after →
      Committed.KeptIn ⟨stamp, t.content⟩ after → Store.Durable (Transaction.publish
        { t with store := { t.store with journal? := journal? } } stamp) := by
    rintro after rfl hafter
    obtain ⟨_, _, hpublish⟩ := Transaction.frame_publish
      { t with store := { t.store with journal? := some after } } stamp
    refine ⟨after, by rw [hpublish], ?_⟩
    rw [hcommitted]
    exact hafter
  have hoperations := hrecords.foldlM_operations
  rw [journalAfter_eq h.readable, hbytes] at hjournal
  dsimp only at hjournal
  cases hempty : t.operations.isEmpty with
  | true =>
    rw [hempty] at hjournal
    rw [List.isEmpty_iff.1 hempty] at hoperations
    refine hkeep (Except.ok.inj hjournal).symm ?_
    rw [← Option.some.inj hoperations]
    exact hkept.later (Nat.le_of_lt hnew)
  | false =>
    rw [hempty, if_neg Bool.false_ne_true] at hjournal
    split at hjournal
    · rename_i frame hframe
      refine hkeep (Except.ok.inj hjournal).symm ?_
      exact (hkept.append (r := ⟨stamp, t.operations⟩) hnew (Nat.lt_trans hstamp (by decide)) hempty
        hoperations hframe).keptIn
    · exact nomatch hjournal

/-! ## Sessions -/

namespace SessionState

/-- The journal says what is committed, and an open transaction can be recorded. -/
def Durable : SessionState → Prop
  | .closed _ => False
  | .idle s => s.Durable
  | .writing _ t => t.store.Durable ∧ t.Records

theorem Moves.durable {a b : SessionState} (hm : a.Moves b) (hs : a.Sound) (h : a.Durable) :
    b.Durable := by
  cases hm with
  | repin hr =>
    cases hr with
    | closed file => exact h
    | @idle s s' hr =>
      obtain ⟨pins, rfl, -⟩ := hr.frame (Store.Sound.pinned hs)
      exact h
    | @writing w t s' hr =>
      obtain ⟨base, hsince⟩ := hs
      obtain ⟨pins, rfl, -⟩ := hr.frame hsince.sound.pinned
      exact ⟨h.1, h.2.congr rfl rfl rfl⟩
  | begin w => exact ⟨h, .begin hs⟩
  | @stage w t u hstages =>
    obtain ⟨base, hsince⟩ := hs
    have hsound := hsince.sound
    obtain ⟨dictionary, index, live, hu⟩ := hstages.frame hsound
    refine ⟨h.1.keeps hsound.readable (hstages.keeps hsound (Nat.le_refl _)) ?_,
      hstages.records hsound h.2⟩
    rw [hu]
    exact ⟨rfl, rfl, rfl⟩
  | @rollback w t =>
    obtain ⟨base, hsince⟩ := hs
    obtain ⟨index, live, garbage, hframe⟩ := Transaction.Since.frame_rollback t
    refine h.1.keeps hsince.sound.readable (hsince.keeps_rollback t.store.protects_current) ?_
    rw [hframe]
    exact ⟨rfl, rfl, rfl⟩
  | @collect s =>
    have hkeeps := Store.Sound.keeps_collect hs s.protects_current
    exact Store.Durable.keeps h (Store.Sound.readable hs) hkeeps ⟨rfl, rfl, rfl⟩
  | compact => exact Store.Durable.compact h hs

theorem Reaches.durable {a b : SessionState} (hr : a.Reaches b) (hs : a.Sound) (h : a.Durable) :
    b.Durable := by
  induction hr with
  | refl => exact h
  | tail hr hm ih => exact hm.durable (hr.sound hs) ih

theorem Commits.durable {a b : SessionState} (hc : a.Commits b) (hs : a.Sound) (hb : b.Below)
    (h : a.Durable) : b.Durable := by
  cases hc with
  | @publish w t journal? hjournal =>
    obtain ⟨base, hsince⟩ := hs
    have hbelow := hb.idle
    rw [Transaction.current_publish] at hbelow
    exact hsince.sound.durable_publish h.2 h.1 hsince.sound.current_lt_next hbelow hjournal

/-- Whatever a step does to an open store, its journal stays up to date. -/
theorem Goes.durable {a b : SessionState} (hg : a.Goes b) (hs : a.Sound) (hb : b.Below)
    (h : a.Durable) : b.Durable := by
  cases hg with
  | quiet hr => exact hr.durable hs h
  | commit hr hc => exact hc.durable (hr.sound hs) hb (hr.durable hs h)

theorem Durable.exists_store {a : SessionState} (h : a.Durable) :
    ∃ s, a.store? = some s ∧ s.Durable := by
  cases a with
  | closed file => exact h.elim
  | idle s => exact ⟨s, rfl, h⟩
  | writing w t => exact ⟨t.store, rfl, h.1⟩

end SessionState

/-- Whether a step leaves the bytes of the journal to the store. -/
def Step.leavesFile : Step → Bool
  | .reopen edit _ => edit == {}
  | _ => true

theorem Step.leavesFile_cases {step : Step} (h : step.leavesFile = true) :
    step.keepsOpen = true ∨ ∃ options, step = .reopen {} options := by
  cases step with
  | reopen edit options =>
    obtain rfl := eq_of_beq h
    exact .inr ⟨options, rfl⟩
  | _ => exact .inl rfl

namespace Session

variable {session : Session}

/-- What comes of opening a store on a journal that is accepted and of any steps, while no reserved
number is reached. It may be closed and opened again any number of times, on the journal that it has
left. -/
inductive Lasting : Session → Prop
  | start {bytes : Bytes} {options : StoreOptions} {s : Store} :
      (start (some bytes) options).2.state = .idle s → s.current < Stamp.pending →
        Lasting (start (some bytes) options).2
  | step {session : Session} (step : Step) : session.Lasting → step.leavesFile = true →
      (session.step step).2.state.Below → Lasting (session.step step).2

/-- To open the store again is to open one on the journal that it has left. -/
theorem step_reopen {s : Store} (hs : session.store? = some s) {bytes : Bytes}
    (hbytes : s.journal? = some bytes) (options : StoreOptions) :
    session.step (.reopen {} options) = start (some bytes) options := by
  have hfile : session.file? = some bytes := by
    rw [← hbytes]
    unfold Session.store? at hs
    unfold Session.file?
    split at hs
    · exact nomatch hs
    · rw [← Option.some.inj hs]
    · rw [← Option.some.inj hs]
  have hedited : edited {} bytes = bytes := by
    show bytes.take (bytes.length - 0) ++ [] = bytes
    rw [Nat.sub_zero, List.take_length, List.append_nil]
  show start (session.file?.map (edited {})) options = _
  rw [hfile, Option.map_some, hedited]

theorem start_eq {bytes : Bytes} {options : StoreOptions} {s : Store}
    (hs : (Store.openJournal options bytes).result = .ok s) :
    start (some bytes) options = (.opened s.current, ofState (.idle s)) := by
  unfold start
  dsimp only
  rw [hs]

/-- The store of a session is open and in agreement, and its journal is up to date. -/
structure Kept (session : Session) : Prop where
  sound : session.state.Sound
  below : session.state.Below
  durable : session.state.Durable

theorem openJournal_of_start {bytes : Bytes} {options : StoreOptions} {s : Store}
    (hs : (start (some bytes) options).2.state = .idle s) :
    (Store.openJournal options bytes).result = .ok s := by
  unfold start at hs
  dsimp only at hs
  split at hs
  · rename_i hresult
    rw [hresult, SessionState.idle.inj hs]
  · exact nomatch hs

theorem kept_start {bytes : Bytes} {options : StoreOptions} {s : Store}
    (hs : (start (some bytes) options).2.state = .idle s) (hbelow : s.current < Stamp.pending) :
    (start (some bytes) options).2.Kept := by
  have hsound := (sound_start hs hbelow).1
  refine ⟨?_, ?_, ?_⟩ <;> rw [hs]
  · exact hsound
  · rintro n hn
    exact Option.some.inj hn ▸ hbelow
  · exact Store.durable_of_openJournal (openJournal_of_start hs) hbelow

/-- The store can be opened on the journal that it has left, and shows the same again. -/
theorem Kept.exists_reopen (h : session.Kept) (options : StoreOptions) :
    ∃ s s' bytes, session.store? = some s ∧ s.Readable ∧
      session.step (.reopen {} options) = start (some bytes) options ∧
      (Store.openJournal options bytes).result = .ok s' ∧ s'.current < Stamp.pending ∧
      s'.committed.content = s.committed.content := by
  obtain ⟨s, hs, hdurable⟩ := h.durable.exists_store
  have hbelow : s.current < Stamp.pending := h.below _ (by rw [SessionState.number?, hs]; rfl)
  have hreadable := h.sound.readable hs
  obtain ⟨bytes, hbytes, -⟩ := id hdurable
  obtain ⟨s', hs', hle, hcontent⟩ := hdurable.openJournal hbelow hbytes options
  rw [← store?_eq] at hs
  exact ⟨s, s', bytes, hs, hreadable, step_reopen hs hbytes options, hs',
    Nat.lt_of_le_of_lt hle hbelow, hcontent⟩

theorem Kept.step (h : session.Kept) {step : Step} (hleaves : step.leavesFile = true)
    (hbelow : (session.step step).2.state.Below) : (session.step step).2.Kept := by
  rcases Step.leavesFile_cases hleaves with hopen | ⟨options, rfl⟩
  · have hgoes := step_goes h.sound hopen
    exact ⟨hgoes.sound h.sound hbelow, hbelow, hgoes.durable h.sound hbelow h.durable⟩
  · obtain ⟨s, s', bytes, -, -, hreopen, hs', hlt, -⟩ := h.exists_reopen options
    rw [hreopen]
    exact kept_start (congrArg (·.2.state) (start_eq hs')) hlt

theorem Lasting.kept (h : session.Lasting) : session.Kept := by
  induction h with
  | start hs hbelow => exact kept_start hs hbelow
  | step step _ hleaves hbelow ih => exact ih.step hleaves hbelow

theorem Lasting.after (h : session.Lasting) {steps : List Step} (hruns : session.Runs steps) :
    (session.after steps).Lasting := by
  induction steps generalizing session with
  | nil => exact h
  | cons step rest ih =>
    have hleaves : step.leavesFile = true := by
      have hopen := hruns.2.1
      cases step with
      | reopen edit options => exact absurd hopen Bool.false_ne_true
      | _ => rfl
    exact ih (h.step step hleaves hruns.below_step) hruns.2.2

/-- The journal that is left at any point can be opened, and the latest snapshot shows then what it
showed before: the same quads, explicit or inferred as before, in the same order, and the same
namespaces. -/
theorem Lasting.reopen (h : session.Lasting) (options : StoreOptions) :
    ∃ s s', session.store? = some s ∧
      session.step (.reopen {} options) = (.opened s'.current, ofState (.idle s')) ∧
      s'.latest.statements = s.latest.statements ∧ s'.namespaces = s.namespaces ∧
      ∀ q inferred, s'.latest.quads q inferred = s.latest.quads q inferred := by
  obtain ⟨s, s', bytes, hs, hreadable, hreopen, hs', hlt, hcontent⟩ := h.kept.exists_reopen options
  have hreadable' : s'.Readable := (Store.sound_of_openJournal hs' hlt).1.readable
  refine ⟨s, s', hs, hreopen.trans (start_eq hs'), congrArg Content.statements hcontent,
    congrArg Content.namespaces hcontent, fun q inferred => ?_⟩
  have hquads := View.quads_eq (v := s.latest) s.namespaces hreadable q inferred
  have hquads' := View.quads_eq (v := s'.latest) s'.namespaces hreadable' q inferred
  rw [hquads, hquads', show s'.latest.content s'.namespaces = _ from hcontent]
  rfl

/-- A session on a new journal: a quad is inserted, the journal is compacted, another quad is
inferred, and the removal of the first one is staged. -/
def compacted : Session :=
  (start (some []) {}).2.after [
    .insert ⟨.iri ⟨"s"⟩, ⟨"p"⟩, .iri ⟨"o"⟩, .default⟩,
    .compact,
    .begin .transaction,
    .write .transaction (.insert ⟨.iri ⟨"s"⟩, ⟨"p"⟩, .iri ⟨"s"⟩, .default⟩ false),
    .write .transaction (.changeNamespaces (.set "ex" "http://example.com/")),
    .commit .transaction,
    .begin .transaction,
    .write .transaction (.remove ⟨.iri ⟨"s"⟩, ⟨"p"⟩, .iri ⟨"o"⟩, .default⟩)]

theorem lasting_compacted : compacted.Lasting := by
  have hstart : (start (some []) {}).2.state = .idle { Store.empty {} with
      journal? := some Journal.header } := rfl
  have hlasting := Lasting.start hstart (by decide)
  exact hlasting.after (runs_of_length hlasting.kept.sound (n := 0) rfl (by simp [Step.keepsOpen])
    (by decide))

/-- The quad whose removal is only staged comes back as well. -/
theorem reopen_compacted : compacted.Lasting ∧ ∃ s s', compacted.store? = some s ∧
    compacted.step (.reopen {} {}) = (.opened s'.current, ofState (.idle s')) ∧
    s'.latest.statements = s.latest.statements ∧ s'.namespaces = s.namespaces ∧
    ∀ q inferred, s'.latest.quads q inferred = s.latest.quads q inferred :=
  ⟨lasting_compacted, lasting_compacted.reopen {}⟩

example : compacted.store?.map (·.latest.statements) =
    some [⟨⟨.iri ⟨"s"⟩, ⟨"p"⟩, .iri ⟨"o"⟩, .default⟩, true⟩,
      ⟨⟨.iri ⟨"s"⟩, ⟨"p"⟩, .iri ⟨"s"⟩, .default⟩, false⟩] := by rfl

end Session
end QuadStore
