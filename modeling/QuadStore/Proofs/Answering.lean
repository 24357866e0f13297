import QuadStore.Proofs.Durability
import QuadStore.Proofs.Expiring
import QuadStore.Proofs.Readability

/-!
# Answers without corruption

Whatever is asked of a store that stays open, no answer tells of a number without a term or of a
term that is of the wrong kind for its place: `Session.Arises.corruptions_step`. Reads, commits and
the pulls of cursors tell of no corruption at all. This holds whatever the numbers of the snapshots
are, and for cursors it needs no word about what their snapshots show.
-/

namespace QuadStore

/-! ## What answers tell of -/

/-- Whether the complaint is that a number has no term, or has one that is of the wrong kind. -/
def Corruption.isOfTerm : Corruption → Bool
  | unknownTerm _ => true
  | literalGraph _ => true
  | wrongKind _ => true
  | _ => false

/-- The corruption that an error of the store tells of. -/
def StoreError.corruption? : StoreError → Option Corruption
  | corruption c => some c
  | tooLong => none

/-- The corruption that an error of an evaluation tells of. -/
def EvaluationError.corruption? : EvaluationError → Option Corruption
  | storage c => some c
  | cancelled => none
  | invalidPattern _ => none

/-- The corruption that a failure tells of. -/
def Failure.corruption? : Failure → Option Corruption
  | store e => e.corruption?
  | evaluation e => e.corruption?
  | _ => none

/-- The corruption that a pull of a cursor tells of. -/
def Pulled.corruption? : Pulled → Option Corruption
  | failed f => f.corruption?
  | _ => none

namespace Answer

/-- The corruption that a pull of rows tells of. -/
def rowCorruption? : Except EvaluationError BindingSet → Option Corruption
  | .ok _ => none
  | .error e => e.corruption?

/-- What an answer tells of corruption. -/
def corruptions : Answer → List Corruption
  | rows _ pulls => pulls.filterMap rowCorruption?
  | pulled items => items.filterMap Pulled.corruption?
  | failed f => f.corruption?.toList
  | _ => []

end Answer

/-! ## Reads -/

namespace Session

variable {v : View}

/-- An evaluation that is read at once meets no corruption; it may only be cancelled. -/
theorem corruptions_evaluate (pattern : GraphPattern) (bindings : BindingSet) (inferred : Bool)
    (limit? : Option Nat) (deadline : Deadline) :
    (evaluate v pattern bindings inferred limit? deadline).corruptions = [] := by
  have hlimited : ∀ pulls : List (Except EvaluationError BindingSet),
      (∀ pull ∈ pulls, Answer.rowCorruption? pull = none) →
        (limited limit? pulls).filterMap Answer.rowCorruption? = [] := by
    intro pulls hpulls
    refine List.filterMap_eq_nil_iff.2 fun pull hpull => hpulls pull ?_
    cases limit? with
    | none => exact hpull
    | some n => exact List.mem_of_mem_take hpull
  unfold evaluate Query.ofPattern
  split
  · rfl
  · refine hlimited _ fun pull hpull => ?_
    unfold Query.pulls at hpull
    split at hpull
    · obtain ⟨row, -, rfl⟩ := List.mem_map.1 hpull
      rfl
    · rw [List.mem_singleton.1 hpull]
      rfl

/-- Every entry that is read stands for a quad. -/
theorem corruptions_readAt (hr : v.store.Readable) (size : Nat) (ns : Namespaces) (read : Read) :
    (readAt v size ns read).corruptions = [] := by
  cases read with
  | quads q inferred limit? =>
    rw [readAt, View.quads_eq ns hr]
    rfl
  | contexts =>
    rw [readAt, View.contexts_eq ns hr]
    rfl
  | evaluate pattern bindings inferred limit? => exact corruptions_evaluate _ _ _ _ _
  | execute pattern bindings inferred limit? => exact corruptions_evaluate _ _ _ _ _
  | _ => rfl

theorem readable_transactionOf? {session : Session} (hr : session.state.Readable) {w : Writer}
    {t : Transaction} (ht : session.transactionOf? w = some t) : t.store.Readable :=
  hr t.store (by rw [transactionOf?_eq_some_iff.1 ht]; rfl)

theorem corruptions_read {session : Session} (hr : session.state.Readable) (reader : Reader)
    (read : Read) : (session.read reader read).corruptions = [] := by
  unfold Session.read
  split
  · rfl
  · rename_i s hs
    have hstore : s.Readable := hr s (by rw [← store?_eq, hs])
    split
    · split
      · exact corruptions_readAt hstore _ _ _
      · rfl
    · split
      · rename_i t ht
        exact corruptions_readAt (v := t.view) (readable_transactionOf? hr ht) _ _ _
      · rfl
    · split
      · rfl
      · split
        · rename_i t ht
          exact corruptions_readAt (v := t.view) (readable_transactionOf? hr ht) _ _ _
        · exact corruptions_readAt hstore _ _ _

end Session

/-! ## Validation -/

/-- A check that does not complain about terms. -/
def Sparing (check : Except Corruption Unit) : Prop :=
  ∀ c, check = .error c → c.isOfTerm = false

namespace Sparing

theorem require (holds : Bool) {complaint : Corruption} (h : complaint.isOfTerm = false) :
    Sparing (Index.require holds complaint) := by
  intro c hc
  unfold Index.require at hc
  split at hc
  · exact nomatch hc
  · rw [← Except.error.inj hc]
    exact h

theorem andThen {check : Except Corruption Unit} {rest : Unit → Except Corruption Unit}
    (hcheck : Sparing check) (hrest : Sparing (rest ())) : Sparing (check >>= rest) := by
  intro c hc
  cases check with
  | error e => exact hcheck c hc
  | ok u => exact hrest c hc

theorem forM {α : Type} {xs : List α} {check : α → Except Corruption Unit}
    (h : ∀ x ∈ xs, Sparing (check x)) : Sparing (xs.forM check) := by
  induction xs with
  | nil => exact fun _ hc => nomatch hc
  | cons x rest ih =>
    exact (h x List.mem_cons_self).andThen (ih fun y hy => h y (List.mem_cons_of_mem _ hy))

end Sparing

/-- The index is checked without the dictionary. -/
theorem Index.sparing_validate (index : Index) : Sparing index.validate := by
  refine Sparing.andThen (.forM fun e _ => ?_) (.forM fun role _ => ?_)
  · exact (Sparing.require _ rfl).andThen <| (Sparing.require _ rfl).andThen <|
      .forM fun role _ => .require _ rfl
  · refine Sparing.andThen (.forM fun list _ => ?_) (.require _ rfl)
    exact (Sparing.require _ rfl).andThen (.forM fun id _ => .require _ rfl)

/-- The entries are found to stand for quads. -/
theorem Store.Readable.sparing_validate {s : Store} (hr : s.Readable) : Sparing s.validate := by
  refine s.index.sparing_validate.andThen <| Sparing.andThen (.forM fun e he => ?_)
    (.require _ rfl)
  -- the quad of an entry is read before anything else is checked
  obtain ⟨q, hq⟩ := hr.known e he
  unfold checkEntry
  rw [hq]
  exact (Sparing.require _ rfl).andThen (.require _ rfl)

/-! ## Cursors -/

/-- An entry that a cursor comes to is in the index. -/
theorem QuadCursor.mem_of_advance {index : Index} {stamp : Nat} {inferred : Bool}
    {scan? : Option Index.Scan} {shapes rest : List EncodedShape} {e : Entry} {after : Index.Scan}
    (h : advance index stamp inferred scan? shapes = some (e, after, rest)) :
    e ∈ index.entries := by
  have hfirst : ∀ {scan? : Option Index.Scan} {e : Entry} {after : Index.Scan},
      scan?.bind index.next? = some (e, after) → e ∈ index.entries := by
    intro scan? e after hnext
    obtain ⟨scan, -, hscan⟩ := Option.bind_eq_some_iff.1 hnext
    exact (Index.length_of_next? hscan).1
  induction shapes generalizing scan? with
  | nil =>
    obtain ⟨⟨first, scan⟩, hnext, heq⟩ := Option.map_eq_some_iff.1 h
    obtain ⟨rfl, -⟩ := Prod.mk.inj heq
    exact hfirst hnext
  | cons shape shapes ih =>
    unfold advance at h
    split at h
    · rename_i first scan hnext
      obtain ⟨rfl, -⟩ := Prod.mk.inj (Option.some.inj h)
      exact hfirst hnext
    · exact ih h

theorem QuadCursor.corruption?_next (c : QuadCursor) {s : Store} (hr : s.Readable) :
    (Session.pulledQuad (c.next s).1).corruption? = none := by
  unfold QuadCursor.next
  split
  · rfl
  · rename_i e after rest hadvance
    obtain ⟨q, hq⟩ := hr.known e (mem_of_advance hadvance)
    rw [hq]
    rfl

/-- The evaluation under way, if there is one, comes to its end over any readable stores. -/
def RowCursor.Expires (c : RowCursor) : Prop :=
  ∀ state, c.state? = some state → c.query.pattern.evaluator.Expires state

theorem RowCursor.expires_close (c : RowCursor) : c.close.Expires :=
  fun _ hstate => absurd hstate (Option.some_ne_none _).symm

theorem RowCursor.Expires.next {c : RowCursor} (h : c.Expires) {s : Store} (hr : s.Readable) :
    (Session.pulledRow (c.next s).1).corruption? = none ∧ (c.next s).2.Expires := by
  unfold RowCursor.next
  split
  · exact ⟨rfl, h⟩
  · exact ⟨rfl, c.expires_close⟩
  · rename_i state hstate _
    obtain ⟨x?, after, hpull, hrest⟩ :=
      (h state hstate).pull (r := reading s c.stamp c.inferred) hr
    rw [hpull.next_eq]
    cases x? with
    | none => exact ⟨rfl, c.expires_close⟩
    | some x =>
      refine ⟨rfl, fun state hstate => ?_⟩
      obtain rfl := Option.some.inj hstate
      exact hrest (Option.some_ne_none x)

namespace OpenCursor

/-- A cursor over rows comes to its end. -/
def Expires : OpenCursor → Prop
  | quads _ => True
  | rows c => c.Expires

variable {c : OpenCursor} {s : Store}

theorem Expires.pull (h : c.Expires) (hr : s.Readable) :
    (Session.pull s c).1.corruption? = none ∧ (Session.pull s c).2.1.Expires := by
  cases c with
  | quads c => exact ⟨c.corruption?_next hr, trivial⟩
  | rows c => exact RowCursor.Expires.next h hr

theorem Expires.pullMany (h : c.Expires) (hr : s.Readable) (count : Nat) :
    (∀ item ∈ (Session.pullMany s c count).1, item.corruption? = none) ∧
      (Session.pullMany s c count).2.1.Expires := by
  induction count generalizing s c with
  | zero => exact ⟨fun _ hitem => absurd hitem List.not_mem_nil, h⟩
  | succ n ih =>
    obtain ⟨hitem, hafter⟩ := h.pull hr
    -- a pull may let go of a reader, which does not touch the entries
    obtain ⟨hitems, hlast⟩ := ih hafter ((Session.repins_pull s c).readable hr)
    refine ⟨fun item hmem => ?_, hlast⟩
    rcases List.mem_cons.1 hmem with rfl | hmem
    · exact hitem
    · exact hitems item hmem

end OpenCursor

/-! ## Sessions -/

namespace Session

variable {session : Session}

/-- Every open cursor over rows comes to its end. -/
def Expires (session : Session) : Prop :=
  ∀ name c, session.cursors.get? name = some c → c.Expires

theorem expires_start (file? : Option Bytes) (options : StoreOptions) :
    (start file? options).2.Expires := by
  have hnone : (start file? options).2.cursors = .empty := by
    unfold start
    split
    · rfl
    · dsimp only
      split <;> rfl
  intro name c hget
  rw [hnone] at hget
  exact absurd hget (Option.some_ne_none _).symm

theorem Expires.of_cursors (h : session.Expires) {after : Session}
    (hsame : after.cursors = session.cursors) : after.Expires := by
  intro name c hget
  rw [hsame] at hget
  exact h name c hget

theorem cursors_withIdle (session : Session) (f : Store → Answer × Store) :
    (session.withIdle f).2.cursors = session.cursors := by
  unfold withIdle
  split <;> rfl

theorem cursors_withTransaction (session : Session) (w : Writer)
    (f : Transaction → Answer × SessionState) :
    (session.withTransaction w f).2.cursors = session.cursors := by
  unfold withTransaction
  split <;> rfl

theorem cursors_begin (session : Session) (w : Writer) :
    (session.begin w).2.cursors = session.cursors := by
  unfold begin
  split
  · rfl
  · split <;> rfl
  · split
    · rfl
    · split <;> rfl

theorem expires_dropCursor (h : session.Expires) (name : String) :
    (session.dropCursor name).Expires := by
  unfold dropCursor
  split
  · exact h
  · intro other c hget
    replace hget : (session.cursors.erase name).get? other = some c := hget
    rw [Table.get?_erase] at hget
    split_ifs at hget
    exact h other c hget

theorem expires_keepCursor (h : session.Expires) (f : Store → Store) (name : String)
    {c : OpenCursor} (hc : c.Expires) : ((session.mapStore f).keepCursor name c).2.Expires := by
  have hdropped := expires_dropCursor (h.of_cursors (session.frame_mapStore f).2.2) name
  intro other kept hget
  replace hget : (((session.mapStore f).dropCursor name).cursors.set name c).get? other =
    some kept := hget
  rw [Table.get?_set] at hget
  split_ifs at hget
  · rw [← Option.some.inj hget]
    exact hc
  · exact hdropped other kept hget

theorem expires_openQuads (h : session.Expires) (name : String) (q : QuadQuery) (inferred : Bool)
    (snapshot? : Option String) : (session.openQuads name q inferred snapshot?).2.Expires := by
  unfold openQuads
  split
  · exact h
  · split
    · exact expires_keepCursor h _ name trivial
    · split
      · exact h
      · exact expires_keepCursor h _ name trivial

/-- An evaluation that begins over a readable store comes to its end. -/
theorem expires_openRows (h : session.Expires) (hr : session.state.Readable) (name : String)
    (pattern : GraphPattern) (bindings : BindingSet) (inferred : Bool) (source : String) :
    (session.openRows name pattern bindings inferred source).2.Expires := by
  unfold openRows
  split
  · exact h
  · rename_i s hs
    have hstore : s.Readable := hr s (by rw [← store?_eq, hs])
    split
    · exact h
    · split
      · exact h
      · rename_i snapshot _ _ query _
        -- the cursor begins over the store as it is, and may be pulled over any other
        refine expires_keepCursor h _ name fun state hstate => ?_
        obtain rfl := Option.some.inj hstate
        exact query.pattern.expires_evaluator
          (RowCursor.reading s snapshot.stamp inferred) hstore query.start

theorem expires_withCursor (h : session.Expires) (hr : session.state.Readable) {name : String}
    {f : Store → OpenCursor → Answer × OpenCursor × Store}
    (hf : ∀ s c, s.Readable → c.Expires → (f s c).2.1.Expires) :
    (session.withCursor name f).2.Expires := by
  unfold withCursor
  split
  · exact h
  · rename_i s hs
    have hstore : s.Readable := hr s (by rw [← store?_eq, hs])
    split
    · exact h
    · rename_i c hc
      intro other kept hget
      replace hget : (session.cursors.set name (f s c).2.1).get? other = some kept := hget
      rw [Table.get?_set] at hget
      split_ifs at hget
      · rw [← Option.some.inj hget]
        exact hf s c hstore (h name c hc)
      · exact h other kept hget

theorem expires_close (h : session.Expires) (hr : session.state.Readable) (name : String) :
    (session.close name).2.Expires := by
  refine expires_withCursor h hr fun s c _ _ => ?_
  cases c with
  | quads c => trivial
  | rows c => exact c.expires_close

/-- No step puts a cursor in a state from which it would not come to its end. -/
theorem expires_step (h : session.Expires) (hr : session.state.Readable) (step : Step) :
    (session.step step).2.Expires := by
  cases step with
  | reopen edit options => exact expires_start _ options
  | takeSnapshot name source? => exact h.of_cursors (cursors_takeSnapshot session name source?)
  | dropSnapshot name =>
    exact keeps_unlessClosed (P := Expires) h (h.of_cursors (cursors_dropSnapshot session name))
  | connect | disconnect =>
    exact keeps_unlessClosed (P := Expires) h
      (h.of_cursors (session.cursors_withTransaction _ _))
  | insert | remove | extend | collect | compact | validate =>
    exact h.of_cursors (session.cursors_withIdle _)
  | begin w => exact h.of_cursors (session.cursors_begin w)
  | commit | rollback | write => exact h.of_cursors (session.cursors_withTransaction _ _)
  | stats | options | file | files | openAgain | latest | read | isActive => exact h
  | openQuads name q inferred snapshot? => exact expires_openQuads h name q inferred snapshot?
  | openRows name pattern bindings inferred snapshot =>
    exact expires_openRows h hr name pattern bindings inferred snapshot
  | next name count =>
    exact expires_withCursor h hr fun s c hs hc => (hc.pullMany hs count).2
  | close name => exact expires_close h hr name
  | dropCursor name => exact keeps_unlessClosed (P := Expires) h (expires_dropCursor h name)

theorem Arises.expires (h : session.Arises) : session.Expires := by
  induction h with
  | start file? options => exact expires_start file? options
  | step step hbefore ih => exact expires_step ih hbefore.readable step

/-! ### Answers of steps -/

/-- A commit fails because of a length alone. -/
theorem corruption_commit {t : Transaction} (hr : t.store.Readable) {e : StoreError}
    (h : t.commit.1 = .error e) : e = .tooLong := by
  rcases Transaction.journalAfter_cases hr (Stamp.next t.store.current) with
    ⟨journal?, hjournal, -⟩ | ⟨hjournal, -, -⟩
  · rw [Transaction.commit_of_ok hjournal] at h
    exact nomatch h
  · rw [Transaction.commit_of_error hjournal] at h
    exact (Except.error.inj h).symm

theorem corruptions_answer {α : Type} {result : Except StoreError α} {f : α → Answer}
    (hresult : ∀ e, result = .error e → e = .tooLong) (hf : ∀ a, (f a).corruptions = []) :
    (answer .store f result).corruptions = [] := by
  cases result with
  | ok a => exact hf a
  | error e =>
    rw [hresult e rfl]
    rfl

theorem corruptions_committing {α : Type} {result : α × Transaction}
    (hr : result.2.store.Readable) {f : α → Answer} (hf : ∀ a, (f a).corruptions = []) :
    (answer .store f (Store.committing result).1).corruptions = [] := by
  refine corruptions_answer (fun e he => ?_) hf
  rw [committing_eq] at he
  cases hcommit : result.2.commit.1 with
  | ok n =>
    rw [hcommit] at he
    exact nomatch he
  | error e' =>
    rw [hcommit] at he
    rw [← Except.error.inj he]
    exact corruption_commit hr hcommit

theorem corruptions_compact {s : Store} (hr : s.Readable) :
    (answer .store (fun _ => .done) s.compact.1).corruptions = [] := by
  refine corruptions_answer (fun e he => ?_) fun _ => rfl
  unfold Store.compact at he
  dsimp only at he
  split at he
  · exact nomatch he
  · rw [hr.collect.summary_eq] at he
    dsimp only at he
    split at he
    · exact nomatch he
    · exact (Except.error.inj he).symm

theorem corruptions_ask {f : Store → Answer}
    (hf : ∀ s, session.store? = some s → (f s).corruptions = []) :
    (session.ask f).1.corruptions = [] := by
  unfold ask
  cases hs : session.store? with
  | none => rfl
  | some s => exact hf s hs

/-- What is not done to the store tells of no corruption. -/
theorem exists_of_mem_corruptions_withIdle (hr : session.state.Readable)
    {f : Store → Answer × Store} {c : Corruption}
    (hc : c ∈ (session.withIdle f).1.corruptions) :
    ∃ s, s.Readable ∧ c ∈ (f s).1.corruptions := by
  unfold withIdle at hc
  split at hc
  · exact absurd hc List.not_mem_nil
  · exact absurd hc List.not_mem_nil
  · rename_i s hs
    rw [hs] at hr
    exact ⟨s, hr s rfl, hc⟩

theorem corruptions_withIdle (hr : session.state.Readable) {f : Store → Answer × Store}
    (hf : ∀ s, s.Readable → (f s).1.corruptions = []) :
    (session.withIdle f).1.corruptions = [] := by
  refine List.eq_nil_iff_forall_not_mem.2 fun c hc => ?_
  obtain ⟨s, hs, hmem⟩ := exists_of_mem_corruptions_withIdle hr hc
  rw [hf s hs] at hmem
  exact List.not_mem_nil hmem

theorem corruptions_withTransaction (hr : session.state.Readable) {w : Writer}
    {f : Transaction → Answer × SessionState}
    (hf : ∀ t, t.store.Readable → (f t).1.corruptions = []) :
    (session.withTransaction w f).1.corruptions = [] := by
  unfold withTransaction
  split
  · unfold idleFailure
    split
    · rfl
    · split
      · rfl
      · split <;> rfl
  · rename_i t ht
    exact hf t (readable_transactionOf? hr ht)

theorem corruptions_begin (w : Writer) : (session.begin w).1.corruptions = [] := by
  unfold begin
  split
  · rfl
  · split <;> rfl
  · split
    · rfl
    · split <;> rfl

theorem corruptions_takeSnapshot (name : String) (source? : Option String) :
    (session.takeSnapshot name source?).1.corruptions = [] := by
  unfold takeSnapshot
  split
  · rfl
  · split
    · rfl
    · split <;> rfl

theorem corruptions_openQuads (name : String) (q : QuadQuery) (inferred : Bool)
    (snapshot? : Option String) :
    (session.openQuads name q inferred snapshot?).1.corruptions = [] := by
  unfold openQuads
  split
  · rfl
  · split
    · rfl
    · split <;> rfl

theorem corruptions_openRows (name : String) (pattern : GraphPattern) (bindings : BindingSet)
    (inferred : Bool) (source : String) :
    (session.openRows name pattern bindings inferred source).1.corruptions = [] := by
  unfold openRows Query.ofPattern
  split
  · rfl
  · split
    · rfl
    · split
      · rename_i fault hfault
        split at hfault
        · rw [← Except.error.inj hfault]
          rfl
        · exact nomatch hfault
      · rfl

theorem corruptions_withCursor (h : session.Expires) (hr : session.state.Readable) {name : String}
    {f : Store → OpenCursor → Answer × OpenCursor × Store}
    (hf : ∀ s c, s.Readable → c.Expires → (f s c).1.corruptions = []) :
    (session.withCursor name f).1.corruptions = [] := by
  unfold withCursor
  split
  · rfl
  · rename_i s hs
    split
    · rfl
    · rename_i c hc
      exact hf s c (hr s (by rw [← store?_eq, hs])) (h name c hc)

/-- The validation is the only step that may tell of a corruption, and of none that is of a term. -/
theorem corruptions_step (h : session.Expires) (hr : session.state.Readable) {step : Step}
    (hopen : step.keepsOpen = true) :
    ∀ c ∈ (session.step step).1.corruptions, step = .validate ∧ c.isOfTerm = false := by
  -- all steps but one tell of nothing
  have hnone : ∀ {answer : Answer} {step : Step}, answer.corruptions = [] →
      ∀ c ∈ answer.corruptions, step = .validate ∧ c.isOfTerm = false := by
    intro answer step hanswer c hc
    rw [hanswer] at hc
    exact absurd hc List.not_mem_nil
  cases step with
  | reopen edit options => exact absurd hopen Bool.false_ne_true
  | takeSnapshot name source? => exact hnone (corruptions_takeSnapshot name source?)
  | dropSnapshot | connect | disconnect | dropCursor =>
    refine hnone ?_
    unfold Session.step
    dsimp only
    split <;> rfl
  | stats | options | openAgain => exact hnone (corruptions_ask fun _ _ => rfl)
  | file | files => exact hnone rfl
  | insert q =>
    exact hnone <| corruptions_withIdle hr fun s hs => corruptions_committing
      (Transaction.readable_insert (t := s.begin) hs q true) fun _ => rfl
  | remove q =>
    exact hnone <| corruptions_withIdle hr fun s hs => corruptions_committing
      (Transaction.readable_remove (t := s.begin) hs q true) fun _ => rfl
  | extend quads =>
    refine hnone <| corruptions_withIdle hr fun s hs => ?_
    have hinserted := Transaction.readable_insertAll (t := s.begin) hs quads
    exact corruptions_committing hinserted fun _ => rfl
  | collect => exact hnone (corruptions_withIdle hr fun _ _ => rfl)
  | compact => exact hnone (corruptions_withIdle hr fun _ hs => corruptions_compact hs)
  | validate =>
    intro c hc
    refine ⟨rfl, ?_⟩
    obtain ⟨s, hs, hmem⟩ := exists_of_mem_corruptions_withIdle hr hc
    cases hvalidate : s.validate with
    | ok u =>
      rw [hvalidate] at hmem
      exact absurd hmem List.not_mem_nil
    | error e =>
      rw [hvalidate] at hmem
      rw [List.mem_singleton.1 hmem]
      exact hs.sparing_validate e hvalidate
  | latest read =>
    refine hnone (corruptions_ask fun s hs => ?_)
    exact corruptions_readAt (hr s (by rw [← store?_eq, hs])) _ _ _
  | read reader read => exact hnone (corruptions_read hr reader read)
  | begin w => exact hnone (corruptions_begin w)
  | commit w =>
    exact hnone <| corruptions_withTransaction hr fun t ht =>
      corruptions_answer (fun _ he => corruption_commit ht he) fun _ => rfl
  | rollback w => exact hnone (corruptions_withTransaction hr fun _ _ => rfl)
  | write w change =>
    refine hnone (corruptions_withTransaction hr fun t _ => ?_)
    cases change <;> rfl
  | isActive name =>
    refine hnone (corruptions_ask fun s _ => ?_)
    split <;> rfl
  | openQuads name q inferred snapshot? =>
    exact hnone (corruptions_openQuads name q inferred snapshot?)
  | openRows name pattern bindings inferred snapshot =>
    exact hnone (corruptions_openRows name pattern bindings inferred snapshot)
  | next name count =>
    refine hnone (corruptions_withCursor h hr fun s c hs hc => ?_)
    exact List.filterMap_eq_nil_iff.2 (hc.pullMany hs count).1
  | close name =>
    refine hnone (corruptions_withCursor h hr fun s c _ _ => ?_)
    cases c <;> rfl

/-- Whatever has been done before, a store that stays open answers without a word of corrupted
terms, and without one of corruption unless it is validated. -/
theorem Arises.corruptions_step (h : session.Arises) {step : Step}
    (hopen : step.keepsOpen = true) :
    ∀ c ∈ (session.step step).1.corruptions, step = .validate ∧ c.isOfTerm = false :=
  Session.corruptions_step h.expires h.readable hopen

end Session
end QuadStore
