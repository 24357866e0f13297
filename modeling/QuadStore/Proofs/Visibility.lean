import QuadStore.Proofs.Evaluation
import QuadStore.Proofs.Isolation
import QuadStore.Proofs.Ledger

/-!
# Visibility

An evaluation depends on the quads that its reader sees, and on nothing else that the store holds:
not on the numbers of its terms, on what waits to be deleted, on how it came about or on the
inferred quads when these are left out. `Session.Arises.evaluates_visible` compares the readers of
any two sessions.
-/

namespace QuadStore

/-- The quads of a look-up without restrictions are those that are seen. -/
theorem Content.quads_all (c : Content) (inferred : Bool) :
    c.quads {} inferred = (c.statements.filter fun st => inferred || st.explicit).map (·.quad) := by
  have hcovers : ∀ q : Quad, QuadShape.covers ⟨none, none, none, .any⟩ q = true := fun _ => rfl
  show c.asked inferred ⟨none, none, none, .any⟩ ++ [] = _
  rw [List.append_nil]
  unfold asked
  simp only [hcovers, Bool.and_true]

/-- Where the same quads are seen, the same dataset is read. -/
theorem View.dataset_congr {v v' : View} (hr : v.store.Readable) (hr' : v'.store.Readable)
    {inferred inferred' : Bool} (h : v.quads {} inferred = v'.quads {} inferred') :
    v.dataset inferred = v'.dataset inferred' := by
  rw [View.quads_eq .empty hr, View.quads_eq .empty hr', Content.quads_all,
    Content.quads_all] at h
  rw [View.dataset_eq .empty hr, View.dataset_eq .empty hr', Content.dataset, Content.dataset,
    Except.ok.inj h]

/-- Asserting further quads, of which none is there, appends them. -/
theorem Content.foldl_insert {c : Content} {quads : List Quad}
    (h : (c.statements.map (·.quad) ++ quads).Nodup) :
    quads.foldl (fun c q => (c.insert q true).2) c =
      { c with statements := c.statements ++ quads.map (⟨·, true⟩) } := by
  induction quads generalizing c with
  | nil => simp
  | cons q rest ih =>
    have hnew : c.statements.find? (·.quad == q) = none := by
      rw [List.find?_eq_none]
      intro st hst hq
      rw [List.nodup_append] at h
      exact h.2.2 _ (List.mem_map_of_mem hst) q List.mem_cons_self (eq_of_beq hq)
    have hinsert : (c.insert q true).2 = { c with statements := c.statements ++ [⟨q, true⟩] } := by
      unfold insert
      rw [hnew]
    rw [List.foldl_cons, hinsert, ih]
    · simp
    · simpa using h

namespace Session

variable {a b : Session} {r r' : Reader} {inferred inferred' : Bool}

/-! ## What a reader sees -/

/-- What a reader reads, if there is something. -/
def view? (session : Session) : Reader → Option View
  | .snapshot name => session.store?.bind fun s =>
    (session.snapshots.get? name).map fun snapshot => s.at snapshot.stamp
  | .writer .transaction => (session.transactionOf? .transaction).map (·.view)
  | .writer (.connection name) =>
    if session.knows (.connection name) then
      match session.transactionOf? (.connection name) with
      | some t => some t.view
      | none => session.store?.map (·.latest)
    else none

theorem store_view? {v : View} (h : a.view? r = some v) : a.store? = some v.store := by
  have htransaction : ∀ {w : Writer} {t : Transaction}, a.transactionOf? w = some t →
      a.store? = some t.store := by
    intro w t ht
    unfold store?
    rw [transactionOf?_eq_some_iff.1 ht]
  cases r with
  | snapshot name =>
    obtain ⟨s, hs, h⟩ := Option.bind_eq_some_iff.1 h
    obtain ⟨snapshot, -, rfl⟩ := Option.map_eq_some_iff.1 h
    exact hs
  | writer w =>
    cases w with
    | transaction =>
      obtain ⟨t, ht, rfl⟩ := Option.map_eq_some_iff.1 h
      exact htransaction ht
    | connection name =>
      unfold view? at h
      dsimp only at h
      split at h
      · split at h
        · rename_i t ht
          rw [← Option.some.inj h]
          exact htransaction ht
        · obtain ⟨s, hs, rfl⟩ := Option.map_eq_some_iff.1 h
          exact hs
      · exact absurd h (Option.some_ne_none _).symm

/-- What is read for a reader that asks for something. -/
def askedBy : Reader → Read → Read
  | .writer (.connection _), read => connectionRead read
  | _, read => read

/-- What a connection reads as it is asked for is read alike for every reader. -/
theorem askedBy_eq (r : Reader) {read : Read} (h : connectionRead read = read) :
    askedBy r read = read := by
  unfold askedBy
  split
  · exact h
  · rfl

/-- A reader that sees nothing is answered with a failure; else it is answered from what it sees. -/
theorem answers_cases (session : Session) (r : Reader) :
    (session.view? r = none ∧ ∃ failure, ∀ read, session.read r read = .failed failure) ∨
      ∃ v size ns, session.view? r = some v ∧ ∀ read,
        session.read r read = readAt v size ns (askedBy r read) := by
  cases hs : session.store? with
  | none =>
    refine .inl ⟨?_, .closed, fun read => by unfold Session.read; rw [hs]⟩
    cases hv : session.view? r with
    | none => rfl
    | some v => exact absurd ((store_view? hv).symm.trans hs) (Option.some_ne_none _)
  | some s =>
    unfold Session.read view?
    rw [hs]
    cases r with
    | snapshot name =>
      dsimp only
      cases session.snapshots.get? name with
      | none => exact .inl ⟨rfl, .unknown, fun _ => rfl⟩
      | some snapshot => exact .inr ⟨s.at snapshot.stamp, _, _, rfl, fun _ => rfl⟩
    | writer w =>
      cases w with
      | transaction =>
        dsimp only
        cases session.transactionOf? .transaction with
        | none => exact .inl ⟨rfl, .unknown, fun _ => rfl⟩
        | some t => exact .inr ⟨t.view, _, _, rfl, fun _ => rfl⟩
      | connection name =>
        dsimp only
        cases session.knows (.connection name) with
        | false => exact .inl ⟨rfl, .unknown, fun _ => rfl⟩
        | true =>
          cases session.transactionOf? (.connection name) with
          | none => exact .inr ⟨s.latest, s.latest.size, s.namespaces, rfl, fun _ => rfl⟩
          | some t => exact .inr ⟨t.view, t.size, t.namespaces, rfl, fun _ => rfl⟩

theorem read_cases (session : Session) (r : Reader) :
    (session.view? r = none ∧ ∃ failure, ∀ read, session.read r read = .failed failure) ∨
      ∃ v size ns, session.view? r = some v ∧ ∀ read, connectionRead read = read →
        session.read r read = readAt v size ns read := by
  rcases session.answers_cases r with hnone | ⟨v, size, ns, hv, hread⟩
  · exact .inl hnone
  · refine .inr ⟨v, size, ns, hv, fun read hsame => ?_⟩
    rw [hread, askedBy_eq r hsame]

theorem Arises.readable_view? (h : a.Arises) {v : View} (hv : a.view? r = some v) :
    v.store.Readable :=
  h.readable _ (by rw [← store?_eq, store_view? hv])

/-! ## Evaluations that are alike -/

/-- Two readers, with or without the inferred quads, get the same from every evaluation without a
deadline. -/
structure EvaluatesAs (a : Session) (r : Reader) (inferred : Bool) (b : Session) (r' : Reader)
    (inferred' : Bool) : Prop where
  /-- The same pattern is rejected for the same reason, or there are the same columns and the same
  rows in the same order. -/
  answers : ∀ pattern bindings limit?, a.read r (.execute pattern bindings inferred limit?) =
    b.read r' (.execute pattern bindings inferred' limit?)
  /-- The evaluators give the same rows from whatever row they are started on, and so do the plans,
  although these compare terms by the numbers of the two stores. -/
  evaluators : ∀ v v', a.view? r = some v → b.view? r' = some v' → ∀ (p : GraphPattern) (row : Row),
    ∃ rows, p.Gives ⟨v, inferred⟩ row rows ∧ p.Gives ⟨v', inferred'⟩ row rows
  /-- The plans of an accepted pattern give the same answers, by whatever hashes. -/
  plans : ∀ v v', a.view? r = some v → b.view? r' = some v' → ∀ (p : GraphPattern) bindings,
    p.fault? = none → ∀ hash hash', p.plannedRows ⟨⟨v, inferred⟩, hash⟩ bindings =
      p.plannedRows ⟨⟨v', inferred'⟩, hash'⟩ bindings

/-- A reader whose reads are answered is answered with the quads that it sees. -/
theorem Arises.exists_quads (h : a.Arises) {v : View} (hv : a.view? r = some v) {size : Nat}
    {ns : Namespaces}
    (hread : ∀ read, connectionRead read = read → a.read r read = readAt v size ns read)
    (inferred : Bool) : ∃ quads, v.quads {} inferred = .ok quads ∧
      a.read r (.quads {} inferred none) = .quads quads := by
  have hquads := View.quads_eq .empty (h.readable_view? hv) {} inferred
  refine ⟨_, hquads, ?_⟩
  rw [hread _ rfl, readAt, hquads]
  rfl

/-- Readers that see the same quads in the same order evaluate alike. -/
theorem Arises.evaluatesAs (ha : a.Arises) (hb : b.Arises)
    (h : a.read r (.quads {} inferred none) = b.read r' (.quads {} inferred' none)) :
    a.EvaluatesAs r inferred b r' inferred' := by
  rcases a.read_cases r with ⟨hva, failure, hfailed⟩ | ⟨v, size, ns, hv, hread⟩
  · rcases b.read_cases r' with ⟨-, failure', hfailed'⟩ | ⟨v', size', ns', hv', hread'⟩
    · rw [hfailed, hfailed'] at h
      have hunseen : ∀ w, a.view? r ≠ some w := fun w hw =>
        Option.some_ne_none w (hw.symm.trans hva)
      exact ⟨fun _ _ _ => by rw [hfailed, hfailed', h], fun w _ hw => absurd hw (hunseen w),
        fun w _ hw => absurd hw (hunseen w)⟩
    · obtain ⟨quads, -, hanswer⟩ := hb.exists_quads hv' hread' inferred'
      rw [hfailed, hanswer] at h
      exact nomatch h
  · obtain ⟨quads, hseen, hanswer⟩ := ha.exists_quads hv hread inferred
    rcases b.read_cases r' with ⟨-, failure', hfailed'⟩ | ⟨v', size', ns', hv', hread'⟩
    · rw [hanswer, hfailed'] at h
      exact nomatch h
    · obtain ⟨quads', hseen', hanswer'⟩ := hb.exists_quads hv' hread' inferred'
      rw [hanswer, hanswer'] at h
      have hsame : v.quads {} inferred = v'.quads {} inferred' := by
        rw [hseen, hseen', Answer.quads.inj h]
      have hr := ha.readable_view? hv
      have hr' := hb.readable_view? hv'
      have hdataset := View.dataset_congr hr hr' hsame
      constructor
      case answers =>
        intro pattern bindings limit?
        rw [hread _ rfl, hread' _ rfl]
        show evaluate v _ _ _ _ _ = evaluate v' _ _ _ _ _
        unfold evaluate
        rw [hdataset]
      case evaluators =>
        intro w w' hw hw' p row
        obtain rfl := Option.some.inj (hv.symm.trans hw)
        obtain rfl := Option.some.inj (hv'.symm.trans hw')
        have hgives := p.gives_rows (r := ⟨v', inferred'⟩) hr' row
        rw [show Reading.dataset ⟨v', inferred'⟩ = Reading.dataset ⟨v, inferred⟩ from
          hdataset.symm] at hgives
        exact ⟨_, p.gives_rows (r := ⟨v, inferred⟩) hr row, hgives⟩
      case plans =>
        intro w w' hw hw' p bindings haccepted hash hash'
        obtain rfl := Option.some.inj (hv.symm.trans hw)
        obtain rfl := Option.some.inj (hv'.symm.trans hw')
        obtain ⟨q, hq⟩ := Query.exists_ofPattern haccepted bindings
        have hplanned : p.plannedRows ⟨⟨v, inferred⟩, hash⟩ bindings =
            q.rows (v.dataset inferred) := GraphPattern.plannedRows_eq hr hq
        have hplanned' : p.plannedRows ⟨⟨v', inferred'⟩, hash'⟩ bindings =
            q.rows (v'.dataset inferred') := GraphPattern.plannedRows_eq hr' hq
        rw [hplanned, hplanned', hdataset]

/-! ## A store without inferred quads -/

/-- A connection to a new store in memory in which some quads have been asserted. -/
def asserting (options : StoreOptions) (quads : List Quad) : Session :=
  (start none options).2.after [.extend quads, .connect "reader"]

theorem arises_asserting (options : StoreOptions) (quads : List Quad) :
    (asserting options quads).Arises :=
  (Arises.start none options).after _

/-- The connection sees these quads, and none of them is inferred. -/
theorem read_asserting (options : StoreOptions) {quads : List Quad} (h : quads.Nodup)
    (inferred : Bool) :
    (asserting options quads).read (.writer (.connection "reader")) (.quads {} inferred none) =
      .quads quads := by
  have hstart : (start none options).2.Shows (.ofStore (.empty options) none []) :=
    .idle rfl (Store.sound_empty options) rfl
  have hruns : (start none options).2.Runs [.extend quads, .connect "reader"] := by
    refine runs_of_length hstart.sound (n := 0) rfl (by simp [Step.keepsOpen]) ?_
    show 0 + 2 < Stamp.pending
    decide
  have hextended := (step_agrees hstart rfl hruns.below_step).2
  have hconnected := (step_agrees hextended rfl hruns.2.2.below_step).2
  have hledger : (((Ledger.ofStore (.empty options) none []).step (.extend quads)).2.step
      (.connect "reader")).2 =
        ⟨((Draft.ofContent ⟨[], .empty⟩).assertAll quads).content, 1, none, ["reader"],
          options.deadline, false⟩ := rfl
  have hcontent : ((Draft.ofContent ⟨[], .empty⟩).assertAll quads).content =
      ⟨quads.map (⟨·, true⟩), .empty⟩ :=
    (Draft.content_assertAll _ quads).trans (Content.foldl_insert (c := ⟨[], .empty⟩) h)
  rw [hledger, hcontent] at hconnected
  refine hconnected.read_eq _ _ ?_
  show some (Answer.quads (Content.quads _ _ inferred)) = _
  have hexplicit : (quads.map fun q => (⟨q, true⟩ : Statement)).filter
      (fun st => inferred || st.explicit) = quads.map (⟨·, true⟩) := by
    rw [List.filter_eq_self]
    intro st hst
    obtain ⟨q, -, rfl⟩ := List.mem_map.1 hst
    exact Bool.or_true inferred
  rw [Content.quads_all, hexplicit, List.map_map]
  exact congrArg (some ∘ Answer.quads) (List.map_id quads)

/-- A reader reads a snapshot, or what is staged after it. -/
theorem Reachable.stamp_view? (ha : a.Reachable) {v : View} (hv : a.view? r = some v) :
    v.stamp < Stamp.never := by
  have hs := store_view? hv
  have hstate := hs
  rw [store?_eq] at hstate
  obtain ⟨t, ht, hstore⟩ := ha.consistent.sound.exists_transaction hstate
  have hbelow := ht.below
  have hnever := Stamp.pending_lt_never
  cases r with
  | snapshot name =>
    obtain ⟨s, hs', hv⟩ := Option.bind_eq_some_iff.1 hv
    obtain ⟨snapshot, hsnapshot, rfl⟩ := Option.map_eq_some_iff.1 hv
    have hreader : (snapshot.pin, snapshot.stamp) ∈ readers a.snapshots a.cursors :=
      List.mem_append_left _ (List.mem_map_of_mem (f := fun e => (e.2.pin, e.2.stamp))
        (Table.get?_eq_some_iff.1 hsnapshot))
    obtain ⟨s', hs'', p, hp, -, hstamp⟩ := ha.consistent.holds hs hreader
    obtain rfl := Option.some.inj (hs.symm.trans hs'')
    rw [← hstore] at hp
    have hpinned := ht.pinned p hp
    show snapshot.stamp < Stamp.never
    omega
  | writer w =>
    cases w with
    | transaction =>
      obtain ⟨t, -, rfl⟩ := Option.map_eq_some_iff.1 hv
      exact hnever
    | connection name =>
      unfold view? at hv
      dsimp only at hv
      split at hv
      · split at hv
        · rw [← Option.some.inj hv]
          exact hnever
        · obtain ⟨s, hs', rfl⟩ := Option.map_eq_some_iff.1 hv
          rw [hstore] at hbelow
          exact Nat.lt_trans hbelow hnever
      · exact absurd hv (Option.some_ne_none _).symm

/-- No reader sees a quad twice. -/
theorem Reachable.nodup_statements_view? (ha : a.Reachable) {v : View} (hv : a.view? r = some v) :
    (v.statements.map (·.quad)).Nodup := by
  have hs := store_view? hv
  rw [store?_eq] at hs
  obtain ⟨t, ht, hstore⟩ := ha.consistent.sound.exists_transaction hs
  have hnodup := ht.nodup_statements_at (ha.stamp_view? hv)
  rw [hstore] at hnodup
  exact hnodup

theorem Reachable.nodup_quads_view? (ha : a.Reachable) {v : View} (hv : a.view? r = some v)
    {quads : List Quad} (h : v.quads {} inferred = .ok quads) : quads.Nodup := by
  rw [View.quads_eq .empty (ha.consistent.readable (store_view? hv))] at h
  rw [← Except.ok.inj h]
  exact Content.nodup_quads (ha.nodup_statements_view? hv) {} inferred

theorem Reachable.arises (ha : a.Reachable) : a.Arises := by
  induction ha with
  | start file? options _ => exact .start file? options
  | step step _ _ ih => exact ih.step step

/-- What a session evaluates without the inferred quads, a store that never held them evaluates. -/
theorem Reachable.evaluatesAs_asserting (ha : a.Reachable) {quads : List Quad}
    (h : a.read r (.quads {} false none) = .quads quads) (options : StoreOptions) :
    a.EvaluatesAs r false (asserting options quads) (.writer (.connection "reader")) true := by
  refine ha.arises.evaluatesAs (arises_asserting options quads) ?_
  have hnodup : quads.Nodup := by
    rcases a.read_cases r with ⟨-, failure, hfailed⟩ | ⟨v, size, ns, hv, hread⟩
    · rw [hfailed] at h
      exact nomatch h
    · have hseen := View.quads_eq .empty (ha.arises.readable_view? hv) {} false
      rw [hread _ rfl, readAt, hseen] at h
      rw [← Answer.quads.inj h]
      exact ha.nodup_quads_view? hv hseen
  rw [h, read_asserting options hnodup]

/-- An evaluation depends only on the quads that its reader sees: it is the same for every reader of
every session who sees them in the same order. In particular, the evaluation without the inferred
quads is the one of a store that never held them. -/
theorem Arises.evaluates_visible (ha : a.Arises) (r : Reader) (inferred : Bool) :
    (∀ b : Session, b.Arises → ∀ r' inferred',
      a.read r (.quads {} inferred none) = b.read r' (.quads {} inferred' none) →
        a.EvaluatesAs r inferred b r' inferred') ∧
      ∀ quads, a.Reachable → a.read r (.quads {} false none) = .quads quads → ∀ options,
        a.EvaluatesAs r false (asserting options quads) (.writer (.connection "reader")) true :=
  ⟨fun _ hb _ _ h => ha.evaluatesAs hb h, fun _ hreachable h => hreachable.evaluatesAs_asserting h⟩

/-- A connection to a store in which one quad has come and gone and another one is inferred, which
makes the numbers of terms and entries others than in a new store. -/
def layered : Session :=
  (start none {}).2.after [
    .insert ⟨.iri ⟨"o"⟩, ⟨"p"⟩, .iri ⟨"p"⟩, .default⟩,
    .remove ⟨.iri ⟨"o"⟩, ⟨"p"⟩, .iri ⟨"p"⟩, .default⟩,
    .insert ⟨.iri ⟨"s"⟩, ⟨"p"⟩, .iri ⟨"o"⟩, .default⟩,
    .begin .transaction,
    .write .transaction (.insert ⟨.iri ⟨"o"⟩, ⟨"p"⟩, .iri ⟨"s"⟩, .default⟩ false),
    .commit .transaction,
    .connect "reader"]

/-- Without the inferred quad, it evaluates as a store that has only ever held the other one. -/
theorem evaluates_visible_layered : layered.Arises ∧
    layered.read (.writer (.connection "reader")) (.quads {} false none) =
      (asserting {} [⟨.iri ⟨"s"⟩, ⟨"p"⟩, .iri ⟨"o"⟩, .default⟩]).read
        (.writer (.connection "reader")) (.quads {} true none) ∧
    layered.EvaluatesAs (.writer (.connection "reader")) false
      (asserting {} [⟨.iri ⟨"s"⟩, ⟨"p"⟩, .iri ⟨"o"⟩, .default⟩])
      (.writer (.connection "reader")) true := by
  have harises : layered.Arises := (Arises.start none {}).after _
  exact ⟨harises, rfl, (harises.evaluates_visible _ _).1 _ (arises_asserting _ _) _ _ rfl⟩

end Session
end QuadStore
