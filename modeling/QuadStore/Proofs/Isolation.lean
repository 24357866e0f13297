import QuadStore.Proofs.Cursors
import QuadStore.Proofs.Replay

/-!
# Snapshot isolation

Whatever is done to a session, what a pinned snapshot shows stays as it is for as long as it is
pinned, and a cursor gives what it would have given when it was opened. `Session.Isolated` says what
this means, and `Session.Reachable.isolated` that it holds of every session while no reserved number
is reached. At the number that stands for staged changes it does not.
-/

namespace QuadStore

/-- The pulls of a cursor that a step asks for. -/
def Step.pulls (name : String) : Step → Nat
  | .next other count => if other = name then count else 0
  | _ => 0

/-- Reads a snapshot, or else the latest one. -/
def Step.readAt (snapshot? : Option String) (read : Read) : Step :=
  snapshot?.elim (.latest read) fun name => .read (.snapshot name) read

/-- The items that the pulls of a cursor give in a step with some answer. -/
def Step.pulled (name : String) : Step → Answer → List Pulled
  | .next other _, .pulled items => if other = name then items else []
  | _, _ => []

theorem Step.pulls_of_ne {step : Step} {name : String} (h : ∀ count, step ≠ .next name count)
    (answer : Answer) : step.pulls name = 0 ∧ step.pulled name answer = [] := by
  cases step with
  | next other count =>
    have hne : other ≠ name := by
      rintro rfl
      exact h count rfl
    refine ⟨if_neg hne, ?_⟩
    cases answer with
    | pulled items => exact if_neg hne
    | _ => rfl
  | _ => exact ⟨rfl, rfl⟩

/-- Whether a step leaves a cursor alone, other than that it may pull it. -/
def Step.spares (name : String) : Step → Bool
  | .openQuads other _ _ _ => other != name
  | .openRows other _ _ _ _ => other != name
  | .close other => other != name
  | .dropCursor other => other != name
  | step => step.keepsOpen

namespace Session

variable {session : Session}

/-! ## Sessions that can be reached -/

/-- What comes of opening a store and of any steps, while no reserved number is reached. -/
inductive Reachable : Session → Prop
  | start (file? : Option Bytes) (options : StoreOptions) :
      (start file? options).2.state.Below → Reachable (start file? options).2
  | step {session : Session} (step : Step) : session.Reachable →
      (session.step step).2.state.Below → Reachable (session.step step).2

/-- The store is sound, and its pins are those of the snapshots and cursors. -/
structure Consistent (session : Session) : Prop where
  sound : session.state.Sound
  serves : session.ServesWith []

theorem consistent_start {file? : Option Bytes} {options : StoreOptions}
    (hbelow : (start file? options).2.state.Below) : (start file? options).2.Consistent := by
  have hreaders :
      readers (start file? options).2.snapshots (start file? options).2.cursors = [] := by
    unfold start
    split
    · rfl
    · dsimp only
      split <;> rfl
  cases hstate : (start file? options).2.state with
  | closed file =>
    refine ⟨?_, fun s hs => ?_⟩
    · rw [hstate]
      trivial
    · rw [hstate] at hs
      exact absurd hs (Option.some_ne_none _).symm
  | idle s =>
    rw [hstate] at hbelow
    obtain ⟨hsound, hpins⟩ := sound_start hstate hbelow.idle
    refine ⟨?_, fun s' hs => ?_⟩
    · rw [hstate]
      exact hsound
    · rw [hstate] at hs
      rw [← Option.some.inj hs, hpins, hreaders]
      exact Pins.serves_empty
  | writing w t =>
    unfold start at hstate
    split at hstate
    · simp [ofState] at hstate
    · dsimp only at hstate
      split at hstate <;> simp [ofState] at hstate

theorem Consistent.step (h : session.Consistent) {step : Step} (hopen : step.keepsOpen = true)
    (hbelow : (session.step step).2.state.Below) : (session.step step).2.Consistent :=
  ⟨(step_goes h.sound hopen).sound h.sound hbelow, step_serves h.serves h.sound hopen⟩

theorem Reachable.consistent (h : session.Reachable) : session.Consistent := by
  induction h with
  | start file? options hbelow => exact consistent_start hbelow
  | step step _ hbelow ih =>
    cases hopen : step.keepsOpen with
    | true => exact ih.step hopen hbelow
    | false =>
      cases step with
      | reopen edit options => exact consistent_start hbelow
      | _ => exact absurd hopen.symm Bool.false_ne_true

theorem Reachable.after (h : session.Reachable) {steps : List Step} (hruns : session.Runs steps) :
    (session.after steps).Reachable := by
  induction steps generalizing session with
  | nil => exact h
  | cons step rest ih => exact ih (h.step step hruns.below_step) hruns.2.2

/-- The snapshots that are pinned throughout a run show the same afterwards. -/
theorem Consistent.preserves (h : session.Consistent) {steps : List Step}
    (hruns : session.Runs steps) : session.state.Preserves (session.after steps).state := by
  induction steps generalizing session with
  | nil => exact .refl _
  | cons step rest ih =>
    have hgoes := step_goes h.sound hruns.2.1
    exact (hgoes.preserves h.sound hruns.below_step).trans
      (ih (h.step hruns.2.1 hruns.below_step) hruns.2.2)

theorem Consistent.after (h : session.Consistent) {steps : List Step}
    (hruns : session.Runs steps) : (session.after steps).Consistent := by
  induction steps generalizing session with
  | nil => exact h
  | cons step rest ih => exact ih (h.step hruns.2.1 hruns.below_step) hruns.2.2

theorem Consistent.readable (h : session.Consistent) {s : Store} (hs : session.store? = some s) :
    s.Readable := by
  rw [store?_eq] at hs
  exact h.sound.readable hs

/-! ## Pinned snapshots -/

/-- A pin is held, for a snapshot. -/
def Holds (session : Session) (pin : PinId) (stamp : Nat) : Prop :=
  ∃ s, session.store? = some s ∧ ∃ p ∈ s.pins.held, p.id = pin ∧ p.stamp = stamp

/-- The answer to a read at a stamp. -/
def readPinned (session : Session) (stamp : Nat) (read : Read) : Answer :=
  (session.ask (readStore · stamp read)).1

/-- A snapshot that has a name is read at its stamp. -/
theorem read_snapshot {s : Store} (hs : session.store? = some s) {name : String}
    {snapshot : Snapshot} (hget : session.snapshots.get? name = some snapshot) (read : Read) :
    session.read (.snapshot name) read = readStore s snapshot.stamp read := by
  unfold Session.read
  rw [hs]
  dsimp only
  rw [hget]

/-- A reader of a session holds its pin. -/
theorem Consistent.holds (h : session.Consistent) {s : Store} (hs : session.store? = some s)
    {reader : PinId × Nat} (hr : reader ∈ readers session.snapshots session.cursors) :
    session.Holds reader.1 reader.2 := by
  have hstate := hs
  rw [store?_eq] at hstate
  exact ⟨s, hs, (h.serves s hstate).held reader hr⟩

theorem mem_readers_of_cursor {name : String} {c : OpenCursor}
    (hget : session.cursors.get? name = some c) {reader : PinId × Nat}
    (hreader : c.reader? = some reader) : reader ∈ readers session.snapshots session.cursors :=
  List.mem_append_right _ (List.mem_filterMap.2 ⟨_, Table.get?_eq_some_iff.1 hget, hreader⟩)

/-- What a pin that is still held after a run says about the stores before and after it. -/
theorem Consistent.keeps (h : session.Consistent) {after : Session}
    (hpreserves : session.state.Preserves after.state) {pin : PinId} {stamp stamp' : Nat}
    (hbefore : session.Holds pin stamp) (hafter : after.Holds pin stamp') :
    ∃ s s', session.store? = some s ∧ after.store? = some s' ∧ stamp' = stamp ∧
      s'.options = s.options ∧ s.Keeps stamp s' := by
  obtain ⟨s, hs, p, hp, rfl, rfl⟩ := hbefore
  obtain ⟨s', hs', p', hp', hid, rfl⟩ := hafter
  have hstate := hs
  have hstate' := hs'
  rw [store?_eq] at hstate hstate'
  obtain ⟨t, ht, hpreserved⟩ := hpreserves s' hstate'
  rw [hstate] at ht
  obtain rfl := Option.some.inj ht
  have hserves := h.serves s hstate
  have hold : p'.id.number < s.pins.nextId := by
    rw [hid]
    exact hserves.fresh p hp
  obtain ⟨o, ho, hid', hstamp⟩ := hpreserved.pins.old p' hp' hold
  -- numbers are given once, so that it is the pin from before
  obtain rfl : o = p := hserves.eq_of_id_eq ho hp (hid'.trans hid)
  refine ⟨s, s', hs, hs', hstamp.symm, hpreserved.options, ?_⟩
  rw [hstamp]
  exact hpreserved.keeps p' hp' hold

end Session

/-- Whether a read asks for quads and what follows from them. Namespaces have no versions. -/
def Read.isOfQuads : Read → Bool
  | .namespaces => false
  | .space _ => false
  | _ => true

theorem Content.read_eq_of_statements {c c' : Content} (h : c.statements = c'.statements)
    (number : Nat) (deadline : Deadline) {read : Read} (hread : read.isOfQuads = true) :
    c.read number deadline read = c'.read number deadline read := by
  obtain ⟨statements, ns⟩ := c
  obtain rfl : statements = c'.statements := h
  cases read with
  | namespaces => exact absurd hread Bool.false_ne_true
  | space label => exact absurd hread Bool.false_ne_true
  | _ => rfl

/-- A kept snapshot is read the same. -/
theorem Store.Keeps.readStore {s s' : Store} {stamp : Nat} (h : s.Keeps stamp s')
    (hr : s.Readable) (hr' : s'.Readable) (hoptions : s'.options = s.options) {read : Read}
    (hread : read.isOfQuads = true) :
    Session.readStore s' stamp read = Session.readStore s stamp read := by
  have heq := View.readAt_eq (v := s.at stamp) .empty hr (View.size_eq hr) read
  have heq' := View.readAt_eq (v := s'.at stamp) .empty hr' (View.size_eq hr') read
  have hreads : Session.readStore s' stamp read = Session.readAt (s'.at stamp) (s'.at stamp).size
      .empty read ∧ Session.readStore s stamp read = Session.readAt (s.at stamp) (s.at stamp).size
        .empty read := by
    cases read with
    | namespaces => exact absurd hread Bool.false_ne_true
    | space label => exact absurd hread Bool.false_ne_true
    | _ => exact ⟨rfl, rfl⟩
  rw [hreads.1, hreads.2, heq, heq']
  show Content.read _ stamp s'.options.deadline read = Content.read _ stamp s.options.deadline read
  rw [hoptions]
  exact Content.read_eq_of_statements (h.statements hr) _ _ hread

/-- A look-up is answered with quads. -/
theorem Store.Readable.readStore_quads {s : Store} (hr : s.Readable) (stamp : Nat) (q : QuadQuery)
    (inferred : Bool) : ∃ qs, (s.at stamp).quads q inferred = .ok qs ∧
      Session.readStore s stamp (.quads q inferred none) = .quads qs := by
  have hqs := View.quads_eq (v := s.at stamp) .empty hr q inferred
  refine ⟨_, hqs, ?_⟩
  show Session.answer _ _ ((s.at stamp).quads q inferred) = _
  rw [hqs]
  rfl

/-- A look-up gives no quad twice if the content has none twice. -/
theorem Content.nodup_quads {c : Content} (h : (c.statements.map (·.quad)).Nodup) (q : QuadQuery)
    (inferred : Bool) : (c.quads q inferred).Nodup := by
  have hgraph : ∀ (shape : QuadShape) (g : GraphName) (x : Quad), shape.graph = .ofName g →
      x ∈ c.asked inferred shape → x.graph = g := by
    intro shape g x hshape hx
    obtain ⟨st, hst, rfl⟩ := List.mem_map.1 hx
    have hcovers := (Bool.and_eq_true_iff.1 (List.mem_filter.1 hst).2).2
    have hname := (Bool.and_eq_true_iff.1 hcovers).2
    rw [hshape, GraphShape.covers_ofName] at hname
    exact eq_of_beq hname
  unfold quads
  rw [List.nodup_flatMap]
  refine ⟨fun shape _ => h.sublist (List.filter_sublist.map _), ?_⟩
  unfold QuadQuery.shapes
  dsimp only
  split
  · exact List.pairwise_singleton _ _
  · -- a quad is in one context only
    rw [List.pairwise_map]
    refine (List.nodup_eraseDups q.contexts).imp ?_
    intro g g' hne x hx hx'
    exact hne ((hgraph _ g x rfl hx).symm.trans (hgraph _ g' x rfl hx'))

namespace Session

variable {session : Session} {name : String} {items : List Pulled}

/-- A look-up at a pinned snapshot gives no quad twice. -/
theorem Consistent.nodup_quads (h : session.Consistent) {s : Store} (hs : session.store? = some s)
    {p : Pin} (hp : p ∈ s.pins.held) {q : QuadQuery} {inferred : Bool} {qs : List Quad}
    (hqs : (s.at p.stamp).quads q inferred = .ok qs) : qs.Nodup := by
  rw [store?_eq] at hs
  obtain ⟨t, ht, rfl⟩ := h.sound.exists_transaction hs
  have hstamp : p.stamp < Stamp.never := by
    have hpinned := ht.pinned p hp
    have hbelow := ht.below
    have hpending := Stamp.pending_lt_never
    omega
  rw [View.quads_eq .empty ht.readable] at hqs
  rw [← Except.ok.inj hqs]
  exact Content.nodup_quads (ht.nodup_statements_at hstamp) q inferred

/-! ## Cursors in a session -/

/-- The items that a cursor of a session has still to give. -/
def Owes (session : Session) (name : String) (items : List Pulled) : Prop :=
  ∃ s c, session.store? = some s ∧ session.cursors.get? name = some c ∧ c.Owes s items

/-- The items that the pulls of a cursor have given. -/
def pulled (name : String) (results : List (Step × Answer)) : List Pulled :=
  results.flatMap fun (step, answer) => step.pulled name answer

/-- How often a cursor is pulled. -/
def pulls (name : String) (steps : List Step) : Nat := (steps.map (Step.pulls name)).sum

theorem cursors_dropSnapshot (session : Session) (name : String) :
    (session.dropSnapshot name).cursors = session.cursors := by
  unfold dropSnapshot
  split
  · rfl
  · exact (session.frame_mapStore _).2.2

theorem cursors_takeSnapshot (session : Session) (name : String) (source? : Option String) :
    (session.takeSnapshot name source?).2.cursors = session.cursors := by
  unfold takeSnapshot
  split
  · rfl
  · split
    · exact (cursors_dropSnapshot _ name).trans (session.frame_mapStore _).2.2
    · split
      · rfl
      · exact (cursors_dropSnapshot _ name).trans (session.frame_mapStore _).2.2

theorem get?_dropCursor_of_ne (session : Session) {other : String} (hne : other ≠ name) :
    (session.dropCursor other).cursors.get? name = session.cursors.get? name := by
  unfold dropCursor
  split
  · rfl
  · show (session.cursors.erase other).get? name = _
    rw [Table.get?_erase, if_neg hne.symm]

theorem get?_keepCursor_of_ne (session : Session) {other : String} (hne : other ≠ name)
    (c : OpenCursor) :
    (session.keepCursor other c).2.cursors.get? name = session.cursors.get? name := by
  show ((session.dropCursor other).cursors.set other c).get? name = _
  rw [Table.get?_set, if_neg hne.symm, get?_dropCursor_of_ne _ hne]

theorem get?_openQuads_of_ne (session : Session) {other : String} (hne : other ≠ name)
    (q : QuadQuery) (inferred : Bool) (snapshot? : Option String) :
    (session.openQuads other q inferred snapshot?).2.cursors.get? name =
      session.cursors.get? name := by
  have hkeep : ∀ f c, ((session.mapStore f).keepCursor other c).2.cursors.get? name =
      session.cursors.get? name := by
    intro f c
    rw [get?_keepCursor_of_ne _ hne, (session.frame_mapStore f).2.2]
  unfold openQuads
  split
  · rfl
  · split
    · exact hkeep _ _
    · split
      · rfl
      · exact hkeep _ _

theorem get?_openRows_of_ne (session : Session) {other : String} (hne : other ≠ name)
    (pattern : GraphPattern) (bindings : BindingSet) (inferred : Bool) (source : String) :
    (session.openRows other pattern bindings inferred source).2.cursors.get? name =
      session.cursors.get? name := by
  unfold openRows
  split
  · rfl
  · split
    · rfl
    · split
      · rfl
      · rw [get?_keepCursor_of_ne _ hne, (session.frame_mapStore _).2.2]

theorem get?_withCursor_of_ne (session : Session) {other : String} (hne : other ≠ name)
    (f : Store → OpenCursor → Answer × OpenCursor × Store) :
    (session.withCursor other f).2.cursors.get? name = session.cursors.get? name := by
  unfold withCursor
  split
  · rfl
  · split
    · rfl
    · show (session.cursors.set other _).get? name = _
      rw [Table.get?_set, if_neg hne.symm]

/-- A step that neither replaces nor pulls a cursor leaves it as it is. -/
theorem get?_step (h : session.Consistent) {step : Step} (hspares : step.spares name = true)
    (hopen : step.keepsOpen = true) (hpulls : ∀ count, step ≠ .next name count) :
    (session.step step).2.cursors.get? name = session.cursors.get? name := by
  cases hreaders : step.changesReaders with
  | false => rw [(steady_step h.sound hopen hreaders).cursors]
  | true =>
    cases step with
    | takeSnapshot other source? =>
      show (session.takeSnapshot other source?).2.cursors.get? name = _
      rw [cursors_takeSnapshot]
    | dropSnapshot other =>
      unfold Session.step
      dsimp only
      split
      · rfl
      · rw [cursors_dropSnapshot]
    | openQuads other q inferred snapshot? =>
      exact get?_openQuads_of_ne session (bne_iff_ne.1 hspares) q inferred snapshot?
    | openRows other pattern bindings inferred source =>
      exact get?_openRows_of_ne session (bne_iff_ne.1 hspares) pattern bindings inferred source
    | next other count =>
      refine get?_withCursor_of_ne session ?_ _
      rintro rfl
      exact hpulls count rfl
    | close other => exact get?_withCursor_of_ne session (bne_iff_ne.1 hspares) _
    | dropCursor other =>
      unfold Session.step
      dsimp only
      split
      · rfl
      · exact get?_dropCursor_of_ne session (bne_iff_ne.1 hspares)
    | _ => exact absurd hreaders Bool.false_ne_true

theorem isSome_store?_step (h : session.Consistent) {step : Step} (hopen : step.keepsOpen = true) :
    (session.step step).2.store?.isSome = session.store?.isSome := by
  have hnumber : ∀ session : Session, session.store?.isSome = session.state.number?.isSome := by
    intro session
    rw [store?_eq]
    exact Option.isSome_map.symm
  rw [hnumber, hnumber]
  rcases (step_goes h.sound hopen).number?_cases h.sound with heq | heq
  · rw [heq]
  · rw [heq, Option.isSome_map]

/-- A pull takes the first of what a cursor has still to give. -/
theorem Owes.next (h : session.Owes name items) (hc : session.Consistent) (count : Nat) :
    (session.next name count).1 = .pulled (drained items count) ∧
      (session.next name count).2.Owes name (items.drop count) := by
  obtain ⟨s, c, hs, hget, howes⟩ := h
  obtain ⟨hitems, hrest⟩ := howes.pullMany (hc.readable hs) count
  have hstore : (session.mapStore fun _ => (pullMany s c count).2.2).store? =
      some (pullMany s c count).2.2 := by
    rw [store?_eq, (session.frame_mapStore _).1, ← store?_eq, hs]
    rfl
  unfold Session.next withCursor
  rw [hs]
  dsimp only
  rw [hget]
  exact ⟨congrArg Answer.pulled hitems, _, _, hstore, Table.get?_set_self _ _ _, hrest⟩

/-- A step that neither replaces nor pulls a cursor changes nothing about what it has still to
give. -/
theorem Owes.keeps (h : session.Owes name items) (hc : session.Consistent) {step : Step}
    (hspares : step.spares name = true) (hopen : step.keepsOpen = true)
    (hpulls : ∀ count, step ≠ .next name count) (hbelow : (session.step step).2.state.Below) :
    (session.step step).2.Owes name items := by
  obtain ⟨s, c, hs, hget, howes⟩ := h
  have hstays := get?_step hc hspares hopen hpulls
  rw [hget] at hstays
  have hsome := isSome_store?_step hc hopen
  rw [hs] at hsome
  obtain ⟨s', hs'⟩ := Option.isSome_iff_exists.1 hsome
  have hc' := hc.step hopen hbelow
  refine ⟨s', c, hs', hstays, howes.keeps (hc.readable hs) (hc'.readable hs') ?_⟩
  intro reader hreader
  -- the cursor holds its pin before and after the step
  have hbefore := hc.holds hs (mem_readers_of_cursor hget hreader)
  have hafter := hc'.holds hs' (mem_readers_of_cursor hstays hreader)
  have hpreserves := (step_goes hc.sound hopen).preserves hc.sound hbelow
  obtain ⟨t, t', ht, ht', -, -, hkeeps⟩ := hc.keeps hpreserves hbefore hafter
  rw [hs] at ht
  rw [hs'] at ht'
  rw [Option.some.inj ht, Option.some.inj ht']
  exact hkeeps

/-- Over any run that leaves a cursor alone, its pulls give what it had to give at first. -/
theorem Owes.run (h : session.Owes name items) (hc : session.Consistent) {steps : List Step}
    (hruns : session.Runs steps) (hspares : ∀ step ∈ steps, step.spares name = true) :
    pulled name (steps.zip (session.run steps)) = drained items (pulls name steps) := by
  induction steps generalizing session items with
  | nil => exact (drained_zero items).symm
  | cons step rest ih =>
    obtain ⟨hstep, hrest⟩ := List.forall_mem_cons.1 hspares
    have hc' := hc.step hruns.2.1 hruns.below_step
    have hcons : pulled name ((step :: rest).zip (session.run (step :: rest))) =
        step.pulled name (session.step step).1 ++
          pulled name (rest.zip ((session.step step).2.run rest)) := rfl
    have hpulls : pulls name (step :: rest) = step.pulls name + pulls name rest := by
      unfold pulls
      rw [List.map_cons, List.sum_cons]
    rw [hcons, hpulls, drained_add]
    by_cases hnext : ∃ count, step = .next name count
    · obtain ⟨count, rfl⟩ := hnext
      obtain ⟨hanswer, howes⟩ := h.next hc count
      have hpulled : Step.pulled name (.next name count) (session.next name count).1 =
          drained items count := by
        rw [hanswer]
        exact if_pos rfl
      have hcount : Step.pulls name (.next name count) = count := if_pos rfl
      rw [hcount]
      exact congrArg₂ (· ++ ·) hpulled (ih howes hc' hruns.2.2 hrest)
    · have hother : ∀ count, step ≠ .next name count := fun count heq => hnext ⟨count, heq⟩
      have howes := h.keeps hc hstep hruns.2.1 hother hruns.below_step
      obtain ⟨hcount, hpulled⟩ := Step.pulls_of_ne hother (session.step step).1
      rw [hcount, hpulled, drained_zero, List.drop_zero, ih howes hc' hruns.2.2 hrest]

/-! ## Opening cursors -/

/-- A cursor that is kept has to give what it had to give when it was made. -/
theorem owes_keepCursor {s : Store} (hs : session.store? = some s) (hr : s.Readable)
    {f : Store → Store} (hf : s.Repins (f s)) {c : OpenCursor} (howes : c.Owes s items)
    (name : String) : ((session.mapStore f).keepCursor name c).2.Owes name items := by
  have hstore : (session.mapStore f).state.store? = some (f s) := by
    rw [(session.frame_mapStore f).1, ← store?_eq, hs]
    rfl
  have hdrop : (session.mapStore f).state.Repins ((session.mapStore f).dropCursor name).state :=
    repins_dropCursor name
  obtain ⟨s', hs', hrepins⟩ := hdrop.exists_store hstore
  rw [← store?_eq] at hs'
  have hall := hf.trans hrepins
  exact ⟨s', c, hs', Table.get?_set_self _ _ _,
    howes.keeps hr (hall.readable hr) fun reader _ => hall.keeps reader.2⟩

/-- A cursor over quads has to give what is read when it is opened. -/
theorem owes_openQuads (h : session.Consistent) {q : QuadQuery} {inferred : Bool}
    {snapshot? : Option String}
    (hdone : (session.openQuads name q inferred snapshot?).1 = .done) :
    ∃ qs, (session.step (.readAt snapshot? (.quads q inferred none))).1 = .quads qs ∧
      (session.openQuads name q inferred snapshot?).2.Owes name (qs.map .quad) := by
  unfold openQuads at hdone ⊢
  cases hs : session.store? with
  | none =>
    rw [hs] at hdone
    exact absurd hdone Answer.noConfusion
  | some s =>
    have hr := h.readable hs
    rw [hs] at hdone
    cases snapshot? with
    | none =>
      obtain ⟨qs, hqs, hanswer⟩ := hr.readStore_quads s.current q inferred
      refine ⟨qs, ?_, owes_keepCursor hs hr (.add .refl)
        (OpenCursor.owes_ofQuery hr s.snapshot.1 q inferred hqs) name⟩
      show (session.ask _).1 = _
      unfold ask
      rw [hs]
      exact hanswer
    | some source =>
      dsimp only at hdone ⊢
      cases hget : session.snapshots.get? source with
      | none =>
        rw [hget] at hdone
        exact absurd hdone Answer.noConfusion
      | some snapshot =>
        obtain ⟨qs, hqs, hanswer⟩ := hr.readStore_quads snapshot.stamp q inferred
        refine ⟨qs, ?_, owes_keepCursor hs hr (.share _ .refl)
          (OpenCursor.owes_ofQuery hr snapshot q inferred hqs) name⟩
        exact (read_snapshot hs hget _).trans hanswer

/-- A cursor over the rows of an evaluation has to give what is read when it is opened. -/
theorem owes_openRows (h : session.Consistent) {pattern : GraphPattern} {bindings : BindingSet}
    {inferred : Bool} {source : String}
    (hdeadline : ∀ s, session.store? = some s → s.options.deadline = .ahead)
    (hdone : (session.openRows name pattern bindings inferred source).1 = .done) :
    ∃ (columns : List Variable) (rows : List BindingSet),
      (session.step (.read (.snapshot source) (.execute pattern bindings inferred none))).1 =
        .rows columns (rows.map .ok) ∧
      (session.openRows name pattern bindings inferred source).2.Owes name (rows.map .row) := by
  unfold openRows at hdone ⊢
  cases hs : session.store? with
  | none =>
    rw [hs] at hdone
    exact absurd hdone Answer.noConfusion
  | some s =>
    have hr := h.readable hs
    rw [hs] at hdone
    dsimp only at hdone ⊢
    cases hget : session.snapshots.get? source with
    | none =>
      rw [hget] at hdone
      exact absurd hdone Answer.noConfusion
    | some snapshot =>
      rw [hget] at hdone
      dsimp only at hdone ⊢
      cases hquery : Query.ofPattern pattern bindings with
      | error e =>
        rw [hquery] at hdone
        exact absurd hdone Answer.noConfusion
      | ok query =>
        refine ⟨query.columns, query.rows ((s.at snapshot.stamp).dataset inferred), ?_,
          owes_keepCursor hs hr (.share _ .refl)
            (OpenCursor.owes_ofQuery_rows hr snapshot query inferred (hdeadline s hs)) name⟩
        refine (read_snapshot hs hget _).trans ?_
        show answer _ _ (Query.ofPattern pattern bindings) = _
        rw [hquery]
        rfl

/-! ## Isolation -/

/-- Snapshot isolation: what is pinned is read the same for as long as it is pinned, and a cursor
gives what it would have given when it was opened, whatever else is done. -/
structure Isolated (session : Session) : Prop where
  /-- A snapshot that has a name is pinned, and it is read at its stamp. -/
  snapshots : ∀ name snapshot, session.store?.isSome = true →
    session.snapshots.get? name = some snapshot →
      session.Holds snapshot.pin snapshot.stamp ∧
        ∀ read, (session.step (.read (.snapshot name) read)).1 =
          session.readPinned snapshot.stamp read
  /-- So is the one that a cursor reads, until the cursor lets go of it. -/
  cursors : ∀ name c pin stamp, session.store?.isSome = true →
    session.cursors.get? name = some c → c.reader? = some (pin, stamp) → session.Holds pin stamp
  /-- While a pin is held, it stands for one snapshot, and reads give the same. -/
  reads : ∀ steps pin stamp stamp', session.Runs steps → session.Holds pin stamp →
    (session.after steps).Holds pin stamp' → stamp' = stamp ∧
      ∀ read, read.isOfQuads = true →
        (session.after steps).readPinned stamp read = session.readPinned stamp read
  /-- A look-up at a pinned snapshot gives some quads, none of them twice. -/
  distinct : ∀ pin stamp q inferred, session.Holds pin stamp →
    ∃ qs, session.readPinned stamp (.quads q inferred none) = .quads qs ∧ qs.Nodup
  /-- The pulls of a cursor over quads give what the look-up gives when the cursor is opened. -/
  quadCursors : ∀ name q inferred snapshot?,
    (session.step (.openQuads name q inferred snapshot?)).1 = .done →
      ∃ qs, (session.step (.readAt snapshot? (.quads q inferred none))).1 = .quads qs ∧
        ∀ steps, (session.step (.openQuads name q inferred snapshot?)).2.Runs steps →
          (∀ step ∈ steps, step.spares name = true) →
            pulled name (steps.zip
              ((session.step (.openQuads name q inferred snapshot?)).2.run steps)) =
                drained (qs.map .quad) (pulls name steps)
  /-- So do those of a cursor over the rows of an evaluation without deadline. -/
  rowCursors : ∀ name pattern bindings inferred source,
    (∀ s, session.store? = some s → s.options.deadline = .ahead) →
    (session.step (.openRows name pattern bindings inferred source)).1 = .done →
      ∃ (columns : List Variable) (rows : List BindingSet),
        (session.step (.read (.snapshot source) (.execute pattern bindings inferred none))).1 =
          .rows columns (rows.map .ok) ∧
        ∀ steps, (session.step (.openRows name pattern bindings inferred source)).2.Runs steps →
          (∀ step ∈ steps, step.spares name = true) →
            pulled name (steps.zip
              ((session.step (.openRows name pattern bindings inferred source)).2.run steps)) =
                drained (rows.map .row) (pulls name steps)

/-- Every session is isolated while no reserved number is reached. -/
theorem Reachable.isolated (h : session.Reachable) : session.Isolated := by
  have hc := h.consistent
  refine ⟨?_, ?_, ?_, ?_, ?_, ?_⟩
  · intro name snapshot hopen hget
    obtain ⟨s, hs⟩ := Option.isSome_iff_exists.1 hopen
    have hmem : (snapshot.pin, snapshot.stamp) ∈ readers session.snapshots session.cursors :=
      List.mem_append_left _ (List.mem_map.2 ⟨_, Table.get?_eq_some_iff.1 hget, rfl⟩)
    refine ⟨hc.holds hs hmem, fun read => (read_snapshot hs hget read).trans ?_⟩
    unfold readPinned ask
    rw [hs]
    rfl
  · intro name c pin stamp hopen hget hreader
    obtain ⟨s, hs⟩ := Option.isSome_iff_exists.1 hopen
    exact hc.holds hs (mem_readers_of_cursor hget hreader)
  · intro steps pin stamp stamp' hruns hbefore hafter
    obtain ⟨s, s', hs, hs', hstamp, hoptions, hkeeps⟩ :=
      hc.keeps (hc.preserves hruns) hbefore hafter
    refine ⟨hstamp, fun read hread => ?_⟩
    unfold readPinned ask
    rw [hs, hs']
    exact hkeeps.readStore (hc.readable hs) ((hc.after hruns).readable hs') hoptions hread
  · intro pin stamp q inferred hholds
    obtain ⟨s, hs, p, hp, -, rfl⟩ := hholds
    obtain ⟨qs, hqs, hanswer⟩ := (hc.readable hs).readStore_quads p.stamp q inferred
    refine ⟨qs, ?_, hc.nodup_quads hs hp hqs⟩
    unfold readPinned ask
    rw [hs]
    exact hanswer
  · intro name q inferred snapshot? hdone
    obtain ⟨qs, hanswer, howes⟩ := owes_openQuads hc hdone
    refine ⟨qs, hanswer, fun steps hruns hspares => ?_⟩
    exact howes.run (hc.step rfl hruns.below) hruns hspares
  · intro name pattern bindings inferred source hdeadline hdone
    obtain ⟨columns, rows, hanswer, howes⟩ := owes_openRows hc hdeadline hdone
    refine ⟨columns, rows, hanswer, fun steps hruns hspares => ?_⟩
    exact howes.run (hc.step rfl hruns.below) hruns hspares

/-- A session with one quad, a snapshot that has two names and a cursor that shares its pin. -/
def shared : Session :=
  (start none {}).2.after [.insert ⟨.iri ⟨"s"⟩, ⟨"p"⟩, .iri ⟨"o"⟩, .default⟩,
    .takeSnapshot "first" none, .takeSnapshot "second" (some "first"),
    .openQuads "cursor" {} true (some "second")]

theorem reachable_shared : shared.Reachable := by
  have hsound : (start none {}).2.state.Sound := Store.sound_empty {}
  have hbelow : (start none {}).2.state.Below := by
    intro n hn
    rw [← Option.some.inj hn]
    decide
  exact (Reachable.start none {} hbelow).after
    (runs_of_length hsound (n := 0) rfl (by simp [Step.keepsOpen]) (by decide))

theorem isolated_shared :
    shared.Reachable ∧ shared.Holds ⟨0⟩ 1 ∧ shared.Isolated :=
  ⟨reachable_shared, ⟨_, rfl, _, List.mem_cons_self, rfl, rfl⟩, reachable_shared.isolated⟩

/-! ## The reserved number -/

/-- A journal with one record, whose number is the one of staged changes. -/
def reservedJournal : Bytes :=
  Journal.header ++ [0, 0, 0, 13, 255, 255, 255, 255, 255, 255, 255, 254, 0, 0, 0, 1, 5]

/-- A session that is opened on this journal and takes a snapshot. -/
def reserved : Session := (start (some reservedJournal) {}).2.after [.takeSnapshot "snapshot" none]

/-- The session after a quad has been staged. -/
def reservedStaged : Session :=
  reserved.after [.begin .transaction,
    .write .transaction (.insert ⟨.iri ⟨"s"⟩, ⟨"p"⟩, .iri ⟨"o"⟩, .default⟩ true)]

/-- At the reserved number, a pinned snapshot shows what is staged after it has been pinned. -/
theorem readPinned_reserved :
    reserved.Holds ⟨0⟩ Stamp.pending ∧ reservedStaged.Holds ⟨0⟩ Stamp.pending ∧
      reserved.readPinned Stamp.pending (.quads {} true none) = .quads [] ∧
      reservedStaged.readPinned Stamp.pending (.quads {} true none) =
        .quads [⟨.iri ⟨"s"⟩, ⟨"p"⟩, .iri ⟨"o"⟩, .default⟩] :=
  ⟨⟨_, rfl, _, List.mem_cons_self, rfl, rfl⟩, ⟨_, rfl, _, List.mem_cons_self, rfl, rfl⟩, rfl, rfl⟩

end Session
end QuadStore
