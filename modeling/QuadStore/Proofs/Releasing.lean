import QuadStore.Proofs.Collection
import QuadStore.Proofs.Independence

/-!
# Finished cursors

A cursor is finished by a pull that gives its end or an error, or by being closed. One over quads
lets go of its pin with this step, and what is done later is as if it had been dropped
(`Session.Released`). One over rows keeps its pin until it is dropped or replaced, so that
collections leave what is visible at its snapshot. `Session.Reachable.releases` says both of every
session.
-/

namespace QuadStore

/-! ## Steps that finish a cursor -/

/-- Whether an item is the last one that a cursor gives: its end or an error. -/
def Pulled.isLast : Pulled → Bool
  | .ended | .failed _ => true
  | .quad _ | .row _ => false

namespace Step

variable {name : String} {step : Step}

/-- A step with some answer finishes a cursor: it pulls the end or an error, or it closes it. -/
def Finishes (name : String) (step : Step) (answer : Answer) : Prop :=
  (∃ item ∈ step.pulled name answer, item.isLast = true) ∨ step = .close name ∧ answer = .done

/-- Only pulls of a cursor give items of it. -/
theorem exists_next_of_pulled {answer : Answer} {item : Pulled}
    (h : item ∈ step.pulled name answer) : ∃ count, step = .next name count := by
  by_contra hother
  rw [(pulls_of_ne (not_exists.1 hother) answer).2] at h
  exact absurd h List.not_mem_nil

theorem Finishes.keepsOpen {answer : Answer} (h : step.Finishes name answer) :
    step.keepsOpen = true := by
  rcases h with ⟨item, hitem, -⟩ | ⟨rfl, -⟩
  · obtain ⟨count, rfl⟩ := exists_next_of_pulled hitem
    rfl
  · rfl

/-- Whether a step neither drops nor replaces a cursor. -/
def leaves (name : String) : Step → Bool
  | .close _ => true
  | step => step.spares name

/-- A step that neither drops nor replaces a cursor is not about it, or it pulls or closes it. -/
theorem leaves_cases (h : step.leaves name = true) :
    step.ignores name = true ∨ step.ignores name = false ∧
      ((∃ count, step = .next name count) ∨ step = .close name) := by
  cases step with
  | next other count =>
    by_cases hother : other = name
    · exact .inr ⟨bne_eq_false_iff_eq.2 hother, .inl ⟨count, by rw [hother]⟩⟩
    · exact .inl (bne_iff_ne.2 hother)
  | close other =>
    by_cases hother : other = name
    · exact .inr ⟨bne_eq_false_iff_eq.2 hother, .inr (by rw [hother])⟩
    · exact .inl (bne_iff_ne.2 hother)
  | _ => exact .inl h

end Step

/-! ## Cursors that hold nothing -/

namespace QuadCursor

/-- A cursor without pin, with nothing to look up any more. -/
structure Spent (c : QuadCursor) : Prop where
  pin : c.pin? = none
  scan : c.scan? = none
  shapes : c.shapes = []

variable {c : QuadCursor}

theorem spent_close (c : QuadCursor) (s : Store) : (c.close s).1.Spent := ⟨rfl, rfl, rfl⟩

/-- To close a cursor again does nothing. -/
theorem Spent.close_eq (h : c.Spent) (s : Store) : c.close s = (c, s) := by
  obtain ⟨stamp, inferred, scan?, shapes, pin?⟩ := c
  obtain ⟨rfl, rfl, rfl⟩ := h
  rfl

theorem Spent.next_eq (h : c.Spent) (s : Store) : c.next s = (.ok none, c, s) := by
  unfold next
  rw [h.scan, h.shapes, h.close_eq]
  rfl

/-- A pull gives a quad and keeps the pin, or it is the last one and closes the cursor. -/
theorem next_cases (c : QuadCursor) (s : Store) :
    ((Session.pulledQuad (c.next s).1).isLast = false ∧ ∃ scan? shapes,
        (c.next s).2 = ({ c with scan? := scan?, shapes := shapes }, s)) ∨
      (c.next s).2 = c.close s := by
  unfold next
  cases advance s.index c.stamp c.inferred c.scan? c.shapes with
  | none => exact .inr rfl
  | some found =>
    obtain ⟨e, scan, shapes⟩ := found
    dsimp only
    cases s.dictionary.resolveQuad e.quad with
    | ok q => exact .inl ⟨rfl, some scan, shapes, rfl⟩
    | error fault => exact .inr rfl

end QuadCursor

namespace Session

/-- Pulls of a cursor that holds nothing do nothing. -/
theorem pullMany_spent {c : QuadCursor} (h : c.Spent) (s : Store) (count : Nat) :
    (pullMany s (.quads c) count).2 = (.quads c, s) := by
  have hpull : (pull s (.quads c)).2 = (.quads c, s) := by
    unfold pull
    dsimp only
    rw [h.next_eq]
  induction count with
  | zero => rfl
  | succ n ih =>
    show (pullMany (pull s (.quads c)).2.2 (pull s (.quads c)).2.1 n).2 = _
    rw [hpull]
    exact ih

/-- Pulls up to the end or an error do to a cursor what closing it does. -/
theorem pullMany_last (c : QuadCursor) (s : Store) {count : Nat}
    (h : ∃ item ∈ (pullMany s (.quads c) count).1, item.isLast = true) :
    (pullMany s (.quads c) count).2 = (.quads (c.close s).1, (c.close s).2) := by
  induction count generalizing c with
  | zero =>
    obtain ⟨item, hitem, -⟩ := h
    exact absurd hitem List.not_mem_nil
  | succ n ih =>
    show (pullMany (c.next s).2.2 (.quads (c.next s).2.1) n).2 = _
    rcases c.next_cases s with ⟨hgoes, scan?, shapes, hnext⟩ | hnext
    · -- the last item comes with a later pull, of a cursor that is closed in the same way
      obtain ⟨item, hitem, hlast⟩ := h
      have hcons : (pullMany s (.quads c) (n + 1)).1 = pulledQuad (c.next s).1 ::
        (pullMany (c.next s).2.2 (.quads (c.next s).2.1) n).1 := rfl
      have hlater : item ∈ (pullMany (c.next s).2.2 (.quads (c.next s).2.1) n).1 := by
        rw [hcons, List.mem_cons] at hitem
        refine hitem.resolve_left fun heq => ?_
        rw [heq, hgoes] at hlast
        exact Bool.false_ne_true hlast
      rw [hnext] at hlater ⊢
      exact ih { c with scan? := scan?, shapes := shapes } ⟨item, hlater, hlast⟩
    · rw [hnext]
      exact pullMany_spent (c.spent_close s) _ n

/-! ## Cursors over quads -/

variable {session : Session} {name : String}

/-- What is done with a cursor that there is. -/
theorem withCursor_eq {s : Store} {c : OpenCursor} (hs : session.store? = some s)
    (hget : session.cursors.get? name = some c)
    (f : Store → OpenCursor → Answer × OpenCursor × Store) :
    session.withCursor name f = ((f s c).1, { session.mapStore fun _ => (f s c).2.2 with
      cursors := session.cursors.set name (f s c).2.1 }) := by
  unfold withCursor
  rw [hs]
  dsimp only
  rw [hget]

theorem next_eq {s : Store} {c : OpenCursor} (hs : session.store? = some s)
    (hget : session.cursors.get? name = some c) (count : Nat) :
    session.next name count = (.pulled (pullMany s c count).1,
      { session.mapStore fun _ => (pullMany s c count).2.2 with
        cursors := session.cursors.set name (pullMany s c count).2.1 }) :=
  withCursor_eq hs hget _

theorem withCursor_of_closed (hs : session.store? = none)
    (f : Store → OpenCursor → Answer × OpenCursor × Store) :
    session.withCursor name f = (.failed .closed, session) := by
  unfold withCursor
  rw [hs]

/-- Nothing happens to a store that is changed into itself. -/
theorem mapStore_eq_self {f : Store → Store} (hf : ∀ s, session.store? = some s → f s = s) :
    session.mapStore f = session := by
  obtain ⟨state, snapshots, connections, cursors⟩ := session
  cases state with
  | closed file => rfl
  | idle s =>
    unfold mapStore
    dsimp only
    rw [hf s rfl]
  | writing w t =>
    unfold mapStore
    dsimp only
    rw [hf t.store rfl]

/-- A step that finishes a cursor over quads does what closing it does. -/
theorem step_of_finishes {c : QuadCursor} (hget : session.cursors.get? name = some (.quads c))
    {step : Step} (h : step.Finishes name (session.step step).1) :
    ∃ s, session.store? = some s ∧ (session.step step).2 =
      { session.mapStore fun _ => (c.close s).2 with
        cursors := session.cursors.set name (.quads (c.close s).1) } := by
  rcases h with ⟨item, hitem, hlast⟩ | ⟨rfl, hdone⟩
  · obtain ⟨count, rfl⟩ := Step.exists_next_of_pulled hitem
    show ∃ s, _ ∧ (session.next name count).2 = _
    replace hitem : item ∈ Step.pulled name (.next name count) (session.next name count).1 := hitem
    cases hs : session.store? with
    | none =>
      unfold next at hitem
      rw [withCursor_of_closed hs] at hitem
      exact absurd hitem List.not_mem_nil
    | some s =>
      have hpulled : Step.pulled name (.next name count) (.pulled (pullMany s (.quads c) count).1) =
        (pullMany s (.quads c) count).1 := if_pos rfl
      rw [next_eq hs hget, hpulled] at hitem
      rw [next_eq hs hget, pullMany_last c s ⟨item, hitem, hlast⟩]
      exact ⟨s, rfl, rfl⟩
  · replace hdone : (session.close name).1 = .done := hdone
    show ∃ s, _ ∧ (session.close name).2 = _
    unfold close at hdone ⊢
    cases hs : session.store? with
    | none =>
      rw [withCursor_of_closed hs] at hdone
      exact absurd hdone Answer.noConfusion
    | some s =>
      rw [withCursor_eq hs hget]
      exact ⟨s, rfl, rfl⟩

/-- The step that finishes a cursor over quads takes its reader away, and no other one. -/
theorem pinned_of_finishes {c : QuadCursor} {pin : PinId}
    (hget : session.cursors.get? name = some (.quads c)) (hpin : c.pin? = some pin) {step : Step}
    (h : step.Finishes name (session.step step).1) :
    session.pinned.Perm (c.stamp :: (session.step step).2.pinned) := by
  obtain ⟨s, -, hafter⟩ := step_of_finishes hget h
  have hreader : (OpenCursor.quads c).reader? = some (pin, c.stamp) :=
    congrArg (Option.map (·, c.stamp)) hpin
  have hbefore := readers_erase_cursor session.snapshots hget
  rw [hreader] at hbefore
  have hset := readers_set_cursor session.snapshots session.cursors name (.quads (c.close s).1)
  rw [hafter]
  unfold pinned
  rw [(session.frame_mapStore _).2.1]
  exact (hbefore.map _).trans (.cons _ (hset.symm.map _))

/-- A cursor over quads holds nothing any more. -/
def Spent (session : Session) (name : String) : Prop :=
  ∃ c, session.cursors.get? name = some (.quads c) ∧ c.Spent

theorem spent_of_finishes {c : QuadCursor} (hget : session.cursors.get? name = some (.quads c))
    {step : Step} (h : step.Finishes name (session.step step).1) :
    (session.step step).2.Spent name := by
  obtain ⟨s, -, hafter⟩ := step_of_finishes hget h
  rw [hafter]
  exact ⟨_, Table.get?_set_self _ _ _, c.spent_close s⟩

namespace Spent

theorem dropCursor_eq (h : session.Spent name) :
    session.dropCursor name = session.without name := by
  obtain ⟨c, hget, hspent⟩ := h
  have hdrop : session.mapStore (OpenCursor.drop · (.quads c)) = session :=
    mapStore_eq_self fun s _ => congrArg Prod.snd (hspent.close_eq s)
  -- there is no pin to let go of, so that the store stays as it is
  unfold dropCursor
  rw [hget]
  dsimp only
  rw [hdrop]
  rfl

/-- What is done with the cursor changes nothing. -/
theorem withCursor (h : session.Spent name) {f : Store → OpenCursor → Answer × OpenCursor × Store}
    (hf : ∀ s c, c.Spent → (f s (.quads c)).2 = (.quads c, s)) :
    (session.withCursor name f).2.Spent name ∧
      (session.withCursor name f).2.without name = session.without name := by
  obtain ⟨c, hget, hspent⟩ := h
  cases hs : session.store? with
  | none =>
    rw [withCursor_of_closed hs]
    exact ⟨⟨c, hget, hspent⟩, rfl⟩
  | some s =>
    have hself : session.mapStore (fun _ => s) = session := by
      refine mapStore_eq_self fun s' hs' => ?_
      rw [hs] at hs'
      exact Option.some.inj hs'
    rw [withCursor_eq hs hget, hf s c hspent, hself]
    refine ⟨⟨c, Table.get?_set_self _ _ _, hspent⟩, ?_⟩
    unfold without
    dsimp only
    rw [Table.erase_set]

/-- The cursor stays as it is, and a step that is about it changes nothing else. -/
theorem step (h : session.Spent name) (hc : session.Consistent) {step : Step}
    (hleaves : step.leaves name = true) (hopen : step.keepsOpen = true) :
    (session.step step).2.Spent name ∧ (step.ignores name = false →
      (session.step step).2.without name = session.without name) := by
  rcases Step.leaves_cases hleaves with hignores | ⟨-, ⟨count, rfl⟩ | rfl⟩
  · obtain ⟨c, hget, hspent⟩ := h
    refine ⟨⟨c, (get?_step_of_ignores hc hignores hopen).trans hget, hspent⟩, ?_⟩
    intro hnot
    rw [hignores] at hnot
    exact absurd hnot.symm Bool.false_ne_true
  · unfold Session.step next
    refine (h.withCursor fun s c hspent => ?_).imp_right fun hwithout _ => hwithout
    exact pullMany_spent hspent s count
  · unfold Session.step close
    refine (h.withCursor fun s c hspent => ?_).imp_right fun hwithout _ => hwithout
    dsimp only
    rw [hspent.close_eq]

/-- Over any run that neither drops nor replaces the cursor, the other steps are answered, and
change the rest, as if it had been dropped. -/
theorem run (h : session.Spent name) (hc : session.Consistent) {steps : List Step}
    (hruns : session.Runs steps) (hleaves : ∀ step ∈ steps, step.leaves name = true) :
    (session.after steps).without name =
        (session.without name).after (steps.filter (·.ignores name)) ∧
      (steps.zip (session.run steps)).filter (·.1.ignores name) =
        (steps.filter (·.ignores name)).zip
          ((session.without name).run (steps.filter (·.ignores name))) := by
  induction steps generalizing session with
  | nil => exact ⟨rfl, rfl⟩
  | cons step rest ih =>
    obtain ⟨hstep, hrest⟩ := List.forall_mem_cons.1 hleaves
    obtain ⟨hspent, hself⟩ := h.step hc hstep hruns.2.1
    obtain ⟨hafter, hanswers⟩ :=
      ih hspent (hc.step hruns.2.1 hruns.below_step) hruns.2.2 hrest
    have hzip : (step :: rest).zip (session.run (step :: rest)) =
      (step, (session.step step).1) :: rest.zip ((session.step step).2.run rest) := rfl
    have hcons : session.after (step :: rest) = (session.step step).2.after rest := rfl
    rw [hzip, hcons]
    cases hignores : step.ignores name with
    | true =>
      -- both sessions do the step
      have hwithout := step_without session hignores
      rw [List.filter_cons_of_pos hignores,
        List.filter_cons_of_pos (a := (step, (session.step step).1)) hignores]
      refine ⟨?_, ?_⟩
      · show _ = ((session.without name).step step).2.after _
        rw [hwithout]
        exact hafter
      · show _ = (step, ((session.without name).step step).1) ::
          List.zip _ (((session.without name).step step).2.run _)
        rw [hwithout]
        exact congrArg _ hanswers
    | false =>
      -- it is left out where the cursor is missing, and changes nothing where it is there
      have hnot := ne_true_of_eq_false hignores
      rw [List.filter_cons_of_neg hnot,
        List.filter_cons_of_neg (a := (step, (session.step step).1)) hnot, ← hself hignores]
      exact ⟨hafter, hanswers⟩

end Spent

/-! ## Cursors over rows -/

theorem reader?_pullMany (c : RowCursor) (s : Store) (count : Nat) :
    ∃ c', (pullMany s (.rows c) count).2.1 = .rows c' ∧
      (OpenCursor.rows c').reader? = (OpenCursor.rows c).reader? := by
  induction count generalizing c with
  | zero => exact ⟨c, rfl, rfl⟩
  | succ n ih =>
    obtain ⟨c', hpulls, hreader⟩ := ih (c.next s).2
    exact ⟨c', hpulls, hreader.trans (c.reader?_next s)⟩

/-- A cursor over rows has some pin. -/
def Retains (session : Session) (name : String) (reader : PinId × Nat) : Prop :=
  ∃ c, session.cursors.get? name = some (.rows c) ∧ (OpenCursor.rows c).reader? = some reader

namespace Retains

variable {reader : PinId × Nat}

theorem withCursor (h : session.Retains name reader)
    {f : Store → OpenCursor → Answer × OpenCursor × Store}
    (hf : ∀ s c, ∃ c', (f s (.rows c)).2.1 = .rows c' ∧
      (OpenCursor.rows c').reader? = (OpenCursor.rows c).reader?) :
    (session.withCursor name f).2.Retains name reader := by
  obtain ⟨c, hget, hreader⟩ := h
  cases hs : session.store? with
  | none =>
    rw [withCursor_of_closed hs]
    exact ⟨c, hget, hreader⟩
  | some s =>
    obtain ⟨c', hf', hkeeps⟩ := hf s c
    rw [withCursor_eq hs hget, hf']
    exact ⟨c', Table.get?_set_self _ _ _, hkeeps.trans hreader⟩

theorem step (h : session.Retains name reader) (hc : session.Consistent) {step : Step}
    (hleaves : step.leaves name = true) (hopen : step.keepsOpen = true) :
    (session.step step).2.Retains name reader := by
  rcases Step.leaves_cases hleaves with hignores | ⟨-, ⟨count, rfl⟩ | rfl⟩
  · obtain ⟨c, hget, hreader⟩ := h
    exact ⟨c, (get?_step_of_ignores hc hignores hopen).trans hget, hreader⟩
  · exact h.withCursor fun s c => reader?_pullMany c s count
  · exact h.withCursor fun s c => ⟨c.close, rfl, rfl⟩

/-- A cursor over rows keeps its pin until it is dropped or replaced. -/
theorem after (h : session.Retains name reader) (hc : session.Consistent) {steps : List Step}
    (hruns : session.Runs steps) (hleaves : ∀ step ∈ steps, step.leaves name = true) :
    (session.after steps).Retains name reader := by
  induction steps generalizing session with
  | nil => exact h
  | cons step rest ih =>
    obtain ⟨hstep, hrest⟩ := List.forall_mem_cons.1 hleaves
    exact ih (h.step hc hstep hruns.2.1) (hc.step hruns.2.1 hruns.below_step) hruns.2.2 hrest

end Retains

/-! ## What finished cursors hold -/

/-- A cursor holds nothing back. Over any run that neither drops nor replaces it, be it pulled or
closed again, all other steps are answered as if it had been dropped at first, collections among
them, and they leave the same store. -/
structure Released (session : Session) (name : String) : Prop where
  answers : ∀ steps, session.Runs steps → (∀ step ∈ steps, step.leaves name = true) →
    (steps.zip (session.run steps)).filter (·.1.ignores name) =
      (steps.filter (·.ignores name)).zip
        ((session.dropCursor name).run (steps.filter (·.ignores name)))
  state : ∀ steps, session.Runs steps → (∀ step ∈ steps, step.leaves name = true) →
    (session.after steps).state =
      ((session.dropCursor name).after (steps.filter (·.ignores name))).state

/-- What becomes of the pins of cursors that are finished. -/
structure Releases (session : Session) : Prop where
  /-- The step that finishes a cursor over quads takes its reader away, and no other one. -/
  unpinned : ∀ name c pin step, session.cursors.get? name = some (.quads c) →
    c.pin? = some pin → step.Finishes name (session.step step).1 →
      session.pinned.Perm (c.stamp :: (session.step step).2.pinned)
  /-- If it was the only reader of its snapshot, no pin of this snapshot is held any more. -/
  alone : ∀ name c pin step, session.cursors.get? name = some (.quads c) →
    c.pin? = some pin → step.Finishes name (session.step step).1 →
      session.pinned.count c.stamp = 1 → ∀ id, ¬(session.step step).2.Holds id c.stamp
  /-- From then on it holds nothing back. -/
  released : ∀ name c step, session.cursors.get? name = some (.quads c) →
    step.Finishes name (session.step step).1 → (session.step step).2.Released name
  /-- A cursor over rows keeps its pin, finished or not, until it is dropped or replaced. -/
  retained : ∀ name c steps, session.cursors.get? name = some (.rows c) →
    session.store?.isSome = true → session.Runs steps →
      (∀ step ∈ steps, step.leaves name = true) → (session.after steps).Holds c.pin c.stamp

/-- A store that is open stays so over a run. -/
theorem isSome_store?_after (hc : session.Consistent) {steps : List Step}
    (hruns : session.Runs steps) : (session.after steps).store?.isSome = session.store?.isSome := by
  induction steps generalizing session with
  | nil => rfl
  | cons step rest ih =>
    exact (ih (hc.step hruns.2.1 hruns.below_step) hruns.2.2).trans
      (isSome_store?_step hc hruns.2.1)

/-- Whatever has been done to a store, a finished cursor over quads holds back nothing, and one over
rows its snapshot. -/
theorem Reachable.releases (h : session.Reachable) : session.Releases := by
  have hc := h.consistent
  refine ⟨?_, ?_, ?_, ?_⟩
  · intro name c pin step hget hpin hfinishes
    exact pinned_of_finishes hget hpin hfinishes
  · rintro name c pin step hget hpin hfinishes hcount id ⟨s, hs, p, hp, -, hstamp⟩
    -- of one reader, none is left
    have hperm := pinned_of_finishes hget hpin hfinishes
    rw [hperm.count_eq, List.count_cons_self, Nat.add_eq_right, List.count_eq_zero] at hcount
    rw [store?_eq] at hs
    have hserves := step_serves hc.serves hc.sound hfinishes.keepsOpen s hs
    exact hcount ((hserves.exists_stamp_iff c.stamp).1 ⟨p, hp, hstamp⟩)
  · intro name c step hget hfinishes
    have hspent := spent_of_finishes hget hfinishes
    constructor
    · intro steps hruns hleaves
      have hc' := hc.step hfinishes.keepsOpen hruns.below
      rw [hspent.dropCursor_eq]
      exact (hspent.run hc' hruns hleaves).2
    · intro steps hruns hleaves
      have hc' := hc.step hfinishes.keepsOpen hruns.below
      rw [hspent.dropCursor_eq, ← (hspent.run hc' hruns hleaves).1]
      rfl
  · intro name c steps hget hopen hruns hleaves
    have hretains : session.Retains name (c.pin, c.stamp) := ⟨c, hget, rfl⟩
    obtain ⟨c', hget', hreader⟩ := hretains.after hc hruns hleaves
    rw [← isSome_store?_after hc hruns] at hopen
    obtain ⟨s, hs⟩ := Option.isSome_iff_exists.1 hopen
    exact (hc.after hruns).holds hs (mem_readers_of_cursor hget' hreader)

/-- A session with two quads and a cursor over them, of which nothing else is pinned. -/
def opened : Session :=
  (start none { collects := false }).2.after [
    .extend [⟨.iri ⟨"s"⟩, ⟨"p"⟩, .iri ⟨"o"⟩, .default⟩, ⟨.iri ⟨"s"⟩, ⟨"p"⟩, .iri ⟨"s"⟩, .default⟩],
    .openQuads "cursor" {} true none]

theorem reachable_opened : opened.Reachable := by
  have hsound : (start none { collects := false }).2.state.Sound := Store.sound_empty _
  have hbelow : (start none { collects := false }).2.state.Below := by
    intro n hn
    rw [← Option.some.inj hn]
    decide
  exact (Reachable.start none _ hbelow).after
    (runs_of_length hsound (n := 0) rfl (by simp [Step.keepsOpen]) (by decide))

/-- The third pull finishes the cursor, which is the only reader. -/
theorem releases_opened :
    opened.Reachable ∧ opened.pinned = [1] ∧
      Step.Finishes "cursor" (.next "cursor" 3) (opened.step (.next "cursor" 3)).1 ∧
        opened.Releases :=
  ⟨reachable_opened, rfl,
    .inl ⟨.ended, List.mem_of_getElem? (i := 2) rfl, rfl⟩, reachable_opened.releases⟩

example : ((opened.after [.next "cursor" 3,
    .remove ⟨.iri ⟨"s"⟩, ⟨"p"⟩, .iri ⟨"o"⟩, .default⟩]).step .collect).1 = .number 1 := by rfl

/-- A session with a quad, and a cursor over no rows that alone pins a snapshot with this quad. -/
def lingering : Session :=
  (start none { collects := false }).2.after [
    .insert ⟨.iri ⟨"s"⟩, ⟨"p"⟩, .iri ⟨"o"⟩, .default⟩,
    .takeSnapshot "snapshot" none,
    .openRows "cursor" (.quad ⟨.given (.iri ⟨"x"⟩), .var ⟨"p"⟩, .var ⟨"o"⟩, .any⟩) .empty true
      "snapshot",
    .dropSnapshot "snapshot"]

/-- The session after the cursor has been pulled and closed, and the quad removed. -/
def lingeringRemoved : Session :=
  lingering.after [
    .next "cursor" 1,
    .close "cursor",
    .remove ⟨.iri ⟨"s"⟩, ⟨"p"⟩, .iri ⟨"o"⟩, .default⟩]

/-- A cursor over rows that has come to its end, and has been closed, holds back a collection. -/
theorem collect_lingering :
    lingering.pinned = [1] ∧
      Step.Finishes "cursor" (.next "cursor" 1) (lingering.step (.next "cursor" 1)).1 ∧
        (lingeringRemoved.step .collect).1 = .number 0 ∧
          ((lingeringRemoved.dropCursor "cursor").step .collect).1 = .number 1 :=
  ⟨rfl, .inl ⟨.ended, List.mem_singleton_self _, rfl⟩, rfl, rfl⟩

end Session
end QuadStore
