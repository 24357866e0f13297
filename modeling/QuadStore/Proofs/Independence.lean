import QuadStore.Proofs.Isolation

/-!
# Steps and the cursors that they are not about

A step that is not about a cursor does the same with it and without it: `Session.step_without` says
that taking the cursor out of the session commutes with the step.
-/

namespace QuadStore

/-- Whether a step is not about a cursor. -/
def Step.ignores (name : String) : Step → Bool
  | .next other _ => other != name
  | step => step.spares name

/-! ## Tables without a key -/

namespace Table

variable {κ α : Type}

theorem eq_of_entries_eq {t u : Table κ α} (h : t.entries = u.entries) : t = u := by
  cases t
  cases u
  congr

variable [DecidableEq κ]

theorem erase_comm (t : Table κ α) (j k : κ) : (t.erase j).erase k = (t.erase k).erase j :=
  eq_of_entries_eq (List.filter_comm _ _ _)

theorem filter_setIn (k : κ) (v : α) (entries : List (κ × α)) :
    (setIn k v entries).filter (·.1 != k) = entries.filter (·.1 != k) := by
  induction entries with
  | nil => simp [setIn]
  | cons entry rest ih =>
    by_cases h : entry.1 = k
    · simp [setIn, h]
    · simp [setIn, h, ih]

theorem filter_setIn_of_ne {j k : κ} (h : j ≠ k) (v : α) (entries : List (κ × α)) :
    (setIn j v entries).filter (·.1 != k) = setIn j v (entries.filter (·.1 != k)) := by
  induction entries with
  | nil => simp [setIn, h]
  | cons entry rest ih =>
    by_cases hj : entry.1 = j
    · simp [setIn, hj, h]
    · by_cases hk : entry.1 = k
      · simp [setIn, hk, h.symm, ih]
      · simp [setIn, hj, hk, ih]

/-- What has been set is removed with its key. -/
theorem erase_set (t : Table κ α) (k : κ) (v : α) : (t.set k v).erase k = t.erase k :=
  eq_of_entries_eq (filter_setIn k v t.entries)

/-- It makes no difference whether a key is set before or after another one is removed. -/
theorem erase_set_of_ne (t : Table κ α) {j k : κ} (h : j ≠ k) (v : α) :
    (t.set j v).erase k = (t.erase k).set j v :=
  eq_of_entries_eq (filter_setIn_of_ne h v t.entries)

end Table

/-! ## Sessions without a cursor -/

namespace Session

variable {session : Session} {name other : String}

/-- The session without a cursor, of which nothing lets go. -/
def without (session : Session) (name : String) : Session :=
  { session with cursors := session.cursors.erase name }

theorem mapStore_without (session : Session) (name : String) (f : Store → Store) :
    (session.without name).mapStore f = (session.mapStore f).without name := by
  obtain ⟨state, snapshots, connections, cursors⟩ := session
  cases state <;> rfl

theorem withIdle_without (session : Session) (name : String) (f : Store → Answer × Store) :
    (session.without name).withIdle f =
      ((session.withIdle f).1, (session.withIdle f).2.without name) := by
  obtain ⟨state, snapshots, connections, cursors⟩ := session
  cases state <;> rfl

theorem begin_without (session : Session) (name : String) (w : Writer) :
    (session.without name).begin w = ((session.begin w).1, (session.begin w).2.without name) := by
  -- what decides about the transaction does not look at cursors
  have hstate : (session.without name).state = session.state := rfl
  have hknows : (session.without name).knows w = session.knows w := rfl
  unfold begin
  rw [hstate, hknows]
  cases session.state with
  | closed file => rfl
  | idle s =>
    dsimp only
    split <;> rfl
  | writing holder t =>
    dsimp only
    split
    · rfl
    · split <;> rfl

theorem withTransaction_without (session : Session) (name : String) (w : Writer)
    (f : Transaction → Answer × SessionState) :
    (session.without name).withTransaction w f =
      ((session.withTransaction w f).1, (session.withTransaction w f).2.without name) := by
  have htransaction : (session.without name).transactionOf? w = session.transactionOf? w := rfl
  unfold withTransaction
  rw [htransaction]
  cases session.transactionOf? w with
  | none => rfl
  | some t => rfl

theorem disconnect_without (session : Session) (name connection : String) :
    (session.without name).disconnect connection =
      (session.disconnect connection).without name := by
  unfold disconnect rollback
  rw [withTransaction_without]
  rfl

theorem connect_without (session : Session) (name connection : String) :
    (session.without name).connect connection = (session.connect connection).without name := by
  unfold connect
  rw [disconnect_without]
  rfl

theorem dropSnapshot_without (session : Session) (name snapshot : String) :
    (session.without name).dropSnapshot snapshot =
      (session.dropSnapshot snapshot).without name := by
  have hget : (session.without name).snapshots.get? snapshot =
    session.snapshots.get? snapshot := rfl
  unfold dropSnapshot
  rw [hget]
  cases session.snapshots.get? snapshot with
  | none => rfl
  | some found =>
    dsimp only
    rw [mapStore_without]
    rfl

theorem keepSnapshot_without (session : Session) (name label : String) (snapshot : Snapshot) :
    (session.without name).keepSnapshot label snapshot =
      ((session.keepSnapshot label snapshot).1,
        (session.keepSnapshot label snapshot).2.without name) := by
  unfold keepSnapshot
  dsimp only
  rw [dropSnapshot_without]
  rfl

theorem takeSnapshot_without (session : Session) (name label : String) (source? : Option String) :
    (session.without name).takeSnapshot label source? =
      ((session.takeSnapshot label source?).1,
        (session.takeSnapshot label source?).2.without name) := by
  have hstore : (session.without name).store? = session.store? := rfl
  have hget : ∀ source, (session.without name).snapshots.get? source =
    session.snapshots.get? source := fun _ => rfl
  unfold takeSnapshot
  rw [hstore]
  cases session.store? with
  | none => rfl
  | some s =>
    cases source? with
    | none =>
      dsimp only
      rw [mapStore_without, keepSnapshot_without]
    | some source =>
      dsimp only
      rw [hget]
      cases session.snapshots.get? source with
      | none => rfl
      | some snapshot =>
        dsimp only
        rw [mapStore_without, keepSnapshot_without]

/-! ### Other cursors -/

/-- The other cursors are found without this one. -/
theorem get?_without (session : Session) (hne : other ≠ name) :
    (session.without name).cursors.get? other = session.cursors.get? other := by
  show (session.cursors.erase name).get? other = _
  rw [Table.get?_erase, if_neg hne]

theorem dropCursor_without (session : Session) (hne : other ≠ name) :
    (session.without name).dropCursor other = (session.dropCursor other).without name := by
  unfold dropCursor
  rw [get?_without session hne]
  cases session.cursors.get? other with
  | none => rfl
  | some c =>
    dsimp only
    rw [mapStore_without]
    unfold without
    dsimp only
    rw [Table.erase_comm]

theorem keepCursor_without (session : Session) (hne : other ≠ name) (c : OpenCursor) :
    (session.without name).keepCursor other c =
      ((session.keepCursor other c).1, (session.keepCursor other c).2.without name) := by
  unfold keepCursor
  dsimp only
  rw [dropCursor_without session hne]
  unfold without
  dsimp only
  rw [Table.erase_set_of_ne _ hne]

theorem openQuads_without (session : Session) (hne : other ≠ name) (q : QuadQuery)
    (inferred : Bool) (snapshot? : Option String) :
    (session.without name).openQuads other q inferred snapshot? =
      ((session.openQuads other q inferred snapshot?).1,
        (session.openQuads other q inferred snapshot?).2.without name) := by
  have hstore : (session.without name).store? = session.store? := rfl
  have hget : ∀ source, (session.without name).snapshots.get? source =
    session.snapshots.get? source := fun _ => rfl
  unfold openQuads
  rw [hstore]
  cases session.store? with
  | none => rfl
  | some s =>
    cases snapshot? with
    | none =>
      dsimp only
      rw [mapStore_without, keepCursor_without _ hne]
    | some source =>
      dsimp only
      rw [hget]
      cases session.snapshots.get? source with
      | none => rfl
      | some snapshot =>
        dsimp only
        rw [mapStore_without, keepCursor_without _ hne]

theorem openRows_without (session : Session) (hne : other ≠ name) (pattern : GraphPattern)
    (bindings : BindingSet) (inferred : Bool) (source : String) :
    (session.without name).openRows other pattern bindings inferred source =
      ((session.openRows other pattern bindings inferred source).1,
        (session.openRows other pattern bindings inferred source).2.without name) := by
  have hstore : (session.without name).store? = session.store? := rfl
  have hget : (session.without name).snapshots.get? source = session.snapshots.get? source := rfl
  unfold openRows
  rw [hstore]
  cases session.store? with
  | none => rfl
  | some s =>
    dsimp only
    rw [hget]
    cases session.snapshots.get? source with
    | none => rfl
    | some snapshot =>
      dsimp only
      cases Query.ofPattern pattern bindings with
      | error e => rfl
      | ok query =>
        dsimp only
        rw [mapStore_without, keepCursor_without _ hne]

theorem withCursor_without (session : Session) (hne : other ≠ name)
    (f : Store → OpenCursor → Answer × OpenCursor × Store) :
    (session.without name).withCursor other f =
      ((session.withCursor other f).1, (session.withCursor other f).2.without name) := by
  have hstore : (session.without name).store? = session.store? := rfl
  unfold withCursor
  rw [hstore, get?_without session hne]
  cases session.store? with
  | none => rfl
  | some s =>
    dsimp only
    cases session.cursors.get? other with
    | none => rfl
    | some c =>
      dsimp only
      rw [mapStore_without]
      unfold without
      dsimp only
      rw [Table.erase_set_of_ne _ hne]

/-! ### Steps -/

/-- Without a cursor, the steps that are not about it do the same to the rest. -/
theorem step_without (session : Session) {step : Step} (h : step.ignores name = true) :
    (session.without name).step step =
      ((session.step step).1, (session.step step).2.without name) := by
  have hstore : (session.without name).store? = session.store? := rfl
  cases step with
  | takeSnapshot label source? => exact takeSnapshot_without session name label source?
  | dropSnapshot label =>
    unfold Session.step
    dsimp only
    rw [hstore, dropSnapshot_without]
    split <;> rfl
  | connect connection =>
    unfold Session.step
    dsimp only
    rw [hstore, connect_without]
    split <;> rfl
  | disconnect connection =>
    unfold Session.step
    dsimp only
    rw [hstore, disconnect_without]
    split <;> rfl
  | insert | remove | extend | collect | compact | validate =>
    unfold Session.step
    exact withIdle_without session name _
  | begin w => exact begin_without session name w
  | commit w =>
    unfold Session.step commit
    exact withTransaction_without session name w _
  | rollback w =>
    unfold Session.step rollback
    exact withTransaction_without session name w _
  | write w change =>
    unfold Session.step write
    exact withTransaction_without session name w _
  | openQuads other q inferred snapshot? =>
    exact openQuads_without session (bne_iff_ne.1 h) q inferred snapshot?
  | openRows other pattern bindings inferred source =>
    exact openRows_without session (bne_iff_ne.1 h) pattern bindings inferred source
  | next other count =>
    unfold Session.step next
    exact withCursor_without session (bne_iff_ne.1 h) _
  | close other =>
    unfold Session.step close
    exact withCursor_without session (bne_iff_ne.1 h) _
  | dropCursor other =>
    unfold Session.step
    dsimp only
    rw [hstore, dropCursor_without session (bne_iff_ne.1 h), get?_without session (bne_iff_ne.1 h)]
    split <;> rfl
  | reopen edit options => exact absurd h Bool.false_ne_true
  | stats | options | file | files | openAgain | latest | read | isActive => rfl

/-- A step leaves a cursor alone that it is not about. -/
theorem get?_step_of_ignores (h : session.Consistent) {step : Step}
    (hignores : step.ignores name = true) (hopen : step.keepsOpen = true) :
    (session.step step).2.cursors.get? name = session.cursors.get? name := by
  refine get?_step h ?_ hopen ?_
  · cases step with
    | next other count => rfl
    | _ => exact hignores
  · rintro count rfl
    exact bne_iff_ne.1 hignores rfl

end Session
end QuadStore
