import QuadStore.Proofs.Correlation
import QuadStore.Proofs.Plans

/-!
# Evaluation

The evaluator of a pattern is started over and over, each time on another row of what surrounds the
pattern. It may be asked for its rows at once or one by one, and they may be computed by a plan that
compares terms by their numbers: `GraphPattern.Gives` says that all of these give the same rows. In
every session and at every stamp, these are the ways to join the row with the solutions that the
pattern has on its own over the quads that are seen: `Session.Arises.evaluates`.
-/

namespace QuadStore

/-! ## Readings -/

/-- The quads that a reading sees. -/
def Reading.quads (r : Reading) : List Quad :=
  (r.view.statements.filter fun st => r.inferred || st.explicit).map (·.quad)

theorem Reading.dataset_eq {r : Reading} (h : r.view.store.Readable) :
    r.dataset = .ofQuads r.quads :=
  View.dataset_eq .empty h r.inferred

/-! ## Rows to extend -/

/-- The rows that an evaluator may be started on: the values that a query begins with, the rows of a
pattern that has been started on such a row, and a choice of the variables of one. -/
inductive Row.Incoming (dataset : Dataset) : Row → Prop
  | start (columns : List Variable) (bindings : BindingSet) :
      Incoming dataset (Query.startRow columns bindings)
  | extended {row r : Row} (p : GraphPattern) : Incoming dataset row → r ∈ p.rows dataset row →
      Incoming dataset r
  | restricted {row : Row} (vs : List Variable) : Incoming dataset row →
      Incoming dataset (row.restrict vs)

theorem Query.genuine_startRow (columns : List Variable) (bindings : BindingSet) :
    (startRow columns bindings).Genuine := by
  unfold startRow
  refine List.foldrRecOn _ _ Row.genuine_empty fun row hrow value _ => ?_
  dsimp only
  split
  · cases hbind : row.bind? value.1 (.ofTerm value.2) with
    | none => exact hrow
    | some r => exact hrow.bind? (Datum.genuine_ofTerm value.2) hbind
  · exact hrow

theorem Row.Incoming.genuine {dataset : Dataset} {row : Row} (h : row.Incoming dataset) :
    row.Genuine := by
  induction h with
  | start columns bindings => exact Query.genuine_startRow columns bindings
  | extended p _ hr ih => exact p.genuine_rows dataset ih _ hr
  | restricted vs _ ih => exact ih.restrict vs

/-! ## The ways to the rows of a pattern -/

/-- All ways to evaluate a pattern lead to some rows, which extend the row that it is started on. -/
structure GraphPattern.Gives (r : Reading) (p : GraphPattern) (row : Row) (rows : List Row) :
    Prop where
  /-- The evaluator gives them when it is asked for all of them. -/
  drained : p.evaluator.drain r (p.evaluator.start r row) [] = .ok rows
  /-- It gives them one by one, also while the store goes on. -/
  yields : p.evaluator.Yields r (p.evaluator.start r row) rows
  /-- The tuples of a plan show them if it is run on a tuple that shows the row, whatever slots the
  plan is made with and by whatever hash it looks for duplicates. -/
  planned : ∀ hash (slots slots' : Slots) (t : Tuple),
    (p.plan ⟨r, hash⟩ slots).slots <+: slots' → t.Shows ⟨r, hash⟩ slots' row →
      List.Forall₂ (Tuple.Shows ⟨r, hash⟩ slots') ((p.plan ⟨r, hash⟩ slots).run t) rows
  /-- If a query begins with the row, their columns are what its plan answers. -/
  answered : ∀ hash bindings q, Query.ofPattern p bindings = .ok q → q.start = row →
    p.plannedRows ⟨r, hash⟩ bindings = rows.map (Query.project p.columns)

theorem GraphPattern.gives_rows {r : Reading} (hr : r.view.store.Readable) (p : GraphPattern)
    (row : Row) : p.Gives r row (p.rows r.dataset row) where
  drained := (p.computes_evaluator r hr row).drain hr []
  yields := p.computes_evaluator r hr row
  planned _ _ _ _ hslots ht := p.shows_plan hr hslots ht
  answered hash bindings q hq hstart := by
    have hplanned : p.plannedRows ⟨r, hash⟩ bindings = q.rows r.dataset := plannedRows_eq hr hq
    rw [hplanned, ← hstart, ← (Query.eq_of_ofPattern hq).1]
    rfl

namespace Session

variable {session : Session}

/-- Whatever the session, the stamp and the row to extend, the evaluator of a pattern and its plans
give the row joined with every solution from the bottom up that is compatible with it. -/
theorem Arises.evaluates (h : session.Arises) {s : Store} (hs : session.store? = some s)
    (stamp : Nat) (inferred : Bool) {row : Row}
    (hrow : row.Incoming (Reading.dataset ⟨s.at stamp, inferred⟩)) {p : GraphPattern}
    (haccepted : p.fault? = none) (hcompositional : p.isCompositional = true) :
    ∃ rows, p.Gives ⟨s.at stamp, inferred⟩ row rows ∧
      Solution.ofRows rows =
        (p.solutions (Reading.quads ⟨s.at stamp, inferred⟩)).filterMap row.terms.join? := by
  have hreadable : s.Readable := h.readable s (by rw [← store?_eq, hs])
  refine ⟨_, p.gives_rows hreadable row, ?_⟩
  rw [Reading.dataset_eq hreadable]
  exact p.corresponds hcompositional haccepted row hrow.genuine

/-- The two ends of each way of two quads. -/
def twoSteps : GraphPattern :=
  .distinct <| .project (.filter (.bound ⟨"m"⟩) <| .join
    (.quad ⟨.var ⟨"a"⟩, .given ⟨"p"⟩, .var ⟨"m"⟩, .any⟩)
    (.quad ⟨.var ⟨"m"⟩, .given ⟨"p"⟩, .var ⟨"b"⟩, .any⟩)) [⟨"a"⟩, ⟨"b"⟩]

/-- The row of a query in which one of the ends is given. -/
def endAtS : Row := Query.startRow twoSteps.columns ⟨[⟨"b"⟩], [some (.iri ⟨"s"⟩)]⟩

/-- Within the transaction, with a value given for one of the ends. -/
theorem evaluates_inferring : inferring.Arises ∧ twoSteps.fault? = none ∧
    twoSteps.isCompositional = true ∧ ∃ s, inferring.store? = some s ∧
      Row.Incoming (Reading.dataset ⟨s.at Stamp.pending, true⟩) endAtS ∧ ∃ rows,
        twoSteps.Gives ⟨s.at Stamp.pending, true⟩ endAtS rows ∧
        Solution.ofRows rows =
          (twoSteps.solutions (Reading.quads ⟨s.at Stamp.pending, true⟩)).filterMap
            endAtS.terms.join? := by
  have harises : inferring.Arises := (Arises.start none {}).after _
  have haccepted : twoSteps.fault? = none := by decide
  have hcompositional : twoSteps.isCompositional = true := by decide
  exact ⟨harises, haccepted, hcompositional, _, rfl, .start _ _,
    harises.evaluates rfl Stamp.pending true (.start _ _) haccepted hcompositional⟩

/-- Of the two ways, one ends at the given value. -/
example : inferring.store?.map (fun s =>
    (twoSteps.rows (Reading.dataset ⟨s.at Stamp.pending, true⟩) endAtS).map
      fun row => (row.terms ⟨"a"⟩, row.terms ⟨"m"⟩, row.terms ⟨"b"⟩)) =
    some [(some (.iri ⟨"s"⟩), none, some (.iri ⟨"s"⟩))] := by rfl

end Session
end QuadStore
