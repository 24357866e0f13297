import QuadStore.Store.Evaluator

/-!
# Open cursors

A cursor reads a pinned snapshot bit by bit while the store goes on. A cursor over quads lets go of
its pin as soon as it has ended, has failed or is closed; one over the rows of an evaluation holds
its pin until it is dropped.
-/

namespace QuadStore

/-! ## Cursors over quads -/

/-- The look-ups that a cursor has still to make at its snapshot. -/
structure QuadCursor where
  stamp : Nat
  inferred : Bool
  scan? : Option Index.Scan
  shapes : List EncodedShape
  pin? : Option PinId
deriving DecidableEq, Repr

namespace QuadCursor

/-- A cursor over the quads asked for, which holds a pin of its snapshot. -/
def ofQuery (d : Dictionary) (snapshot : Snapshot) (q : QuadQuery) (inferred : Bool) :
    QuadCursor :=
  ⟨snapshot.stamp, inferred, none, View.shapes d q, some snapshot.pin⟩

/-- The next entry of the look-up under way or else of the ones after it, and what remains. -/
def advance (index : Index) (stamp : Nat) (inferred : Bool) (scan? : Option Index.Scan) :
    List EncodedShape → Option (Entry × Index.Scan × List EncodedShape)
  | [] => (scan?.bind index.next?).map fun (e, scan) => (e, scan, [])
  | shape :: rest =>
    match scan?.bind index.next? with
    | some (e, scan) => some (e, scan, shape :: rest)
    | none => advance index stamp inferred (some (index.scan shape stamp inferred)) rest

/-- Ends the cursor, which lets go of its pin. -/
def close (c : QuadCursor) (s : Store) : QuadCursor × Store :=
  ({ c with scan? := none, shapes := [], pin? := none }, c.pin?.elim s s.release)

/-- The next quad, or none at the end. -/
def next (c : QuadCursor) (s : Store) : Except Corruption (Option Quad) × QuadCursor × Store :=
  match advance s.index c.stamp c.inferred c.scan? c.shapes with
  | none => (.ok none, c.close s)
  | some (e, scan, shapes) =>
    match s.dictionary.resolveQuad e.quad with
    | .ok q => (.ok (some q), { c with scan? := some scan, shapes := shapes }, s)
    | .error fault => (.error fault, c.close s)

end QuadCursor

/-! ## Cursors over rows -/

/-- An evaluation at a snapshot that is under way. -/
structure RowCursor where
  query : Query
  stamp : Nat
  inferred : Bool
  deadline : Deadline
  /-- Where the evaluation stands, unless it is over. -/
  state? : Option query.pattern.evaluator.State
  pin : PinId

namespace RowCursor

/-- What an evaluation at a snapshot reads. -/
def reading (s : Store) (stamp : Nat) (inferred : Bool) : Reading := ⟨s.at stamp, inferred⟩

/-- A cursor over the rows of a query, which holds a pin of its snapshot. -/
def ofQuery (s : Store) (snapshot : Snapshot) (query : Query) (inferred : Bool) : RowCursor :=
  ⟨query, snapshot.stamp, inferred, s.options.deadline,
    some (query.pattern.evaluator.start (reading s snapshot.stamp inferred) query.start),
    snapshot.pin⟩

/-- Ends the cursor. -/
def close (c : RowCursor) : RowCursor := { c with state? := none }

/-- The next row, or none at the end. -/
def next (c : RowCursor) (s : Store) :
    Except EvaluationError (Option BindingSet) × RowCursor :=
  match c.state?, c.deadline with
  | none, _ => (.ok none, c)
  | some _, .passed => (.error .cancelled, c.close)
  | some state, .ahead =>
    match c.query.pattern.evaluator.next (reading s c.stamp c.inferred) state with
    | (.item row, state) =>
      (.ok (some (Query.project c.query.columns row)), { c with state? := some state })
    | (.done, _) => (.ok none, c.close)
    | (.error fault, _) => (.error (.storage fault), c.close)

end RowCursor

/-- A cursor that has been opened. -/
inductive OpenCursor where
  | quads (c : QuadCursor)
  | rows (c : RowCursor)

/-- Lets go of what a cursor holds. -/
def OpenCursor.drop (s : Store) : OpenCursor → Store
  | quads c => (c.close s).2
  | rows c => s.release c.pin

end QuadStore
