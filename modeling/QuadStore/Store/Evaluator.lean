import QuadStore.Cursor
import QuadStore.Store.View

/-!
# Evaluators

An evaluator gives the rows of a pattern one at a time. Between two rows it holds look-ups that are
half way and rows of a left side whose extensions are still to come, while the store goes on. The
evaluator of a pattern is put together from those of its parts.

The loops call themselves by `apply`: a call that is written as a term would leave its place in this
file in the definition.
-/

namespace QuadStore

/-- What an evaluation reads: a view, with or without its inferred quads. -/
structure Reading where
  view : View
  inferred : Bool

/-- The dataset that is read. -/
def Reading.dataset (r : Reading) : Dataset := r.view.dataset r.inferred

/-- A way to give the rows that extend a row, one after the other. -/
structure Evaluator where
  State : Type
  /-- Where no row is to come. -/
  closed : State
  start : Reading → Row → State
  next : Reading → State → Pull Corruption Row × State

namespace Evaluator

instance : Inhabited (Pull Corruption Row) := ⟨.done⟩

instance (m : Evaluator) : Inhabited m.State := ⟨m.closed⟩

/-! ## Quads -/

section Lookup

variable (p : QuadPattern) (row : Row) (r : Reading)

/-- Looks up quads until one of them extends the row. -/
def nextMatch (scan : Index.Scan) : Pull Corruption Row × Option (Row × Index.Scan) :=
  match r.view.store.index.next? scan with
  | none => (.done, none)
  | some (e, scan) =>
    match r.view.store.dictionary.resolveQuad e.quad with
    | .error c => (.error c, none)
    | .ok q =>
      match p.bind? row q with
      | some extended => (.item extended, some (row, scan))
      | none => by
        apply nextMatch
        exact scan
partial_fixpoint

end Lookup

/-- The rows of a quad pattern. A term without number is in no quad. -/
def quad (p : QuadPattern) : Evaluator where
  State := Option (Row × Index.Scan)
  closed := none
  start r row := (View.encodeShape? r.view.store.dictionary (p.shape row)).map fun shape =>
    (row, r.view.store.index.scan shape r.view.stamp r.inferred)
  next r
    | none => (.done, none)
    | some (row, scan) => nextMatch p row r scan

/-! ## Joins and unions -/

/-- Where a join stands: on its left side, and among the extensions of the left row before. -/
structure JoinState (L R : Type) where
  left : L
  right? : Option R
deriving Inhabited

section Join

variable (left right : Evaluator) (r : Reading)

/-- The next row of a join. -/
def nextJoin : left.State → Option right.State →
    Pull Corruption Row × JoinState left.State right.State
  | l, some s =>
    match right.next r s with
    | (.item row, s) => (.item row, ⟨l, some s⟩)
    | (.done, _) => by
      apply nextJoin
      · exact l
      · exact none
    | (.error c, _) => (.error c, ⟨left.closed, none⟩)
  | l, none =>
    match left.next r l with
    | (.item row, l) => by
      apply nextJoin
      · exact l
      · exact some (right.start r row)
    | (.done, l) => (.done, ⟨l, none⟩)
    | (.error c, _) => (.error c, ⟨left.closed, none⟩)
partial_fixpoint

end Join

/-- The rows of the right side that extend each row of the left side. -/
def join (left right : Evaluator) : Evaluator where
  State := JoinState left.State right.State
  closed := ⟨left.closed, none⟩
  start r row := ⟨left.start r row, none⟩
  next r s := nextJoin left right r s.left s.right?

/-- Where a left join stands; the left row is held back while nothing has extended it. -/
structure LeftJoinState (L R : Type) where
  left : L
  right? : Option R
  held? : Option Row
deriving Inhabited

section LeftJoin

variable (left right : Evaluator) (r : Reading)

/-- The next row of a left join. -/
def nextLeftJoin : left.State → Option right.State → Option Row →
    Pull Corruption Row × LeftJoinState left.State right.State
  | l, some s, held? =>
    match right.next r s with
    | (.item row, s) => (.item row, ⟨l, some s, none⟩)
    | (.done, _) => by
      apply nextLeftJoin
      · exact l
      · exact none
      · exact held?
    | (.error c, _) => (.error c, ⟨left.closed, none, none⟩)
  | l, none, some row => (.item row, ⟨l, none, none⟩)
  | l, none, none =>
    match left.next r l with
    | (.item row, l) => by
      apply nextLeftJoin
      · exact l
      · exact some (right.start r row)
      · exact some row
    | (.done, l) => (.done, ⟨l, none, none⟩)
    | (.error c, _) => (.error c, ⟨left.closed, none, none⟩)
partial_fixpoint

end LeftJoin

/-- The rows of a join, and the rows of the left side that nothing extends. -/
def leftJoin (left right : Evaluator) : Evaluator where
  State := LeftJoinState left.State right.State
  closed := ⟨left.closed, none, none⟩
  start r row := ⟨left.start r row, none, none⟩
  next r s := nextLeftJoin left right r s.left s.right? s.held?

/-- Where a union stands. The second side begins when the first one has ended. -/
inductive UnionState (L R : Type) where
  | waiting (row : Row)
  | first (l : L) (row : Row)
  | second (s : R)
  | over

/-- The next row of the second side. -/
def nextSecond (left right : Evaluator) (r : Reading) (s : right.State) :
    Pull Corruption Row × UnionState left.State right.State :=
  match right.next r s with
  | (.item row, s) => (.item row, .second s)
  | (.done, _) => (.done, .over)
  | (.error c, _) => (.error c, .over)

/-- The next row of the first side, or else of the second one. -/
def nextFirst (left right : Evaluator) (r : Reading) (l : left.State) (row : Row) :
    Pull Corruption Row × UnionState left.State right.State :=
  match left.next r l with
  | (.item extended, l) => (.item extended, .first l row)
  | (.done, _) => nextSecond left right r (right.start r row)
  | (.error c, _) => (.error c, .over)

/-- The rows of one side, then those of the other. -/
def union (left right : Evaluator) : Evaluator where
  State := UnionState left.State right.State
  closed := .over
  start _ row := .waiting row
  next r
    | .waiting row => nextFirst left right r (left.start r row) row
    | .first l row => nextFirst left right r l row
    | .second s => nextSecond left right r s
    | .over => (.done, .over)

/-! ## Sieves -/

section Sieve

variable {σ : Type} [Inhabited σ]

section Search

variable (m : Evaluator) (image : Dataset → σ → Row → Option Row × σ) (r : Reading)

/-- Asks for rows until one of them has an image. -/
def nextImage : m.State → σ → Pull Corruption Row × m.State × σ
  | s, memory =>
    match m.next r s with
    | (.item row, s) =>
      match image r.dataset memory row with
      | (some row, memory) => (.item row, s, memory)
      | (none, memory) => by
        apply nextImage
        · exact s
        · exact memory
    | (.done, s) => (.done, s, memory)
    | (.error c, s) => (.error c, s, memory)
partial_fixpoint

end Search

/-- The images of those rows that have one. The row to extend may be changed before, and something
of it and of the rows so far may be remembered. -/
def sieve (m : Evaluator) (enter : Row → Row) (begin : Row → σ)
    (image : Dataset → σ → Row → Option Row × σ) : Evaluator where
  State := m.State × σ
  closed := (m.closed, default)
  start r row := (m.start r (enter row), begin row)
  next r s := nextImage m image r s.1 s.2

end Sieve

/-- The images of those rows that have one. -/
def filterMap (m : Evaluator) (image? : Dataset → Row → Option Row) : Evaluator :=
  m.sieve id (fun _ => ()) fun d _ row => (image? d row, ())

/-- The rows that satisfy a condition. -/
def filter (m : Evaluator) (keep : Dataset → Row → Bool) : Evaluator :=
  m.filterMap fun d row => if keep d row then some row else none

/-- The rows that equal none before. -/
def distinct (m : Evaluator) : Evaluator :=
  m.sieve id (fun _ => ([] : List Row)) fun _ seen row =>
    if seen.any row.same then (none, seen) else (some row, row :: seen)

/-- The rows of an evaluation that sees some variables only. -/
def project (m : Evaluator) (vs : List Variable) : Evaluator :=
  m.sieve (·.restrict vs) some fun _ row? inner => (row?.bind (·.extend? vs inner), row?)

/-! ## Orders and slices -/

section Drain

variable (m : Evaluator) (r : Reading)

/-- Asks for rows up to the end. -/
def drain : m.State → List Row → Except Corruption (List Row)
  | s, rows =>
    match m.next r s with
    | (.item row, s) => by
      apply drain
      · exact s
      · exact rows ++ [row]
    | (.done, _) => .ok rows
    | (.error c, _) => .error c
partial_fixpoint

end Drain

/-- Where a sort stands: before its first row, or with the rows that are still to come. -/
inductive SortState (S : Type) where
  | pending (s : S)
  | sorted (rows : List Row)

/-- The next one of some rows. -/
def nextSorted {S : Type} : List Row → Pull Corruption Row × SortState S
  | [] => (.done, .sorted [])
  | row :: rest => (.item row, .sorted rest)

/-- All rows, put in order when the first one is asked for. -/
def sort (m : Evaluator) (order : Dataset → List Row → List Row) : Evaluator where
  State := SortState m.State
  closed := .sorted []
  start r row := .pending (m.start r row)
  next r
    | .sorted rows => nextSorted rows
    | .pending s =>
      match m.drain r s [] with
      | .ok rows => nextSorted (order r.dataset rows)
      | .error c => (.error c, .sorted [])

/-- The rows after the first ones, up to a number of them. Nothing is read beyond the last one. -/
def slice (m : Evaluator) (start : Nat) (length? : Option Nat) : Evaluator where
  State := Cursor.SliceState m.State
  closed := ⟨m.closed, 0, some 0⟩
  start r row := ⟨m.start r row, start, length?⟩
  next r s :=
    if s.remaining? = some 0 then (.done, { s with inner := m.closed })
    else
      match Cursor.skipThenPull (m.next r) s.toSkip s.inner with
      | (.item row, toSkip, inner) =>
        let remaining? := s.remaining?.map (· - 1)
        (.item row, ⟨if remaining? = some 0 then m.closed else inner, toSkip, remaining?⟩)
      | (other, toSkip, inner) => (other, ⟨inner, toSkip, s.remaining?⟩)

end Evaluator

/-- The evaluator of a pattern. -/
def GraphPattern.evaluator : GraphPattern → Evaluator
  | quad pattern => .quad pattern
  | join left right => .join left.evaluator right.evaluator
  | leftJoin left right condition? => .leftJoin left.evaluator
      (right.evaluator.filter fun d row => Expression.allows d condition? row)
  | filter condition inner => inner.evaluator.filter fun d row =>
      Datum.truthOf? (condition.eval d row) == some true
  | union left right => .union left.evaluator right.evaluator
  | extend inner v value => inner.evaluator.filterMap fun d row =>
      row.bindAny? v (value.eval d row)
  | distinct inner => inner.evaluator.distinct
  | orderBy inner keys => inner.evaluator.sort fun d rows =>
      Row.sort (keys.map (·.1)) (fun row => Expression.evalKeys d keys row) rows
  | slice inner start length? => inner.evaluator.slice start length?
  | project inner vs => inner.evaluator.project vs

end QuadStore
