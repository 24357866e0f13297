/-!
# Cursors

A cursor gives items one at a time on demand and can be closed before its end. It closes itself at
its end and at an error, and once closed it gives nothing more. The adapters wrap a cursor and
close it when they are closed.

Every cursor stands over one source of items and errors in the end, and shows how far this source
has been read and whether it has been released.
-/

namespace QuadStore

/-- What a cursor answers when it is asked for the next item. -/
inductive Pull (ε α : Type) where
  | item (a : α)
  | done
  | error (e : ε)
deriving DecidableEq, Repr

/-- The items and errors that are still to be read; a released source has none. -/
structure Source (ε α : Type) where
  rest? : Option (List (Except ε α))
  pulled : Nat

namespace Source

variable {ε α : Type}

/-- A source of which nothing was read yet. -/
def ofList (items : List (Except ε α)) : Source ε α := ⟨some items, 0⟩

def isReleased (s : Source ε α) : Bool := s.rest?.isNone

/-- How many items and errors are still to be read. -/
def left (s : Source ε α) : Nat := (s.rest?.getD []).length

def release (s : Source ε α) : Source ε α := ⟨none, s.pulled⟩

/-- Reads one item; an error or the end releases the source. -/
def pull (s : Source ε α) : Pull ε α × Source ε α :=
  match s.rest? with
  | none => (.done, s)
  | some [] => (.done, s.release)
  | some (.ok a :: rest) => (.item a, ⟨some rest, s.pulled + 1⟩)
  | some (.error e :: _) => (.error e, ⟨none, s.pulled + 1⟩)

end Source

/-- A cursor: a state, what a pull and a close do to it, and the source under it, whose elements may
be others than the items. -/
structure Cursor (ε α : Type) where
  State : Type
  Origin : Type
  state : State
  step : State → Pull ε α × State
  shut : State → State
  source : State → Source ε Origin

namespace Cursor

variable {ε α β μ : Type}

/-- The next item, and the cursor after it. -/
def next (c : Cursor ε α) : Pull ε α × Cursor ε α :=
  let (result, state) := c.step c.state
  (result, { c with state })

/-- The cursor after it has been closed. -/
def close (c : Cursor ε α) : Cursor ε α := { c with state := c.shut c.state }

/-- The cursor over a source of its own. -/
def ofList (items : List (Except ε α)) : Cursor ε α :=
  { State := Source ε α
    Origin := α
    state := .ofList items
    step := Source.pull
    shut := Source.release
    source := id }

/-- The cursor without items, which holds no source that it could release. -/
def empty : Cursor ε α :=
  { State := Unit
    Origin := α
    state := ()
    step := fun s => (.done, s)
    shut := id
    source := fun _ => .ofList [] }

/-- Pulls until an item has an image, at most `fuel` times. The image may depend on what is
remembered of the items before. -/
def findImage {σ : Type} (step : σ → Pull ε α × σ) (image : μ → α → Option β × μ) :
    (fuel : Nat) → σ × μ → Pull ε β × (σ × μ)
  | 0, s => (.done, s)
  | fuel + 1, (s, memory) =>
    match step s with
    | (.item a, s) =>
      match image memory a with
      | (some b, memory) => (.item b, (s, memory))
      | (none, memory) => findImage step image fuel (s, memory)
    | (.done, s) => (.done, (s, memory))
    | (.error e, s) => (.error e, (s, memory))

/-- The images of the items that have one. No more pulls are needed than the source has elements
left, and one for the end. -/
def filterMapAccum (c : Cursor ε α) (memory : μ) (image : μ → α → Option β × μ) : Cursor ε β :=
  { State := c.State × μ
    Origin := c.Origin
    state := (c.state, memory)
    step := fun s => findImage c.step image ((c.source s.1).left + 1) s
    shut := fun (s, memory) => (c.shut s, memory)
    source := fun (s, _) => c.source s }

/-- The images of the items that have one, for a function that remembers nothing. -/
def filterMap (c : Cursor ε α) (f : α → Option β) : Cursor ε β :=
  c.filterMapAccum () fun _ a => (f a, ())

/-- The items that satisfy a condition. -/
def filter (c : Cursor ε α) (keep : α → Bool) : Cursor ε α :=
  c.filterMap fun a => if keep a then some a else none

/-- Where a slice stands: the items to leave out and those still allowed. -/
structure SliceState (σ : Type) where
  inner : σ
  toSkip : Nat
  remaining? : Option Nat

/-- Pulls the items to leave out, then one more. -/
def skipThenPull {σ : Type} (step : σ → Pull ε α × σ) : (toSkip : Nat) → σ → Pull ε α × Nat × σ
  | 0, s =>
    let (result, s) := step s
    (result, 0, s)
  | toSkip + 1, s =>
    match step s with
    | (.item _, s) => skipThenPull step toSkip s
    | (other, s) => (other, toSkip + 1, s)

/-- The next item of a slice. The inner cursor is closed together with the last item allowed. -/
def SliceState.next {σ : Type} (step : σ → Pull ε α × σ) (shut : σ → σ) (s : SliceState σ) :
    Pull ε α × SliceState σ :=
  if s.remaining? = some 0 then (.done, { s with inner := shut s.inner })
  else
    match skipThenPull step s.toSkip s.inner with
    | (.item a, toSkip, inner) =>
      let remaining? := s.remaining?.map (· - 1)
      let inner := if remaining? = some 0 then shut inner else inner
      (.item a, ⟨inner, toSkip, remaining?⟩)
    | (other, toSkip, inner) => (other, ⟨inner, toSkip, s.remaining?⟩)

/-- The items after the first `offset`, at most `limit?` of them. -/
def slice (c : Cursor ε α) (offset : Nat) (limit? : Option Nat) : Cursor ε α :=
  { State := SliceState c.State
    Origin := c.Origin
    state := ⟨c.state, offset, limit?⟩
    step := SliceState.next c.step c.shut
    shut := fun s => { s with inner := c.shut s.inner, remaining? := some 0 }
    source := fun s => c.source s.inner }

/-- The same items read through a second cursor, which closes the first one at the end, at an
error and when it is closed itself. -/
def reopen (c : Cursor ε α) : Cursor ε α :=
  { State := c.State × Bool
    Origin := c.Origin
    state := (c.state, true)
    step := fun (s, isOpen) =>
      if isOpen then
        match c.step s with
        | (.item a, s) => (.item a, s, true)
        | (other, s) => (other, c.shut s, false)
      else (.done, s, false)
    shut := fun (s, isOpen) => (if isOpen then c.shut s else s, false)
    source := fun (s, _) => c.source s }

end Cursor
end QuadStore
