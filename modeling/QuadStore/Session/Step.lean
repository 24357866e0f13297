import QuadStore.Store.OpenCursor
import QuadStore.Store.Opening

/-!
# Steps of a session

What can be asked of a store that is in use, and how it is answered.
-/

namespace QuadStore

/-- Who may hold the open transaction. -/
inductive Writer where
  | transaction
  | connection (name : String)
deriving DecidableEq, Repr

/-- Who reads. -/
inductive Reader where
  | snapshot (name : String)
  | writer (w : Writer)
deriving DecidableEq, Repr

/-- What a reader asks for. -/
inductive Read where
  | number
  | quads (q : QuadQuery) (inferred : Bool) (limit? : Option Nat)
  | contains (q : Quad)
  | size
  | isEmpty
  | count (contexts : List GraphName) (inferred : Bool)
  | contexts
  | namespaces
  | space (label : String)
  | evaluate (pattern : GraphPattern) (bindings : BindingSet) (inferred : Bool)
      (limit? : Option Nat)
  /-- An evaluation without a deadline. -/
  | execute (pattern : GraphPattern) (bindings : BindingSet) (inferred : Bool)
      (limit? : Option Nat)

/-- What a writer changes. -/
inductive Write where
  | insert (q : Quad) (explicit : Bool)
  | remove (q : Quad)
  | removeMatching (q : QuadQuery) (explicit : Bool)
  | clear (contexts : List GraphName)
  | changeNamespaces (change : NamespaceChange)

/-- What is done to the bytes of a journal between two sessions: they are replaced, then some are
cut from their end, then some are added. -/
structure FileEdit where
  replacement? : Option Bytes := none
  cut : Nat := 0
  added : Bytes := []
deriving DecidableEq, Repr

/-- A step. Snapshots, connections and cursors are known by names. -/
inductive Step where
  | takeSnapshot (name : String) (source? : Option String)
  | dropSnapshot (name : String)
  | connect (name : String)
  | disconnect (name : String)
  | stats
  | options
  | file
  | files
  | openAgain
  | reopen (edit : FileEdit) (options : StoreOptions)
  | insert (q : Quad)
  | remove (q : Quad)
  | extend (quads : List Quad)
  | collect
  | compact
  | validate
  | latest (read : Read)
  | read (reader : Reader) (read : Read)
  | begin (writer : Writer)
  | commit (writer : Writer)
  | rollback (writer : Writer)
  | write (writer : Writer) (change : Write)
  | isActive (connection : String)
  | openQuads (name : String) (q : QuadQuery) (inferred : Bool) (snapshot? : Option String)
  | openRows (name : String) (pattern : GraphPattern) (bindings : BindingSet) (inferred : Bool)
      (snapshot : String)
  | next (name : String) (count : Nat)
  | close (name : String)
  | dropCursor (name : String)

/-- Why a step fails. -/
inductive Failure where
  | store (e : StoreError)
  | evaluation (e : EvaluationError)
  | notActive
  | alreadyActive
  /-- The directory is in use. -/
  | locked
  /-- The store could not be opened. -/
  | closed
  /-- The step would wait for the open transaction for ever. -/
  | busy
  /-- Something is named that there is not. -/
  | unknown
deriving DecidableEq, Repr

/-- What a failure of a writer or of the store says. -/
def Failure.message? : Failure → Option String
  | store e => some e.message
  | evaluation e => some e.message
  | notActive => some "No transaction is active on this connection"
  | alreadyActive => some "A transaction is already active on this connection"
  | locked => none
  | closed => none
  | busy => none
  | unknown => none

/-- What a pull of a cursor gives. -/
inductive Pulled where
  | quad (q : Quad)
  | row (b : BindingSet)
  | ended
  | failed (f : Failure)

/-- The answer to a step. -/
inductive Answer where
  | done
  | flag (b : Bool)
  | number (n : Nat)
  | quads (qs : List Quad)
  | contexts (rs : List Resource)
  | namespaces (ns : Namespaces)
  | space (space? : Option String)
  | rows (columns : List Variable) (pulls : List (Except EvaluationError BindingSet))
  | pulled (items : List Pulled)
  | stats (snapshot : Nat) (pinned terms : Nat)
  | options (persistent : Bool) (options : StoreOptions)
  | bytes (bytes? : Option Bytes)
  | files (sizes : List (String × Nat))
  | opened (snapshot : Nat)
  | failed (f : Failure)

end QuadStore
