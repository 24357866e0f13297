import QuadStore.Eval.Query
import QuadStore.Journal.Frames
import QuadStore.Store.Dictionary
import QuadStore.Store.Index
import QuadStore.Store.Snapshots

/-!
# Stores

A store keeps versions of quads: its index holds the entries, `live` says which of them are the
quads that the next transaction begins with, and `garbage` lists those that have been removed or
taken back and wait to be deleted. What a snapshot shows is decided by the stamps of the entries
alone, and an entry is deleted only when no reader can reach it any more.
-/

namespace QuadStore

/-- How a store works. -/
structure StoreOptions where
  /-- Whether each commit is flushed to the disk. -/
  sync : Bool := false
  /-- How many milliseconds an evaluation may take. -/
  timeout? : Option Nat := none
  /-- Whether each commit deletes what is out of reach. -/
  collects : Bool := true
deriving DecidableEq, Repr

/-- The deadline of an evaluation that begins now. -/
def StoreOptions.deadline (options : StoreOptions) : Deadline :=
  if options.timeout? = some 0 then .passed else .ahead

/-- Why a store can not do something. -/
inductive StoreError where
  | corruption (c : Corruption)
  | tooLong
deriving DecidableEq, Repr

/-- What the error says. -/
def StoreError.message : StoreError → String
  | corruption c => c.message
  | tooLong => "out of range integral type conversion attempted"

/-- A store. -/
structure Store where
  dictionary : Dictionary
  index : Index
  /-- The latest snapshot. -/
  current : Nat
  pins : Pins
  /-- The entries of the quads that the next transaction begins with. -/
  live : Table EncodedQuad EntryId
  /-- The entries that wait to be deleted. -/
  garbage : List EntryId
  namespaces : Namespaces
  /-- The bytes of the journal, if the store has one. -/
  journal? : Option Bytes
  options : StoreOptions
deriving DecidableEq

namespace Store

/-- A store in memory without quads. -/
def empty (options : StoreOptions) : Store :=
  ⟨.empty, .empty, 0, .empty, .empty, [], .empty, none, options⟩

/-- Whether an entry that waits to be deleted is out of reach of all readers. -/
def isUnreachable (s : Store) (id : EntryId) : Bool :=
  (s.index.get? id).all fun e => e.isAborted || e.till ≤ s.pins.watermark s.current

/-- Deletes the entries that are out of reach, and tells how many they were. -/
def collect (s : Store) : Nat × Store :=
  let dead := s.garbage.filter s.isUnreachable
  (dead.length, { s with
    index := if dead.isEmpty then s.index else s.index.removeAll dead
    garbage := s.garbage.filter fun id => !s.isUnreachable id })

/-- Deletes what is out of reach if the options ask for it. -/
def collectIfAsked (s : Store) : Store := if s.options.collects then s.collect.2 else s

/-! ## Snapshots -/

end Store

/-- A snapshot that is pinned. -/
structure Snapshot where
  pin : PinId
  stamp : Nat
deriving DecidableEq, Repr

namespace Store

/-- Pins the latest snapshot. -/
def snapshot (s : Store) : Snapshot × Store :=
  let (pin, pins) := s.pins.add s.current
  (⟨pin, s.current⟩, { s with pins := pins })

/-- Lets one more reader hold a pin. -/
def share (s : Store) (pin : PinId) : Store := { s with pins := s.pins.share pin }

/-- Lets go of a pin. -/
def release (s : Store) (pin : PinId) : Store := { s with pins := s.pins.release pin }

/-! ## Validation -/

/-- Checks an entry outside of a transaction. -/
def checkEntry (s : Store) (e : Entry) : Except Corruption Unit := do
  let _ ← s.dictionary.resolveQuad e.quad
  Index.require (e.since != Stamp.pending && e.till != Stamp.pending) (.staged e.quad)
  Index.require (!e.isVisible s.current || s.live.get? e.quad == some e.id) (.notLive e.quad)

/-- Checks that the index, the live quads and the dictionary agree. -/
def validate (s : Store) : Except Corruption Unit := do
  s.index.validate
  s.index.entries.forM s.checkEntry
  let visible := s.index.entries.countP (·.isVisible s.current)
  Index.require (visible == s.live.size) (.liveCount s.live.size visible)

end Store
end QuadStore
