import QuadStore.Store.View

/-!
# Transactions

A transaction stages its changes in the index of the store that it holds: added entries are stamped
as pending, and removed ones end at the pending stamp, so that the view at this stamp shows what
the transaction has done so far and the snapshots show none of it. A commit puts the number of the
new snapshot in the place of the pending stamp; a rollback takes the changes back in reverse.
-/

namespace QuadStore

/-- A staged change of an entry. -/
inductive Change where
  /-- The entry has been added. -/
  | insert (id : EntryId)
  /-- The committed entry has been removed. -/
  | remove (id : EntryId)
  /-- The entry has been taken back by the transaction that added it. -/
  | discard (id : EntryId)
deriving DecidableEq, Repr

/-- A store with the changes that are staged in it, in the order in which they were made. -/
structure Transaction where
  store : Store
  changes : List Change
  namespaceChanges : List NamespaceChange

/-- Begins a transaction. -/
def Store.begin (s : Store) : Transaction := ⟨s, [], []⟩

namespace Transaction

/-! ## Staging -/

/-- Stages the removal of an entry. -/
def stageRemoval (t : Transaction) (e : Entry) : Transaction :=
  let s := { t.store with live := t.store.live.erase e.quad }
  if e.since = Stamp.pending then
    { t with store := { s with index := s.index.setSince e.id Stamp.never }
             changes := t.changes ++ [.discard e.id] }
  else
    { t with store := { s with index := s.index.setTill e.id Stamp.pending }
             changes := t.changes ++ [.remove e.id] }

/-- Stages a new entry of a quad. -/
def stageInsertion (t : Transaction) (q : EncodedQuad) (explicit : Bool) : Transaction :=
  let (id, index) := t.store.index.insert q explicit Stamp.pending
  { t with store := { t.store with index := index, live := t.store.live.set q id }
           changes := t.changes ++ [.insert id] }

/-- The entry of a quad that is live. -/
def liveEntry? (t : Transaction) (q : EncodedQuad) : Option Entry :=
  (t.store.live.get? q).bind t.store.index.get?

/-- Inserts a quad, unless it is there. An explicit quad takes the place of an inferred one. -/
def insert (t : Transaction) (q : Quad) (explicit : Bool) : Bool × Transaction :=
  let (encoded, dictionary) := t.store.dictionary.internQuad q
  let t := { t with store := { t.store with dictionary := dictionary } }
  match t.liveEntry? encoded with
  | none => (true, t.stageInsertion encoded explicit)
  | some e =>
    if e.explicit || !explicit then (false, t)
    else (true, (t.stageRemoval e).stageInsertion encoded explicit)

/-- Removes a quad that is there and is explicit or inferred as asked. -/
def remove (t : Transaction) (q : Quad) (explicit : Bool) : Bool × Transaction :=
  match (t.store.dictionary.lookupQuad? q).bind t.liveEntry? with
  | none => (false, t)
  | some e => if e.explicit = explicit then (true, t.stageRemoval e) else (false, t)

/-- Removes the explicit or the inferred quads of a shape, and tells how many they were. -/
def removeShape (t : Transaction) (shape : EncodedShape) (explicit : Bool) : Nat × Transaction :=
  let matching := (t.store.index.search shape Stamp.pending true).filter (·.explicit == explicit)
  (matching.length, matching.foldl stageRemoval t)

/-- Removes the explicit or the inferred quads of some shapes. -/
def removeShapes (t : Transaction) (explicit : Bool) : List EncodedShape → Nat × Transaction
  | [] => (0, t)
  | shape :: rest =>
    let (n, t) := t.removeShape shape explicit
    let (m, t) := t.removeShapes explicit rest
    (n + m, t)

/-- Removes the explicit or the inferred quads asked for, and tells how many they were. -/
def removeMatching (t : Transaction) (q : QuadQuery) (explicit : Bool) : Nat × Transaction :=
  t.removeShapes explicit (View.shapes t.store.dictionary q)

/-- Removes the explicit quads of some contexts, or of all. -/
def clear (t : Transaction) (contexts : List GraphName) : Nat × Transaction :=
  t.removeMatching { contexts := contexts } true

/-- Changes the namespaces. -/
def changeNamespaces (t : Transaction) (change : NamespaceChange) : Transaction :=
  { t with namespaceChanges := t.namespaceChanges ++ [change] }

/-! ## Reading -/

/-- What the transaction shows. -/
def view (t : Transaction) : View := t.store.at Stamp.pending

/-- How many quads the transaction shows. -/
def size (t : Transaction) : Nat := t.store.live.size

/-- The namespaces with the staged changes. -/
def namespaces (t : Transaction) : Namespaces := t.store.namespaces.applyAll t.namespaceChanges

/-! ## Committing -/

/-- The operation that a change is recorded as. A change that has been undone is not recorded. -/
def operation? (s : Store) : Change → Except Corruption (Option Operation)
  | .insert id =>
    match s.index.get? id with
    | some e =>
      if e.since = Stamp.pending then
        return some (.insert (← s.dictionary.resolveQuad e.quad) e.explicit)
      else return none
    | none => return none
  | .remove id =>
    match s.index.get? id with
    | some e => return some (.remove (← s.dictionary.resolveQuad e.quad) e.explicit)
    | none => return none
  | .discard _ => return none

/-- The record of the transaction. -/
def record (t : Transaction) (stamp : Nat) : Except Corruption Record := do
  let operations ← t.changes.mapM (operation? t.store)
  return ⟨stamp, operations.filterMap id ++ t.namespaceChanges.map .changeNamespaces⟩

/-- The journal with the record of the transaction, unless there is nothing to record. -/
def journalAfter (t : Transaction) (stamp : Nat) : Except StoreError (Option Bytes) :=
  match t.store.journal? with
  | none => .ok none
  | some bytes =>
    match t.record stamp with
    | .error c => .error (.corruption c)
    | .ok record =>
      if record.operations.isEmpty then .ok (some bytes)
      else
        match Journal.frame? record with
        | some frame => .ok (some (bytes ++ frame))
        | none => .error .tooLong

/-- Makes a change part of a snapshot. -/
def settle (stamp : Nat) (s : Store) : Change → Store
  | .insert id =>
    { s with index := s.index.modify id fun e =>
        if e.since = Stamp.pending then { e with since := stamp } else e }
  | .remove id =>
    { s with index := s.index.setTill id stamp, garbage := s.garbage ++ [id] }
  | .discard id => { s with garbage := s.garbage ++ [id] }

/-- Makes the changes a snapshot, which becomes the latest one. -/
def publish (t : Transaction) (stamp : Nat) : Store :=
  let s := t.changes.foldl (settle stamp) t.store
  Store.collectIfAsked { s with namespaces := t.namespaces, current := stamp }

/-! ## Rolling back -/

/-- Takes a change back. -/
def revert (s : Store) : Change → Store
  | .insert id =>
    let live :=
      match s.index.get? id with
      | some e => if s.live.get? e.quad = some id then s.live.erase e.quad else s.live
      | none => s.live
    { s with index := s.index.setSince id Stamp.never, live := live, garbage := s.garbage ++ [id] }
  | .remove id =>
    { s with
      index := s.index.setTill id Stamp.never
      live := (s.index.get? id).elim s.live fun e => s.live.set e.quad id }
  | .discard id =>
    { s with
      index := s.index.setSince id Stamp.pending
      live := (s.index.get? id).elim s.live fun e => s.live.set e.quad id }

/-- Takes all changes back. Only the dictionary keeps what it has learnt. -/
def rollback (t : Transaction) : Store := (t.changes.reverse.foldl revert t.store).collectIfAsked

/-- Commits the changes as a new snapshot and tells its number. If the record can not be written,
the changes are taken back. -/
def commit (t : Transaction) : Except StoreError Nat × Store :=
  let stamp := Stamp.next t.store.current
  match t.journalAfter stamp with
  | .error e => (.error e, t.rollback)
  | .ok journal? =>
    (.ok stamp, { t with store := { t.store with journal? := journal? } }.publish stamp)

end Transaction

namespace Store

/-! ## Transactions of one step -/

/-- Commits a transaction that has a result. -/
def committing {α : Type} (result : α × Transaction) : Except StoreError α × Store :=
  match result.2.commit with
  | (.ok _, s) => (.ok result.1, s)
  | (.error e, s) => (.error e, s)

/-- Inserts an explicit quad, and tells whether it was not there. -/
def insert (s : Store) (q : Quad) : Except StoreError Bool × Store :=
  committing (s.begin.insert q true)

/-- Removes an explicit quad, and tells whether it was there. -/
def remove (s : Store) (q : Quad) : Except StoreError Bool × Store :=
  committing (s.begin.remove q true)

/-- Inserts explicit quads. -/
def extend (s : Store) (quads : List Quad) : Except StoreError Unit × Store :=
  committing ((), quads.foldl (fun t q => (t.insert q true).2) s.begin)

/-- A store in memory with explicit quads, then inferred ones. -/
def ofQuads (options : StoreOptions) (explicit inferred : List Quad) : Store :=
  let s := ((Store.empty options).extend explicit).2
  (committing ((), inferred.foldl (fun t q => (t.insert q false).2) s.begin)).2

end Store
end QuadStore
