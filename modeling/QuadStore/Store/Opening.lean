import QuadStore.Store.Transaction

/-!
# Opening a store

A store with a journal is opened by replaying the records of the journal, each as a transaction of
its own. Compaction replaces the journal by a single record of what the latest snapshot shows.
-/

namespace QuadStore

/-! ## Replay -/

namespace Transaction

/-- Does what a record says. A quad that is removed has to be there. -/
def perform (t : Transaction) : Operation → Except Corruption Transaction
  | .insert q explicit => .ok (t.insert q explicit).2
  | .remove q explicit =>
    match t.remove q explicit with
    | (true, t) => .ok t
    | (false, _) => .error (.removalOfAbsent q)
  | .changeNamespaces change => .ok (t.changeNamespaces change)

end Transaction

namespace Store

/-- Repeats the transaction of a record, which has to follow the latest snapshot. -/
def replay (s : Store) (r : Record) : Except Corruption Store :=
  if r.operations.isEmpty then .ok s
  else if r.snapshot ≤ s.current then .error (.oldRecord r.snapshot s.current)
  else do
    let t ← r.operations.foldlM Transaction.perform s.begin
    return t.publish r.snapshot

end Store

/-- What comes of opening a store on some bytes: the bytes that are left, and the store. -/
structure Opening where
  file : Bytes
  result : Except Corruption Store

namespace Store

/-- Opens a store on the bytes of its journal. -/
def openJournal (options : StoreOptions) (bytes : Bytes) : Opening :=
  match Journal.recover bytes with
  | .error c => ⟨bytes, .error c⟩
  | .ok (records, kept) =>
    ⟨kept, do
      let s ← records.foldlM replay (Store.empty options)
      return { s with journal? := some kept }⟩

/-! ## Compaction -/

/-- The record of what the latest snapshot shows. -/
def summary (s : Store) : Except Corruption Record := do
  let inserts ← (s.index.entries.filter (·.isVisible s.current)).mapM fun e => do
    return Operation.insert (← s.dictionary.resolveQuad e.quad) e.explicit
  let declarations := s.namespaces.entries.map fun (label, space) =>
    Operation.changeNamespaces (.set label space)
  return ⟨s.current, declarations ++ inserts⟩

/-- Deletes what is out of reach and replaces the journal by one record. -/
def compact (s : Store) : Except StoreError Unit × Store :=
  let s := s.collect.2
  match s.journal? with
  | none => (.ok (), s)
  | some _ =>
    match s.summary with
    | .error c => (.error (.corruption c), s)
    | .ok record =>
      match Journal.frame? record with
      | some frame => (.ok (), { s with journal? := some (Journal.header ++ frame) })
      | none => (.error .tooLong, s)

end Store
end QuadStore
