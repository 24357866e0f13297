import QuadStore.Session.Step

/-!
# Sessions

A session is a store in use: at most one writer holds the open transaction, and snapshots,
connections and cursors are kept under names. `Session.step` answers one step and `Session.run` a
list of them.
-/

namespace QuadStore

/-- What a session holds: no store if it could not be opened, else the store or the transaction
that is open in it. -/
inductive SessionState where
  | closed (file : Bytes)
  | idle (s : Store)
  | writing (w : Writer) (t : Transaction)

/-- A store in use. -/
structure Session where
  state : SessionState
  snapshots : Table String Snapshot
  connections : List String
  cursors : Table String OpenCursor

namespace Session

/-! ## Opening -/

/-- The name of the file with the journal. -/
def journalName : String := "quads.log"

/-- The name of the file that is locked while the store is open. -/
def lockName : String := "LOCK"

/-- A session with nothing but its state. -/
def ofState (state : SessionState) : Session := ⟨state, .empty, [], .empty⟩

/-- Opens a store on the bytes of a journal, or else in memory. -/
def start (file? : Option Bytes) (options : StoreOptions) : Answer × Session :=
  match file? with
  | none => (.opened 0, ofState (.idle (.empty options)))
  | some bytes =>
    let opening := Store.openJournal options bytes
    match opening.result with
    | .ok s => (.opened s.current, ofState (.idle s))
    | .error c => (.failed (.store (.corruption c)), ofState (.closed opening.file))

/-- The store, with the changes that are staged in it. -/
def store? (session : Session) : Option Store :=
  match session.state with
  | .closed _ => none
  | .idle s => some s
  | .writing _ t => some t.store

/-- The bytes of the journal. -/
def file? (session : Session) : Option Bytes :=
  match session.state with
  | .closed file => some file
  | .idle s => s.journal?
  | .writing _ t => t.store.journal?

/-- The bytes of a journal after an edit. -/
def edited (edit : FileEdit) (bytes : Bytes) : Bytes :=
  let bytes := edit.replacement?.getD bytes
  bytes.take (bytes.length - edit.cut) ++ edit.added

/-- Drops everything and opens the store again. -/
def reopen (session : Session) (edit : FileEdit) (options : StoreOptions) : Answer × Session :=
  start (session.file?.map (edited edit)) options

/-! ## Access to the store -/

/-- Changes the store, whether or not a transaction is open in it. -/
def mapStore (session : Session) (f : Store → Store) : Session :=
  match session.state with
  | .closed _ => session
  | .idle s => { session with state := .idle (f s) }
  | .writing w t => { session with state := .writing w { t with store := f t.store } }

/-- Answers from the store. -/
def ask (session : Session) (f : Store → Answer) : Answer × Session :=
  ((session.store?.map f).getD (.failed .closed), session)

/-- The answer to a result. -/
def answer {ε α : Type} (failure : ε → Failure) (f : α → Answer) : Except ε α → Answer
  | .ok a => f a
  | .error e => .failed (failure e)

/-- Does something to the store that waits for the open transaction to end. -/
def withIdle (session : Session) (f : Store → Answer × Store) : Answer × Session :=
  match session.state with
  | .closed _ => (.failed .closed, session)
  | .writing _ _ => (.failed .busy, session)
  | .idle s =>
    let (answer, s) := f s
    (answer, { session with state := .idle s })

/-! ## Transactions -/

/-- Whether a writer is known. -/
def knows (session : Session) : Writer → Bool
  | .transaction => true
  | .connection name => session.connections.contains name

/-- The open transaction, if a writer holds it. -/
def transactionOf? (session : Session) (w : Writer) : Option Transaction :=
  match session.state with
  | .writing holder t => if holder = w then some t else none
  | _ => none

/-- The failure of a writer that holds no transaction. -/
def idleFailure (session : Session) (w : Writer) : Failure :=
  if session.store?.isNone then .closed
  else
    match w with
    | .transaction => .unknown
    | .connection _ => if session.knows w then .notActive else .unknown

/-- Begins a transaction. -/
def begin (session : Session) (w : Writer) : Answer × Session :=
  match session.state with
  | .closed _ => (.failed .closed, session)
  | .idle s =>
    if session.knows w then (.done, { session with state := .writing w s.begin })
    else (.failed .unknown, session)
  | .writing holder _ =>
    if !session.knows w then (.failed .unknown, session)
    else if holder = w ∧ w ≠ .transaction then (.failed .alreadyActive, session)
    else (.failed .busy, session)

/-- Does something with the transaction of a writer. -/
def withTransaction (session : Session) (w : Writer) (f : Transaction → Answer × SessionState) :
    Answer × Session :=
  match session.transactionOf? w with
  | none => (.failed (session.idleFailure w), session)
  | some t =>
    let (answer, state) := f t
    (answer, { session with state := state })

/-- Commits the transaction of a writer. -/
def commit (session : Session) (w : Writer) : Answer × Session :=
  session.withTransaction w fun t =>
    let (result, s) := t.commit
    (answer .store .number result, .idle s)

/-- Rolls back the transaction of a writer. -/
def rollback (session : Session) (w : Writer) : Answer × Session :=
  session.withTransaction w fun t => (.done, .idle t.rollback)

/-- Stages a change. -/
def stage (t : Transaction) : Write → Answer × Transaction
  | .insert q explicit =>
    let (inserted, t) := t.insert q explicit
    (.flag inserted, t)
  | .remove q =>
    let (removed, t) := t.remove q true
    (.flag removed, t)
  | .removeMatching q explicit =>
    let (n, t) := t.removeMatching q explicit
    (.number n, t)
  | .clear contexts =>
    let (n, t) := t.clear contexts
    (.number n, t)
  | .changeNamespaces change => (.done, t.changeNamespaces change)

/-- Stages a change in the transaction of a writer. -/
def write (session : Session) (w : Writer) (change : Write) : Answer × Session :=
  session.withTransaction w fun t =>
    let (answer, t) := stage t change
    (answer, .writing w t)

/-! ## Reads -/

/-- Some elements up to a limit. -/
def limited {α : Type} (limit? : Option Nat) (xs : List α) : List α := limit?.elim xs xs.take

/-- The answer to an evaluation. -/
def evaluate (v : View) (pattern : GraphPattern) (bindings : BindingSet) (inferred : Bool)
    (limit? : Option Nat) (deadline : Deadline) : Answer :=
  answer .evaluation
    (fun query => .rows query.columns (limited limit? (query.pulls (v.dataset inferred) deadline)))
    (Query.ofPattern pattern bindings)

/-- The answer to a read, given what it reads, how many quads there are and the namespaces. -/
def readAt (v : View) (size : Nat) (ns : Namespaces) : Read → Answer
  | .number => .number v.stamp
  | .quads q inferred limit? =>
    answer (fun c => .store (.corruption c)) (fun qs => .quads (limited limit? qs))
      (v.quads q inferred)
  | .contains q => .flag (v.contains q)
  | .size => .number size
  | .isEmpty => .flag (size == 0)
  | .count contexts inferred => .number (v.count { contexts := contexts } inferred)
  | .contexts => answer (fun c => .store (.corruption c)) .contexts v.contexts
  | .namespaces => .namespaces ns
  | .space label => .space (ns.get? label)
  | .evaluate pattern bindings inferred limit? =>
    evaluate v pattern bindings inferred limit? v.store.options.deadline
  | .execute pattern bindings inferred limit? =>
    evaluate v pattern bindings inferred limit? .ahead

/-- The answer to a read at a stamp. Namespaces have no versions. -/
def readStore (s : Store) (stamp : Nat) (read : Read) : Answer :=
  readAt (s.at stamp) (s.at stamp).size s.namespaces read

/-- The answer to a read within a transaction. -/
def readTransaction (t : Transaction) (read : Read) : Answer :=
  readAt t.view t.size t.namespaces read

/-- What a connection reads: it counts explicit quads only. -/
def connectionRead : Read → Read
  | .count contexts _ => .count contexts false
  | read => read

/-- The answer to a read. A connection reads its transaction, or else the latest snapshot. -/
def read (session : Session) (reader : Reader) (read : Read) : Answer :=
  match session.store? with
  | none => .failed .closed
  | some s =>
    match reader with
    | .snapshot name =>
      match session.snapshots.get? name with
      | some snapshot => readStore s snapshot.stamp read
      | none => .failed .unknown
    | .writer .transaction =>
      match session.transactionOf? .transaction with
      | some t => readTransaction t read
      | none => .failed .unknown
    | .writer (.connection name) =>
      if !session.knows (.connection name) then .failed .unknown
      else
        match session.transactionOf? (.connection name) with
        | some t => readTransaction t (connectionRead read)
        | none => readStore s s.current (connectionRead read)

/-! ## Snapshots and connections -/

/-- Lets go of a snapshot. -/
def dropSnapshot (session : Session) (name : String) : Session :=
  match session.snapshots.get? name with
  | none => session
  | some snapshot =>
    { session.mapStore (·.release snapshot.pin) with snapshots := session.snapshots.erase name }

/-- Keeps a snapshot under a name, in the place of the one that had it. -/
def keepSnapshot (session : Session) (name : String) (snapshot : Snapshot) : Answer × Session :=
  let session := session.dropSnapshot name
  (.number snapshot.stamp, { session with snapshots := session.snapshots.set name snapshot })

/-- Pins the latest snapshot or shares the pin of another one. -/
def takeSnapshot (session : Session) (name : String) (source? : Option String) :
    Answer × Session :=
  match session.store? with
  | none => (.failed .closed, session)
  | some s =>
    match source? with
    | none => (session.mapStore (·.snapshot.2)).keepSnapshot name s.snapshot.1
    | some source =>
      match session.snapshots.get? source with
      | none => (.failed .unknown, session)
      | some snapshot => (session.mapStore (·.share snapshot.pin)).keepSnapshot name snapshot

/-- Drops a connection, whose transaction is rolled back. -/
def disconnect (session : Session) (name : String) : Session :=
  let session := (session.rollback (.connection name)).2
  { session with connections := session.connections.filter (· != name) }

/-- Opens a connection, in the place of the one that had its name. -/
def connect (session : Session) (name : String) : Session :=
  let session := session.disconnect name
  { session with connections := session.connections ++ [name] }

/-! ## Cursors -/

/-- Drops a cursor. -/
def dropCursor (session : Session) (name : String) : Session :=
  match session.cursors.get? name with
  | none => session
  | some c =>
    { session.mapStore (OpenCursor.drop · c) with cursors := session.cursors.erase name }

/-- Keeps a cursor under a name, in the place of the one that had it. -/
def keepCursor (session : Session) (name : String) (c : OpenCursor) : Answer × Session :=
  let session := session.dropCursor name
  (.done, { session with cursors := session.cursors.set name c })

/-- Opens a cursor over quads, at a snapshot whose pin it shares or at the latest one. -/
def openQuads (session : Session) (name : String) (q : QuadQuery) (inferred : Bool)
    (snapshot? : Option String) : Answer × Session :=
  match session.store? with
  | none => (.failed .closed, session)
  | some s =>
    match snapshot? with
    | none =>
      (session.mapStore (·.snapshot.2)).keepCursor name
        (.quads (.ofQuery s.dictionary s.snapshot.1 q inferred))
    | some source =>
      match session.snapshots.get? source with
      | none => (.failed .unknown, session)
      | some snapshot =>
        (session.mapStore (·.share snapshot.pin)).keepCursor name
          (.quads (.ofQuery s.dictionary snapshot q inferred))

/-- Opens a cursor over the rows of an evaluation at a snapshot, whose pin it shares. -/
def openRows (session : Session) (name : String) (pattern : GraphPattern)
    (bindings : BindingSet) (inferred : Bool) (source : String) : Answer × Session :=
  match session.store? with
  | none => (.failed .closed, session)
  | some s =>
    match session.snapshots.get? source with
    | none => (.failed .unknown, session)
    | some snapshot =>
      match Query.ofPattern pattern bindings with
      | .error e => (.failed (.evaluation e), session)
      | .ok query =>
        (session.mapStore (·.share snapshot.pin)).keepCursor name
          (.rows (.ofQuery s snapshot query inferred))

/-- What a pull of quads gives. -/
def pulledQuad : Except Corruption (Option Quad) → Pulled
  | .ok (some q) => .quad q
  | .ok none => .ended
  | .error c => .failed (.store (.corruption c))

/-- What a pull of rows gives. -/
def pulledRow : Except EvaluationError (Option BindingSet) → Pulled
  | .ok (some b) => .row b
  | .ok none => .ended
  | .error e => .failed (.evaluation e)

/-- Pulls the next element of a cursor. -/
def pull (s : Store) : OpenCursor → Pulled × OpenCursor × Store
  | .quads c =>
    let (result, c, s) := c.next s
    (pulledQuad result, .quads c, s)
  | .rows c =>
    let (result, c) := c.next s
    (pulledRow result, .rows c, s)

/-- Pulls some elements of a cursor. -/
def pullMany (s : Store) (c : OpenCursor) : Nat → List Pulled × OpenCursor × Store
  | 0 => ([], c, s)
  | n + 1 =>
    let (item, c, s) := pull s c
    let (items, c, s) := pullMany s c n
    (item :: items, c, s)

/-- Does something with a cursor. -/
def withCursor (session : Session) (name : String)
    (f : Store → OpenCursor → Answer × OpenCursor × Store) : Answer × Session :=
  match session.store? with
  | none => (.failed .closed, session)
  | some s =>
    match session.cursors.get? name with
    | none => (.failed .unknown, session)
    | some c =>
      let (answer, c, s) := f s c
      (answer, { session.mapStore fun _ => s with cursors := session.cursors.set name c })

/-- Pulls the next elements of a cursor. -/
def next (session : Session) (name : String) (count : Nat) : Answer × Session :=
  session.withCursor name fun s c =>
    let (items, c, s) := pullMany s c count
    (.pulled items, c, s)

/-- Closes a cursor. -/
def close (session : Session) (name : String) : Answer × Session :=
  session.withCursor name fun s c =>
    match c with
    | .quads c =>
      let (c, s) := c.close s
      (.done, .quads c, s)
    | .rows c => (.done, .rows c.close, s)

/-! ## Steps -/

/-- The answer to a step, and the session after it. -/
def step (session : Session) : Step → Answer × Session
  | .reopen edit options => session.reopen edit options
  | .file => (.bytes session.file?, session)
  | .files =>
    (.files ((session.file?.map fun bytes => [(lockName, 0), (journalName, bytes.length)]).getD []),
      session)
  | .openAgain => session.ask fun _ => .failed .locked
  | .stats => session.ask fun s => .stats s.current s.pins.size s.dictionary.size
  | .options => session.ask fun s => .options s.journal?.isSome s.options
  | .takeSnapshot name source? => session.takeSnapshot name source?
  | .dropSnapshot name =>
    if session.store?.isNone then (.failed .closed, session)
    else (.flag (session.snapshots.get? name).isSome, session.dropSnapshot name)
  | .connect name =>
    if session.store?.isNone then (.failed .closed, session) else (.done, session.connect name)
  | .disconnect name =>
    if session.store?.isNone then (.failed .closed, session)
    else (.flag (session.connections.contains name), session.disconnect name)
  | .insert q => session.withIdle fun s =>
    let (result, s) := s.insert q
    (answer .store .flag result, s)
  | .remove q => session.withIdle fun s =>
    let (result, s) := s.remove q
    (answer .store .flag result, s)
  | .extend quads => session.withIdle fun s =>
    let (result, s) := s.extend quads
    (answer .store (fun _ => .done) result, s)
  | .collect => session.withIdle fun s =>
    let (n, s) := s.collect
    (.number n, s)
  | .compact => session.withIdle fun s =>
    let (result, s) := s.compact
    (answer .store (fun _ => .done) result, s)
  | .validate => session.withIdle fun s =>
    (answer (fun c => .store (.corruption c)) (fun _ => .done) s.validate, s)
  | .latest read => session.ask fun s => readStore s s.current read
  | .read reader read => (session.read reader read, session)
  | .begin w => session.begin w
  | .commit w => session.commit w
  | .rollback w => session.rollback w
  | .write w change => session.write w change
  | .isActive name => session.ask fun _ =>
    if session.knows (.connection name) then
      .flag (session.transactionOf? (.connection name)).isSome
    else .failed .unknown
  | .openQuads name q inferred snapshot? => session.openQuads name q inferred snapshot?
  | .openRows name pattern bindings inferred snapshot =>
    session.openRows name pattern bindings inferred snapshot
  | .next name count => session.next name count
  | .close name => session.close name
  | .dropCursor name =>
    if session.store?.isNone then (.failed .closed, session)
    else (.flag (session.cursors.get? name).isSome, session.dropCursor name)

/-- The answers to some steps. -/
def run (session : Session) : List Step → List Answer
  | [] => []
  | step :: rest =>
    let (answer, session) := session.step step
    answer :: session.run rest

end Session
end QuadStore
