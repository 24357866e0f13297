import QuadStore.Store.Corruption
import QuadStore.Store.Snapshots
import QuadStore.Store.Table

/-!
# The index of entries

An entry is one version of a quad: it is visible from the snapshot that added it up to the one that
removed it. The index holds all entries in the order of their insertion and, for each term in each
of its roles, the list of the entries where it plays this role. A look-up reads the shortest list
that can answer it; `Index.validate` checks that the lists agree with the entries.
-/

namespace QuadStore

/-- The number of an entry. -/
structure EntryId where
  number : Nat
deriving DecidableEq, Repr, Inhabited

/-- A version of a quad, visible at the snapshots from `since` on and before `till`. -/
structure Entry where
  id : EntryId
  quad : EncodedQuad
  explicit : Bool
  since : Nat
  till : Nat
deriving DecidableEq, Repr

namespace Entry

/-- Whether the entry has been taken back before it was ever committed. -/
def isAborted (e : Entry) : Bool := e.since == Stamp.never

/-- Whether the entry is visible at a snapshot. -/
def isVisible (e : Entry) (s : Nat) : Bool := e.since ≤ s && s < e.till

end Entry

/-- The entries in the order of their insertion, and where each term occurs among them. -/
structure Index where
  entries : List Entry
  occurrences : Table (Role × TermId) (List EntryId)
  nextId : Nat
deriving DecidableEq

namespace Index

/-- No entries. -/
def empty : Index := ⟨[], .empty, 0⟩

/-- The entry with a number. -/
def get? (index : Index) (id : EntryId) : Option Entry := index.entries.find? (·.id == id)

/-- The entries where a term plays a role. -/
def listOf (index : Index) (role : Role) (t : TermId) : List EntryId :=
  (index.occurrences.get? (role, t)).getD []

/-- Notes an entry in the list of the term that plays a role in it. -/
def note (q : EncodedQuad) (id : EntryId) (lists : Table (Role × TermId) (List EntryId))
    (role : Role) : Table (Role × TermId) (List EntryId) :=
  lists.set (role, q.part role) ((lists.get? (role, q.part role)).getD [] ++ [id])

/-- Adds an entry that is not removed. -/
def insert (index : Index) (quad : EncodedQuad) (explicit : Bool) (since : Nat) :
    EntryId × Index :=
  let id : EntryId := ⟨index.nextId⟩
  (id, ⟨index.entries ++ [⟨id, quad, explicit, since, Stamp.never⟩],
    Role.all.foldl (note quad id) index.occurrences, index.nextId + 1⟩)

/-- Changes the entry with a number. -/
def modify (index : Index) (id : EntryId) (f : Entry → Entry) : Index :=
  { index with entries := index.entries.map fun e => if e.id = id then f e else e }

/-- Sets the snapshot that added an entry. -/
def setSince (index : Index) (id : EntryId) (s : Nat) : Index :=
  index.modify id fun e => { e with since := s }

/-- Sets the snapshot that removed an entry. -/
def setTill (index : Index) (id : EntryId) (s : Nat) : Index :=
  index.modify id fun e => { e with till := s }

/-- Deletes some entries. A term that occurs in none of the others loses its list. -/
def removeAll (index : Index) (dead : List EntryId) : Index :=
  { index with
    entries := index.entries.filter fun e => !dead.contains e.id
    occurrences := index.occurrences.filterMap fun ids =>
      match ids.filter fun id => !dead.contains id with
      | [] => none
      | kept => some kept }

/-! ## Looking up -/

/-- The roles in the order in which their lists are tried. -/
def searchOrder : List Role := [.subject, .object, .graph, .predicate]

/-- The shorter one of two lists, the first of equally long ones. -/
def shorter (best? : Option (List EntryId)) (ids : List EntryId) : List EntryId :=
  match best? with
  | some best => if ids.length < best.length then ids else best
  | none => ids

/-- The shortest list of a term asked for, from some roles on; `some []` if one of the terms does
not occur. -/
def bestList (index : Index) (shape : EncodedShape) (best? : Option (List EntryId)) :
    List Role → Option (List EntryId)
  | [] => best?
  | role :: rest =>
    match shape.part? role with
    | none => index.bestList shape best? rest
    | some t =>
      match index.occurrences.get? (role, t) with
      | none => some []
      | some ids => index.bestList shape (some (shorter best? ids)) rest

/-- The entries among which those of a shape are. -/
def candidates (index : Index) (shape : EncodedShape) : List EntryId :=
  (index.bestList shape none searchOrder).getD (index.entries.map (·.id))

/-- A look-up under way: what it looks for, and the entries it has still to look at. -/
structure Scan where
  shape : EncodedShape
  stamp : Nat
  inferred : Bool
  rest : List EntryId
deriving DecidableEq, Repr

/-- Begins to look up the entries of a shape that are visible at a snapshot, without the inferred
ones if so asked. -/
def scan (index : Index) (shape : EncodedShape) (stamp : Nat) (inferred : Bool) : Scan :=
  ⟨shape, stamp, inferred, index.candidates shape⟩

/-- Whether an entry is looked for. -/
def Scan.accepts (scan : Scan) (e : Entry) : Bool :=
  (scan.inferred || e.explicit) && scan.shape.covers e.quad && e.isVisible scan.stamp

/-- The next entry that is looked for, and the entries after it. -/
def nextAmong (index : Index) (scan : Scan) : List EntryId → Option (Entry × List EntryId)
  | [] => none
  | id :: rest =>
    match index.get? id with
    | some e => if scan.accepts e then some (e, rest) else index.nextAmong scan rest
    | none => index.nextAmong scan rest

/-- The next entry of a look-up. -/
def next? (index : Index) (scan : Scan) : Option (Entry × Scan) :=
  (index.nextAmong scan scan.rest).map fun (e, rest) => (e, { scan with rest := rest })

/-- All entries of a look-up. -/
def found (index : Index) (scan : Scan) : List Entry :=
  (scan.rest.filterMap index.get?).filter scan.accepts

/-- The entries of a shape that are visible at a snapshot. -/
def search (index : Index) (shape : EncodedShape) (stamp : Nat) (inferred : Bool) : List Entry :=
  index.found (index.scan shape stamp inferred)

/-! ## Validation -/

/-- Complains unless a condition holds. -/
def require (holds : Bool) (complaint : Corruption) : Except Corruption Unit :=
  if holds then .ok () else .error complaint

/-- Checks that an entry, which follows some others, is sound and in the lists of its terms. -/
def checkEntry (index : Index) (before : List Entry) (e : Entry) : Except Corruption Unit := do
  require (before.all fun other => other.id != e.id) (.listedTwice e.quad)
  require (e.since == Stamp.never || e.till == Stamp.never || e.since < e.till)
    (.removedBeforeAdded e.quad e.till e.since)
  Role.all.forM fun role =>
    require ((index.listOf role (e.quad.part role)).contains e.id) (.missingFromIndex e.quad role)

/-- Checks the list of a term in a role. -/
def checkList (index : Index) (role : Role) (t : TermId) (ids : List EntryId) :
    Except Corruption Unit := do
  require (!ids.isEmpty) (.emptyList role t)
  ids.forM fun id => require (index.get? id).isSome (.unknownEntry role)

/-- Checks the lists of all terms in a role. -/
def checkRole (index : Index) (role : Role) : Except Corruption Unit := do
  let lists := index.occurrences.entries.filter (·.1.1 == role)
  lists.forM fun (key, ids) => index.checkList role key.2 ids
  let count := lists.foldl (fun n list => n + list.2.length) 0
  require (count == index.entries.length) (.wrongCount role count index.entries.length)

/-- Checks that the lists agree with the entries. -/
def validate (index : Index) : Except Corruption Unit := do
  index.entries.zipIdx.forM fun (e, i) => index.checkEntry (index.entries.take i) e
  Role.all.forM index.checkRole

end Index
end QuadStore
