import QuadStore.Store.Corruption
import QuadStore.Store.Namespaces

/-!
# Records

A committed transaction is kept as a record: the number of its snapshot, how many operations it
has, and the operations. Numbers are written with their highest byte first, and a text is its
length in four bytes, then its bytes in UTF-8. `Record.encode?` writes a record, unless a length
needs more than four bytes, and `Record.decode` reads exactly one.
-/

namespace QuadStore

/-- What a transaction has done. -/
inductive Operation where
  | insert (quad : Quad) (explicit : Bool)
  | remove (quad : Quad) (explicit : Bool)
  | changeNamespaces (change : NamespaceChange)
deriving DecidableEq, Repr

/-- What a transaction has done, and the snapshot that shows it. -/
structure Record where
  snapshot : Nat
  operations : List Operation
deriving DecidableEq, Repr

/-! ## Numbers and texts -/

namespace Bytes

/-- The lowest `width` bytes of a number, the highest of them first. -/
def ofNat : (width : Nat) → (n : Nat) → Bytes
  | 0, _ => []
  | width + 1, n => ofNat width (n / 256) ++ [UInt8.ofNat n]

/-- The number with some bytes, the highest of them first. -/
def toNat (bytes : Bytes) : Nat := bytes.foldl (fun n b => 256 * n + b.toNat) 0

/-- A length in four bytes, if it fits. -/
def ofLength? (n : Nat) : Option Bytes := if n < 0x100000000 then some (ofNat 4 n) else none

/-- A text with its length before it, if that fits. -/
def ofText? (s : String) : Option Bytes := do
  let bytes := Utf8.encode s
  return (← ofLength? bytes.length) ++ bytes

end Bytes

/-- Reads a value from the front of some bytes and gives back the rest. -/
abbrev ByteReader (α : Type) := StateT Bytes (Except Corruption) α

namespace ByteReader

/-- Some bytes. -/
def bytes (n : Nat) : ByteReader Bytes := fun input =>
  if n ≤ input.length then .ok (input.splitAt n) else .error .truncatedRecord

/-- A number of some bytes. -/
def nat (width : Nat) : ByteReader Nat := return (← bytes width).toNat

/-- A truth value in one byte. -/
def bool : ByteReader Bool := do
  match ← nat 1 with
  | 0 => return false
  | 1 => return true
  | byte => throw (.invalidBoolean byte)

/-- A text with its length before it. -/
def text : ByteReader String := do
  match Utf8.decode (← bytes (← nat 4)) with
  | .ok s => return s
  | .error fault => throw (.invalidText fault)

end ByteReader

/-! ## Terms and quads -/

/-- The code of the default graph, where a term might stand. -/
def defaultGraphCode : UInt8 := 0

/-- A term: the code of its kind, then its texts. -/
def Term.encode? : Term → Option Bytes
  | .iri i => do return 1 :: (← Bytes.ofText? i.text)
  | .blank b => do return 8 :: (← Bytes.ofText? b.label)
  | .literal (.simple v) => do return 16 :: (← Bytes.ofText? v)
  | .literal (.tagged v l) => do return 20 :: ((← Bytes.ofText? v) ++ (← Bytes.ofText? l))
  | .literal (.typed v d _) => do return 24 :: ((← Bytes.ofText? v) ++ (← Bytes.ofText? d.text))

/-- The name of a graph: that of a term, or a code alone. -/
def GraphName.encode? (g : GraphName) : Option Bytes :=
  match g.toTerm? with
  | some t => t.encode?
  | none => some [defaultGraphCode]

/-- The four parts of a quad, in their order. -/
def Quad.encode? (q : Quad) : Option Bytes := do
  return (← q.subject.toTerm.encode?) ++ (← (Term.iri q.predicate).encode?) ++
    (← q.object.encode?) ++ (← q.graph.encode?)

namespace ByteReader

/-- A term, or the default graph. -/
def term? : ByteReader (Option Term) := do
  match ← nat 1 with
  | 0 => return none
  | 1 => return some (.iri ⟨← text⟩)
  | 8 => return some (.blank ⟨← text⟩)
  | 16 => return some (.literal (.simple (← text)))
  | 20 =>
    let value ← text
    return some (.literal (.tagged value (← text)))
  | 24 =>
    let value ← text
    return some (.literal (.ofTyped value ⟨← text⟩))
  | code => throw (.unknownTermKind code)

/-- A term that is not the default graph. -/
def term : ByteReader Term := do
  match ← term? with
  | some t => return t
  | none => throw .defaultGraphAsTerm

/-- A resource from a term. -/
def asResource (t : Term) : ByteReader Resource :=
  match t.toResource with
  | .ok r => return r
  | .error e => throw (.wrongKind e)

/-- An IRI from a term. -/
def asIri (t : Term) : ByteReader Iri :=
  match t.toIri with
  | .ok i => return i
  | .error e => throw (.wrongKind e)

/-- A quad. -/
def quad : ByteReader Quad := do
  let subject ← asResource (← term)
  let predicate ← asIri (← term)
  let object ← term
  match ← term? with
  | none => return ⟨subject, predicate, object, .default⟩
  | some g => return ⟨subject, predicate, object, (← asResource g).toGraphName⟩

end ByteReader

/-! ## Operations and records -/

/-- The byte of a truth value. -/
def Bytes.ofBool (b : Bool) : UInt8 := if b then 1 else 0

/-- An operation: the code of its kind, then its parts. -/
def Operation.encode? : Operation → Option Bytes
  | insert q explicit => do return 1 :: Bytes.ofBool explicit :: (← q.encode?)
  | remove q explicit => do return 2 :: Bytes.ofBool explicit :: (← q.encode?)
  | changeNamespaces (.set label space) => do
    return 3 :: ((← Bytes.ofText? label) ++ (← Bytes.ofText? space))
  | changeNamespaces (.remove label) => do return 4 :: (← Bytes.ofText? label)
  | changeNamespaces .clear => some [5]

namespace ByteReader

/-- An operation. -/
def operation : ByteReader Operation := do
  match ← nat 1 with
  | 1 =>
    let explicit ← bool
    return .insert (← quad) explicit
  | 2 =>
    let explicit ← bool
    return .remove (← quad) explicit
  | 3 =>
    let label ← text
    return .changeNamespaces (.set label (← text))
  | 4 => return .changeNamespaces (.remove (← text))
  | 5 => return .changeNamespaces .clear
  | code => throw (.unknownOperation code)

/-- Some operations. -/
def operations : Nat → ByteReader (List Operation)
  | 0 => return []
  | n + 1 => do
    let first ← operation
    return first :: (← operations n)

/-- A record. -/
def record : ByteReader Record := do
  let snapshot ← nat 8
  return ⟨snapshot, ← operations (← nat 4)⟩

end ByteReader

namespace Record

/-- The bytes of a record, unless a length does not fit. -/
def encode? (r : Record) : Option Bytes := do
  let count ← Bytes.ofLength? r.operations.length
  let operations ← r.operations.mapM Operation.encode?
  return Bytes.ofNat 8 r.snapshot ++ count ++ operations.flatten

/-- The record with exactly these bytes. -/
def decode (bytes : Bytes) : Except Corruption Record := do
  let (record, rest) ← ByteReader.record.run bytes
  if rest.isEmpty then return record else throw (.unreadBytes rest.length)

end Record
end QuadStore
