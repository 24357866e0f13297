import QuadStore.Store.Plan

/-!
# Interners

An interner is a dictionary by two tables, one from terms to numbers and one back, and a counter
for the next number. With each term it keeps the value of its literal, which is read once, when the
term gets its number.
-/

namespace QuadStore

/-- The numbers of terms, the terms with their values by their numbers, and the next number. -/
structure Interner where
  next : Nat
  numbers : Table Term TermId
  cells : Table TermId Cell

namespace Interner

/-- No terms. Zero is no term's number. -/
def empty : Interner := ⟨1, .empty, .empty⟩

/-- How many terms have a number. -/
def size (i : Interner) : Nat := i.cells.size

/-- The number of a term that has one. -/
def lookup? (i : Interner) (t : Term) : Option TermId := i.numbers.get? t

/-- Gives the next number to a term. -/
def add (i : Interner) (t : Term) : TermId × Interner :=
  let id : TermId := ⟨i.next⟩
  (id, ⟨i.next + 1, i.numbers.set t id, i.cells.set id ⟨.ofTerm t, some id⟩⟩)

/-- The number of a term, which is given one if it has none. -/
def intern (i : Interner) (t : Term) : TermId × Interner :=
  match i.lookup? t with
  | some id => (id, i)
  | none => i.add t

/-- The term with its value and its number, if it has one. -/
def get? (i : Interner) (t : Term) : Option Cell := (i.lookup? t).bind i.cells.get?

/-- The term with a number, with its value. -/
def resolve (i : Interner) (id : TermId) : Except Corruption Cell :=
  match i.cells.get? id with
  | some c => .ok c
  | none => .error (.unknownTerm id)

/-- The term with a number. -/
def term (i : Interner) (id : TermId) : Except Corruption Term :=
  (i.resolve id).map (·.datum.term)

/-- The number of a graph that has one. -/
def lookupGraph? (i : Interner) (g : GraphName) : Option TermId :=
  match g.toTerm? with
  | some t => i.lookup? t
  | none => some .defaultGraph

/-- The number of a graph, whose name is given one if it has none. -/
def internGraph (i : Interner) (g : GraphName) : TermId × Interner :=
  match g.toTerm? with
  | some t => i.intern t
  | none => (.defaultGraph, i)

/-- The graph with a number. -/
def resolveGraph (i : Interner) (id : TermId) : Except Corruption GraphName :=
  if id = .defaultGraph then .ok .default
  else
    match i.term id with
    | .ok (.iri name) => .ok (.iri name)
    | .ok (.blank b) => .ok (.blank b)
    | .ok (.literal _) => .error (.literalGraph id)
    | .error c => .error c

/-- A quad by its numbers, if all its terms have one. -/
def lookupQuad? (i : Interner) (q : Quad) : Option EncodedQuad := do
  return ⟨← i.lookup? q.subject.toTerm, ← i.lookup? (.iri q.predicate), ← i.lookup? q.object,
    ← i.lookupGraph? q.graph⟩

/-- A quad by its numbers, given in the order of its parts. -/
def internQuad (i : Interner) (q : Quad) : EncodedQuad × Interner :=
  let (subject, i) := i.intern q.subject.toTerm
  let (predicate, i) := i.intern (.iri q.predicate)
  let (object, i) := i.intern q.object
  let (graph, i) := i.internGraph q.graph
  (⟨subject, predicate, object, graph⟩, i)

/-- The quad with some numbers. Its subject and its predicate have to be of the right kind. -/
def resolveQuad (i : Interner) (q : EncodedQuad) : Except Corruption Quad := do
  let subject ← (← i.term q.subject).toResource.mapError .wrongKind
  let predicate ← (← i.term q.predicate).toIri.mapError .wrongKind
  let object ← i.term q.object
  return ⟨subject, predicate, object, ← i.resolveGraph q.graph⟩

/-- Gives numbers to the terms of some quads, one quad after the other. -/
def learn (i : Interner) (quads : List Quad) : Interner :=
  quads.foldl (fun i q => (i.internQuad q).2) i

end Interner
end QuadStore
