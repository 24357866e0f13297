import QuadStore.Store.Corruption

/-!
# Dictionaries

A dictionary numbers terms in the order in which they are first met, from one on; zero stands for
the default graph. Numbers are given once and for all: looking up gives none, and a term keeps the
number it has.
-/

namespace QuadStore

/-- The numbered terms, in the order of their numbers. -/
structure Dictionary where
  terms : List Term
  /-- Each term has one number. -/
  nodup : terms.Nodup
deriving DecidableEq, Repr

namespace Dictionary

/-- No terms. -/
def empty : Dictionary := ⟨[], List.nodup_nil⟩

/-- How many terms have a number. -/
def size (d : Dictionary) : Nat := d.terms.length

/-- The number of a term that has one. -/
def lookup? (d : Dictionary) (t : Term) : Option TermId :=
  (d.terms.idxOf? t).map fun i => ⟨i + 1⟩

/-- A term has no number if it is none of the numbered ones. -/
theorem lookup?_eq_none_iff {d : Dictionary} {t : Term} : d.lookup? t = none ↔ t ∉ d.terms := by
  rw [lookup?, Option.map_eq_none_iff, List.idxOf?_eq_none_iff]

/-- Adds a term that has no number. -/
def append (d : Dictionary) (t : Term) (h : t ∉ d.terms) : Dictionary :=
  ⟨d.terms ++ [t], List.nodup_append.2 ⟨d.nodup, by simp, by rintro a ha b hb rfl; simp_all⟩⟩

/-- The number of a term, which is given one if it has none. -/
def intern (d : Dictionary) (t : Term) : TermId × Dictionary :=
  match h : d.lookup? t with
  | some id => (id, d)
  | none => (⟨d.size + 1⟩, d.append t (lookup?_eq_none_iff.1 h))

/-- The term with a number. -/
def resolve (d : Dictionary) (id : TermId) : Except Corruption Term :=
  match id.number with
  | 0 => .error (.unknownTerm id)
  | n + 1 =>
    match d.terms[n]? with
    | some t => .ok t
    | none => .error (.unknownTerm id)

/-- The number of a graph that has one. -/
def lookupGraph? (d : Dictionary) (g : GraphName) : Option TermId :=
  match g.toTerm? with
  | some t => d.lookup? t
  | none => some .defaultGraph

/-- The number of a graph, whose name is given one if it has none. -/
def internGraph (d : Dictionary) (g : GraphName) : TermId × Dictionary :=
  match g.toTerm? with
  | some t => d.intern t
  | none => (.defaultGraph, d)

/-- The graph with a number. -/
def resolveGraph (d : Dictionary) (id : TermId) : Except Corruption GraphName :=
  if id = .defaultGraph then .ok .default
  else
    match d.resolve id with
    | .ok (.iri i) => .ok (.iri i)
    | .ok (.blank b) => .ok (.blank b)
    | .ok (.literal _) => .error (.literalGraph id)
    | .error c => .error c

/-- A quad by its numbers, if all its terms have one. -/
def lookupQuad? (d : Dictionary) (q : Quad) : Option EncodedQuad := do
  return ⟨← d.lookup? q.subject.toTerm, ← d.lookup? (.iri q.predicate), ← d.lookup? q.object,
    ← d.lookupGraph? q.graph⟩

/-- A quad by its numbers, given in the order of its parts. -/
def internQuad (d : Dictionary) (q : Quad) : EncodedQuad × Dictionary :=
  let (subject, d) := d.intern q.subject.toTerm
  let (predicate, d) := d.intern (.iri q.predicate)
  let (object, d) := d.intern q.object
  let (graph, d) := d.internGraph q.graph
  (⟨subject, predicate, object, graph⟩, d)

/-- The resource with a number. -/
def resolveResource (d : Dictionary) (id : TermId) : Except Corruption Resource := do
  match (← d.resolve id).toResource with
  | .ok r => return r
  | .error e => throw (.wrongKind e)

/-- The IRI with a number. -/
def resolveIri (d : Dictionary) (id : TermId) : Except Corruption Iri := do
  match (← d.resolve id).toIri with
  | .ok i => return i
  | .error e => throw (.wrongKind e)

/-- The quad with some numbers. -/
def resolveQuad (d : Dictionary) (q : EncodedQuad) : Except Corruption Quad := do
  return ⟨← d.resolveResource q.subject, ← d.resolveIri q.predicate, ← d.resolve q.object,
    ← d.resolveGraph q.graph⟩

end Dictionary
end QuadStore
