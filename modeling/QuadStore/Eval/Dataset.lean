import QuadStore.Rdf.Term

/-!
# Datasets

What an evaluation reads: the quads of some shape, in the order of their insertion.
-/

namespace QuadStore

/-- What the graph of a quad has to be. -/
inductive GraphShape where
  | any
  | default
  | named (t : Term)
deriving DecidableEq, Repr

/-- The parts that a quad has to have; a missing part may be anything. -/
structure QuadShape where
  subject? : Option Term
  predicate? : Option Term
  object? : Option Term
  graph : GraphShape
deriving DecidableEq, Repr

/-- Whether the graph of a quad is as asked for. -/
def GraphShape.covers (shape : GraphShape) (g : GraphName) : Bool :=
  match shape with
  | any => true
  | default => g.isDefault
  | named t => g.toTerm? == some t

/-- Whether a quad has the parts asked for. -/
def QuadShape.covers (shape : QuadShape) (q : Quad) : Bool :=
  shape.subject?.all (· == q.subject.toTerm) && shape.predicate?.all (· == .iri q.predicate) &&
    shape.object?.all (· == q.object) && shape.graph.covers q.graph

/-- A way to look up the quads of a shape. -/
structure Dataset where
  matching : QuadShape → List Quad

/-- The dataset of some quads. -/
def Dataset.ofQuads (quads : List Quad) : Dataset := ⟨fun shape => quads.filter shape.covers⟩

end QuadStore
