import QuadStore.Rdf.Term

/-!
# Quad patterns

What each position of a quad has to be: a given term, or a variable. The graph position may also
ask for the default graph or leave the graph open.
-/

namespace QuadStore

/-- A given term or a variable. -/
inductive Position (α : Type) where
  | given (a : α)
  | var (v : Variable)
deriving DecidableEq, Repr

/-- What the graph of a quad has to be. A variable stands for a named graph. -/
inductive GraphPosition where
  | any
  | default
  | given (name : Resource)
  | var (v : Variable)
deriving DecidableEq, Repr

/-- A pattern over the positions of a quad. -/
structure QuadPattern where
  subject : Position Term
  predicate : Position Iri
  object : Position Term
  graph : GraphPosition
deriving DecidableEq, Repr

namespace Position

/-- The variable, if the position holds one. -/
def var? {α : Type} : Position α → Option Variable
  | given _ => none
  | var v => some v

/-- The text of a position, a given term being written by `write`. -/
def text {α : Type} (write : α → String) : Position α → String
  | given a => write a
  | var v => v.text

end Position

namespace GraphPosition

/-- The variable, if the position holds one. -/
def var? : GraphPosition → Option Variable
  | var v => some v
  | _ => none

def text : GraphPosition → String
  | any => "ANY"
  | default => "DEFAULT"
  | given name => name.ntriples
  | var v => v.text

end GraphPosition

namespace QuadPattern

/-- The variables in the order of the positions, repeated ones too. -/
def vars (q : QuadPattern) : List Variable :=
  [q.subject.var?, q.predicate.var?, q.object.var?, q.graph.var?].filterMap id

/-- The texts of the four positions. -/
def parts (q : QuadPattern) : List String :=
  [q.subject.text Term.ntriples, q.predicate.text Iri.ntriples, q.object.text Term.ntriples,
    q.graph.text]

end QuadPattern
end QuadStore
