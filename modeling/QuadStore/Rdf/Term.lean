import QuadStore.Rdf.Literal

/-!
# Terms and quads

What may stand in each of the four positions of a quad, the quads themselves, and their N-Triples
texts. All types are ordered by kind, in the order of the constructors, then by their parts.
-/

namespace QuadStore

/-- A blank node, which need not have a valid label. -/
structure BlankNode where
  label : String
deriving DecidableEq, Hashable, Repr, Inhabited, Ord

namespace BlankNode

/-- A blank node with a valid label. -/
def ofLabel? (label : String) : Option BlankNode :=
  if Name.isBlankNodeLabel label.toList then some ⟨label⟩ else none

/-- The N-Triples text. -/
def ntriples (node : BlankNode) : String := "_:" ++ node.label

end BlankNode

/-- A variable, which need not have a valid name. -/
structure Variable where
  name : String
deriving DecidableEq, Hashable, Repr, Inhabited

namespace Variable

/-- A variable with a valid name. -/
def ofName? (name : String) : Option Variable :=
  if Name.isVariableName name.toList then some ⟨name⟩ else none

/-- The text of a variable in a query. -/
def text (v : Variable) : String := "?" ++ v.name

end Variable

/-- A node that may be a subject. -/
inductive Resource where
  | iri (iri : Iri)
  | blank (node : BlankNode)
deriving DecidableEq, Hashable, Repr, Inhabited, Ord

/-- Any term. -/
inductive Term where
  | iri (iri : Iri)
  | blank (node : BlankNode)
  | literal (literal : Literal)
deriving DecidableEq, Hashable, Repr, Inhabited, Ord

/-- The name of a graph. -/
inductive GraphName where
  | iri (iri : Iri)
  | blank (node : BlankNode)
  | default
deriving DecidableEq, Hashable, Repr, Inhabited, Ord

/-- A statement in a graph. -/
structure Quad where
  subject : Resource
  predicate : Iri
  object : Term
  graph : GraphName
deriving DecidableEq, Hashable, Repr, Inhabited, Ord

/-- A narrower kind of term. -/
inductive TermKind where
  | resource
  | iri
deriving DecidableEq, Repr

/-- A term that is not of the kind asked for. -/
structure ConversionError where
  term : Term
  target : TermKind
deriving DecidableEq, Repr

namespace Resource

/-- A resource as a term. -/
def toTerm : Resource → Term
  | iri i => .iri i
  | blank b => .blank b

/-- A resource as the name of a graph. -/
def toGraphName : Resource → GraphName
  | iri i => .iri i
  | blank b => .blank b

def isIri : Resource → Bool
  | iri _ => true
  | blank _ => false

def isBlank : Resource → Bool
  | iri _ => false
  | blank _ => true

/-- The N-Triples text. -/
def ntriples : Resource → String
  | iri i => i.ntriples
  | blank b => b.ntriples

end Resource

namespace Term

def isIri : Term → Bool
  | iri _ => true
  | _ => false

def isBlank : Term → Bool
  | blank _ => true
  | _ => false

def isLiteral : Term → Bool
  | literal _ => true
  | _ => false

/-- The literal, if the term is one. -/
def literal? : Term → Option Literal
  | literal l => some l
  | _ => none

/-- The N-Triples text. -/
def ntriples : Term → String
  | iri i => i.ntriples
  | blank b => b.ntriples
  | literal l => l.ntriples

/-- The term as a resource, which a literal is not. -/
def toResource : Term → Except ConversionError Resource
  | iri i => .ok (.iri i)
  | blank b => .ok (.blank b)
  | literal l => .error ⟨literal l, .resource⟩

/-- The term as an IRI. -/
def toIri : Term → Except ConversionError Iri
  | iri i => .ok i
  | t => .error ⟨t, .iri⟩

end Term

namespace ConversionError

/-- What the error says. -/
def message (e : ConversionError) : String :=
  e.term.ntriples ++ " can not be converted to a " ++
    match e.target with
    | .resource => "NamedOrBlankNode"
    | .iri => "NamedNode"

end ConversionError

namespace GraphName

def isDefault : GraphName → Bool
  | default => true
  | _ => false

/-- The term that names the graph; the default graph has none. -/
def toTerm? : GraphName → Option Term
  | iri i => some (.iri i)
  | blank b => some (.blank b)
  | default => none

/-- The N-Triples text, and a word for the default graph. -/
def text : GraphName → String
  | iri i => i.ntriples
  | blank b => b.ntriples
  | default => "DEFAULT"

end GraphName

namespace Quad

/-- The N-Quads text without its final dot. -/
def text (q : Quad) : String :=
  let triple := q.subject.ntriples ++ " " ++ q.predicate.ntriples ++ " " ++ q.object.ntriples
  if q.graph.isDefault then triple else triple ++ " " ++ q.graph.text

end Quad

/-- What the error about a label says. -/
def BlankNode.invalidMessage : String := "The blank node identifier is invalid"

/-- What the error about a name says. -/
def Variable.invalidMessage : String := "The variable name is invalid"

end QuadStore
