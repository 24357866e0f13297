/-!
# Encoded quads

Terms by their numbers, quads of such numbers, and the four roles that a term plays in a quad.
-/

namespace QuadStore

/-- The number of a term in a dictionary. -/
structure TermId where
  number : Nat
deriving DecidableEq, Hashable, Repr, Inhabited

/-- The number that stands for the default graph and is never given to a term. -/
def TermId.defaultGraph : TermId := ⟨0⟩

/-- The short text of a term's number. -/
def TermId.text (id : TermId) : String := "#" ++ toString id.number

/-- The long text of a term's number. -/
def TermId.longText (id : TermId) : String := "TermId(" ++ toString id.number ++ ")"

/-- A quad by the numbers of its terms. -/
structure EncodedQuad where
  subject : TermId
  predicate : TermId
  object : TermId
  graph : TermId
deriving DecidableEq, Hashable, Repr, Inhabited

/-- The part that a term plays in a quad. -/
inductive Role where
  | subject
  | predicate
  | object
  | graph
deriving DecidableEq, Hashable, Repr

/-- All roles, in the order of the parts of a quad. -/
def Role.all : List Role := [.subject, .predicate, .object, .graph]

/-- The name of a role. -/
def Role.name : Role → String
  | subject => "subject"
  | predicate => "predicate"
  | object => "object"
  | graph => "graph"

namespace EncodedQuad

/-- The term that plays a role. -/
def part (q : EncodedQuad) : Role → TermId
  | .subject => q.subject
  | .predicate => q.predicate
  | .object => q.object
  | .graph => q.graph

/-- The text of an encoded quad. -/
def text (q : EncodedQuad) : String :=
  "EncodedQuad \x7b subject: " ++ q.subject.longText ++ ", predicate: " ++ q.predicate.longText ++
    ", object: " ++ q.object.longText ++ ", graph_name: " ++ q.graph.longText ++ " \x7d"

end EncodedQuad

/-- The parts that an encoded quad has to have; a missing part may be anything. -/
structure EncodedShape where
  subject? : Option TermId := none
  predicate? : Option TermId := none
  object? : Option TermId := none
  graph? : Option TermId := none
deriving DecidableEq, Repr

namespace EncodedShape

/-- The term asked for in a role. -/
def part? (shape : EncodedShape) : Role → Option TermId
  | .subject => shape.subject?
  | .predicate => shape.predicate?
  | .object => shape.object?
  | .graph => shape.graph?

/-- Whether a quad has the parts asked for. -/
def covers (shape : EncodedShape) (q : EncodedQuad) : Bool :=
  Role.all.all fun role => (shape.part? role).all (· == q.part role)

end EncodedShape
end QuadStore
