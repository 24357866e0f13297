import QuadStore.Rdf.Iri.Syntax

/-!
# IRIs

An IRI is its text. Its local name starts after the last `#`, else after the last slash, else
after the last colon; what stands before is its namespace. Two IRIs are equal, and ordered, by
their whole text.
-/

namespace QuadStore

/-- An IRI, which need not be valid. -/
structure Iri where
  text : String
deriving DecidableEq, Hashable, Repr, Inhabited, Ord

namespace Iri

/-- An absolute IRI. -/
def parse? (text : String) : Option Iri :=
  if IriSyntax.isAbsolute text.toList then some ⟨text⟩ else none

/-- A namespace and a local name put together, if they make an absolute IRI. -/
def ofParts? (space localName : String) : Option Iri := parse? (space ++ localName)

/-- The namespace and the local name of a text. -/
def splitName (cs : List Char) : List Char × List Char :=
  ((Text.splitAfterLast? '#' cs <|> Text.splitAfterLast? '/' cs) <|>
    Text.splitAfterLast? ':' cs).getD ([], cs)

/-- What stands before the local name. -/
def space (iri : Iri) : String := String.ofList (splitName iri.text.toList).1

/-- What stands after the last separator. -/
def localName (iri : Iri) : String := String.ofList (splitName iri.text.toList).2

/-- The N-Triples text. -/
def ntriples (iri : Iri) : String := "<" ++ iri.text ++ ">"

end Iri
end QuadStore
