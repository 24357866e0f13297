import QuadStore.Text.Quoted
import QuadStore.Rdf.Iri
import QuadStore.Rdf.LanguageTag
import QuadStore.Rdf.Vocabulary

/-!
# Literals

A literal is a text alone, a text in a language, or the lexical form of a value of a datatype.
The third kind never has the datatype `xsd:string`: such a literal is the text alone, which
`Literal.ofTyped` gives in its place.
-/

namespace QuadStore

/-- A literal, in the order of its kinds. -/
inductive Literal where
  | simple (value : String)
  | tagged (value language : String)
  | typed (value : String) (datatype : Iri) (own : datatype.text ≠ Xsd.string)
deriving DecidableEq, Hashable, Repr, Inhabited, Ord

namespace Literal

/-- A lexical form with its datatype; of `xsd:string` it is the simple literal. -/
def ofTyped (value : String) (datatype : Iri) : Literal :=
  if own : datatype.text ≠ Xsd.string then typed value datatype own else simple value

/-- A text in a language, whose tag is put in lower case; `none` if the tag is malformed. -/
def ofTagged? (value language : String) : Option Literal :=
  let tag := String.ofList (language.toList.map Char.toLower)
  if LanguageTag.isWellFormed tag then some (tagged value tag) else none

/-- The literal of a truth value. -/
def ofBool (b : Bool) : Literal := typed (if b then "true" else "false") ⟨Xsd.boolean⟩ (by decide)

/-- The literal of a whole number. -/
def ofInt (n : Int) : Literal := typed (toString n) ⟨Xsd.integer⟩ (by decide)

/-- The text or lexical form. -/
def value : Literal → String
  | simple v => v
  | tagged v _ => v
  | typed v _ _ => v

/-- The language, if there is one. -/
def language? : Literal → Option String
  | tagged _ l => some l
  | _ => none

/-- The datatype by its IRI. -/
def datatype : Literal → String
  | simple _ => Xsd.string
  | tagged _ _ => Rdf.langString
  | typed _ d _ => d.text

/-- The datatype of a literal that is not plain. -/
def ownDatatype? : Literal → Option Iri
  | typed _ d _ => some d
  | _ => none

/-- A text alone or in a language. -/
def isPlain : Literal → Bool
  | typed _ _ _ => false
  | _ => true

/-- The N-Triples text. -/
def ntriples : Literal → String
  | simple v => Text.quote v
  | tagged v l => Text.quote v ++ "@" ++ l
  | typed v d _ => Text.quote v ++ "^^" ++ d.ntriples

end Literal
end QuadStore
