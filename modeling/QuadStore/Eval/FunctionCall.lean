import QuadStore.Algebra.GraphPattern
import QuadStore.Eval.Arithmetic
import QuadStore.Regex.Parser

/-!
# Function calls

What the built-in functions give for the values of their arguments. A function that an argument is
not fit for gives nothing.

The functions of two strings ask for compatible arguments: the second one has no language, or the
language of the first. The parts of a string keep its language.
-/

namespace QuadStore
namespace Function

/-- Whether a language tag is in a range of languages, without regard to case: `*` stands for all
tags, and any other range for the tag itself and those that go on with a hyphen. -/
def langMatches? (tag range : String) : Bool :=
  if range == "*" then tag != ""
  else
    let tag := tag.toList.map Char.toLower
    let range := range.toList.map Char.toLower
    match Text.dropHead? range tag with
    | some rest => rest.isEmpty || rest.head? == some '-'
    | none => false

/-- Two texts and the language of the first, if the arguments are compatible. -/
def compatible? (a b : Datum) : Option (String × String × Option String) := do
  let (s, language?) ← a.text?
  let (t, other?) ← b.text?
  if other?.isNone || language? == other? then some (s, t, language?) else none

/-- The parts of the first argument before and after the second one. -/
def cut? (a b : Datum) : Option (Option (String × String) × Option String) := do
  let (s, t, language?) ← compatible? a b
  some ((Text.cutFirst? t.toList s.toList).map fun (before, after) =>
    (String.ofList before, String.ofList after), language?)

/-- The language of a concatenation: the one that all parts have. -/
def commonLanguage? : List (Option String) → Option String
  | [] => none
  | first :: rest => if rest.all (· == first) then first else none

/-- How a regular expression is read under some flags. -/
def regexFlags? (flags : List Char) : Option Regex.Flags :=
  flags.foldlM (fun (f : Regex.Flags) c =>
    match c with
    | 's' => some { f with dotMatchesLineFeed := true }
    | 'm' => some { f with manyLines := true }
    | 'i' => some { f with anyCase := true }
    | 'x' => some { f with spacious := true }
    | 'q' => some f
    | _ => none) {}

/-- The regular expression of a pattern under some flags, of which `q` takes the pattern as it
stands. -/
def regex? (pattern flags : String) : Option Regex := do
  let pattern := if flags.toList.contains 'q' then Regex.escapeAll pattern else pattern
  Regex.parse? (← regexFlags? flags.toList) pattern

/-- Whether a text matches a pattern under some flags. -/
def matches? (text pattern : Datum) (flags : String) : Option Datum := do
  let (s, _) ← text.text?
  let r ← regex? (← pattern.string?) flags
  some (.ofBool (r.isMatch s))

/-- The value of a function of one argument. -/
def applyOne? (f : Function) (a : Datum) : Option Datum :=
  match f with
  | str =>
    match a.term with
    | .iri i => some (.ofString i.text)
    | .literal l => some (.ofString l.value)
    | .blank _ => none
  | lang => a.literal?.map fun l => .ofString (l.language?.getD "")
  | datatype => a.literal?.map fun l => .ofTerm (.iri ⟨l.datatype⟩)
  | isIri => some (.ofBool a.term.isIri)
  | isBlank => some (.ofBool a.term.isBlank)
  | isLiteral => some (.ofBool a.term.isLiteral)
  | isNumeric => some (.ofBool (a.value?.any Xsd.Value.isNumeric))
  | strLen =>
    a.text?.bind fun (s, _) => (Xsd.Integer.ofInt? s.length).map fun n => .ofValue (.integer n)
  | upperCase => a.text?.map fun (s, language?) => .ofText (Unicode.upperText s) language?
  | lowerCase => a.text?.map fun (s, language?) => .ofText (Unicode.lowerText s) language?
  | abs => (a.value?.bind Xsd.Value.abs?).map .ofValue
  | localName =>
    match a.term with
    | .iri i => some (.ofString i.localName)
    | _ => none
  | namespaceOf =>
    match a.term with
    | .iri i => some (.ofString i.space)
    | _ => none
  | _ => none

/-- The value of a function of two arguments. -/
def applyTwo? (f : Function) (a b : Datum) : Option Datum :=
  match f with
  | langMatches => do some (.ofBool (langMatches? (← a.string?) (← b.string?)))
  | regex => matches? a b ""
  | contains => (cut? a b).map fun (parts?, _) => .ofBool parts?.isSome
  | strStarts => (compatible? a b).map fun (s, t, _) =>
    .ofBool (Text.dropHead? t.toList s.toList).isSome
  | strEnds => (compatible? a b).map fun (s, t, _) =>
    .ofBool (Text.dropHead? t.toList.reverse s.toList.reverse).isSome
  | strBefore => (cut? a b).map fun (parts?, language?) =>
    match parts? with
    | some (before, _) => .ofText before language?
    | none => .ofString ""
  | strAfter => (cut? a b).map fun (parts?, language?) =>
    match parts? with
    | some (_, after) => .ofText after language?
    | none => .ofString ""
  | _ => none

/-- The concatenation of some texts. -/
def concat? (arguments : List Datum) : Option Datum := do
  let texts ← arguments.mapM Datum.text?
  some (.ofText (String.join (texts.map (·.1))) (commonLanguage? (texts.map (·.2))))

/-- The value of a function for some arguments, whose number is within its arity. -/
def evaluate? (f : Function) (arguments : List Datum) : Option Datum :=
  match f, arguments with
  | concat, arguments => concat? arguments
  | f, [a] => applyOne? f a
  | f, [a, b] => applyTwo? f a b
  | regex, [a, b, flags] => do matches? a b (← flags.string?)
  | _, _ => none

end Function
end QuadStore
