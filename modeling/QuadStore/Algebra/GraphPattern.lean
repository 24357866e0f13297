import QuadStore.Algebra.QuadPattern

/-!
# Graph patterns and expressions

The trees of the query algebra. Graph patterns hold expressions (conditions, computed values, sort
keys), and an expression may ask whether a graph pattern has a solution.
-/

namespace QuadStore

/-- The operators between two expressions. -/
inductive BinaryOp where
  | or
  | and
  | equal
  | sameTerm
  | greater
  | greaterOrEqual
  | less
  | lessOrEqual
  | add
  | subtract
  | multiply
  | divide
deriving DecidableEq, Repr

/-- The operators on one expression. -/
inductive UnaryOp where
  | plus
  | minus
  | not
deriving DecidableEq, Repr

/-- The built-in functions. -/
inductive Function where
  | str
  | lang
  | langMatches
  | datatype
  | isIri
  | isBlank
  | isLiteral
  | isNumeric
  | regex
  | strLen
  | upperCase
  | lowerCase
  | contains
  | strStarts
  | strEnds
  | strBefore
  | strAfter
  | concat
  | abs
  | localName
  | namespaceOf
deriving DecidableEq, Repr

/-- The two ways to sort by a key. -/
inductive Direction where
  | ascending
  | descending
deriving DecidableEq, Repr

mutual

/-- An expression over the variables of a row. -/
inductive Expression where
  | iri (iri : Iri)
  | literal (literal : Literal)
  | var (v : Variable)
  | binary (op : BinaryOp) (left right : Expression)
  | oneOf (needle : Expression) (candidates : List Expression)
  | unary (op : UnaryOp) (operand : Expression)
  | exists (pattern : GraphPattern)
  | bound (v : Variable)
  | ifThenElse (condition yes no : Expression)
  | coalesce (choices : List Expression)
  | call (function : Function) (arguments : List Expression)

/-- A pattern whose solutions are rows. -/
inductive GraphPattern where
  | quad (pattern : QuadPattern)
  | join (left right : GraphPattern)
  | leftJoin (left right : GraphPattern) (condition? : Option Expression)
  | filter (condition : Expression) (inner : GraphPattern)
  | union (left right : GraphPattern)
  | extend (inner : GraphPattern) (v : Variable) (value : Expression)
  | distinct (inner : GraphPattern)
  | orderBy (inner : GraphPattern) (keys : List (Direction × Expression))
  | slice (inner : GraphPattern) (start : Nat) (length? : Option Nat)
  | project (inner : GraphPattern) (vars : List Variable)

end

namespace Function

/-- All functions. -/
def all : List Function :=
  [str, lang, langMatches, datatype, isIri, isBlank, isLiteral, isNumeric, regex, strLen,
   upperCase, lowerCase, contains, strStarts, strEnds, strBefore, strAfter, concat, abs, localName,
   namespaceOf]

/-- The name of a function in a query. -/
def name : Function → String
  | str => "STR"
  | lang => "LANG"
  | langMatches => "LANGMATCHES"
  | datatype => "DATATYPE"
  | isIri => "isIRI"
  | isBlank => "isBLANK"
  | isLiteral => "isLITERAL"
  | isNumeric => "isNUMERIC"
  | regex => "REGEX"
  | strLen => "STRLEN"
  | upperCase => "UCASE"
  | lowerCase => "LCASE"
  | contains => "CONTAINS"
  | strStarts => "STRSTARTS"
  | strEnds => "STRENDS"
  | strBefore => "STRBEFORE"
  | strAfter => "STRAFTER"
  | concat => "CONCAT"
  | abs => "ABS"
  | localName => "LOCALNAME"
  | namespaceOf => "NAMESPACE"

/-- The function of a name. -/
def ofName? (name : String) : Option Function := all.find? (·.name == name)

/-- The least and the greatest number of arguments; a concatenation takes any that a word of the
machine counts. -/
def arity : Function → Nat × Nat
  | langMatches | contains | strStarts | strEnds | strBefore | strAfter => (2, 2)
  | regex => (2, 3)
  | concat => (0, 0xFFFFFFFFFFFFFFFF)
  | _ => (1, 1)

end Function

namespace GraphPattern

/-- The variables in scope at the top of a pattern, in the order of their mention and as often as
they are mentioned. A projection shows its own variables only. -/
def inScope : GraphPattern → List Variable
  | quad pattern => pattern.vars
  | join left right | leftJoin left right _ | union left right => left.inScope ++ right.inScope
  | filter _ inner | distinct inner | orderBy inner _ | slice inner _ _ => inner.inScope
  | extend inner v _ => inner.inScope ++ [v]
  | project _ vs => vs

/-- The distinct variables in scope, in the order of their first mention. -/
def columns (p : GraphPattern) : List Variable :=
  p.inScope.foldl (fun seen v => if seen.contains v then seen else seen ++ [v]) []

end GraphPattern
end QuadStore
