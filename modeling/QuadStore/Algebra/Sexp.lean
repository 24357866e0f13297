import QuadStore.Algebra.GraphPattern

/-!
# S-expressions of the algebra

A tree of the algebra is written as an S-expression: an atom, or a list between parentheses with
one space between its items.
-/

namespace QuadStore

/-- An S-expression. -/
inductive Sexp where
  | atom (text : String)
  | list (items : List Sexp)

namespace Sexp

mutual

/-- The text of an S-expression. -/
def text : Sexp → String
  | atom t => t
  | list items => "(" ++ itemsText items ++ ")"

/-- The texts of the items with a space between them. -/
def itemsText : List Sexp → String
  | [] => ""
  | [item] => item.text
  | item :: rest => item.text ++ " " ++ itemsText rest

end

/-- A list that starts with a word. -/
def form (head : String) (items : List Sexp) : Sexp := list (atom head :: items)

end Sexp

/-- The word of an operator. -/
def BinaryOp.word : BinaryOp → String
  | or => "||"
  | and => "&&"
  | equal => "="
  | sameTerm => "sameTerm"
  | greater => ">"
  | greaterOrEqual => ">="
  | less => "<"
  | lessOrEqual => "<="
  | add => "+"
  | subtract => "-"
  | multiply => "*"
  | divide => "/"

/-- The word of an operator. -/
def UnaryOp.word : UnaryOp → String
  | plus => "+"
  | minus => "-"
  | not => "!"

/-- The word of a direction. -/
def Direction.word : Direction → String
  | ascending => "asc"
  | descending => "desc"

/-- A pattern that leaves the graph open is a triple. -/
def QuadPattern.toSexp (q : QuadPattern) : Sexp :=
  let triple := [q.subject.text Term.ntriples, q.predicate.text Iri.ntriples,
    q.object.text Term.ntriples].map Sexp.atom
  match q.graph with
  | .any => .form "triple" triple
  | g => .form "quad" (.atom g.text :: triple)

mutual

def Expression.toSexp : Expression → Sexp
  | .iri i => .atom i.ntriples
  | .literal l => .atom l.ntriples
  | .var v => .atom v.text
  | .binary op a b => .form op.word [a.toSexp, b.toSexp]
  | .oneOf a list => .form "in" (a.toSexp :: Expression.listToSexps list)
  | .unary op e => .form op.word [e.toSexp]
  | .exists p => .form "exists" [p.toSexp]
  | .bound v => .form "bound" [.atom v.text]
  | .ifThenElse a b c => .form "if" [a.toSexp, b.toSexp, c.toSexp]
  | .coalesce list => .form "coalesce" (Expression.listToSexps list)
  | .call f list => .form f.name (Expression.listToSexps list)

def Expression.listToSexps : List Expression → List Sexp
  | [] => []
  | e :: rest => e.toSexp :: Expression.listToSexps rest

def Expression.optionToSexps : Option Expression → List Sexp
  | none => []
  | some e => [e.toSexp]

def Expression.keysToSexps : List (Direction × Expression) → List Sexp
  | [] => []
  | (d, e) :: rest => .form d.word [e.toSexp] :: Expression.keysToSexps rest

def GraphPattern.toSexp : GraphPattern → Sexp
  | .quad q => q.toSexp
  | .join l r => .form "join" [l.toSexp, r.toSexp]
  | .leftJoin l r condition =>
    .form "leftjoin" (l.toSexp :: r.toSexp :: Expression.optionToSexps condition)
  | .filter condition inner => .form "filter" [condition.toSexp, inner.toSexp]
  | .union l r => .form "union" [l.toSexp, r.toSexp]
  | .extend inner v e =>
    .form "extend" [.list [.list [.atom v.text, e.toSexp]], inner.toSexp]
  | .distinct inner => .form "distinct" [inner.toSexp]
  | .orderBy inner keys => .form "order" [.list (Expression.keysToSexps keys), inner.toSexp]
  | .slice inner start length =>
    .form "slice" [.atom (toString start), .atom (length.elim "_" toString), inner.toSexp]
  | .project inner vs =>
    .form "project" [.list (vs.map fun v => .atom v.text), inner.toSexp]

end

/-- The S-expression of a sort key. -/
def Expression.keyToSexp (key : Direction × Expression) : Sexp :=
  .form key.1.word [key.2.toSexp]

end QuadStore
