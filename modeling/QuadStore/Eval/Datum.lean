import QuadStore.Xsd.Value

/-!
# Data

What expressions compute with: a term together with the value of its literal. The value of a given
term is read off its literal; a computed value comes with its canonical literal. Two data are the
same if their terms are.

The truth value of a datum may be missing, as that of an expression that failed is. The connectives
do without a missing side where the other one decides.
-/

namespace QuadStore

/-- A term, and the value of its literal if it has one. -/
structure Datum where
  term : Term
  value? : Option Xsd.Value
deriving Repr

namespace Datum

/-- A given term. -/
def ofTerm (t : Term) : Datum := ⟨t, t.literal?.bind Xsd.Value.ofLiteral?⟩

/-- A computed value. -/
def ofValue (v : Xsd.Value) : Datum := ⟨.literal v.toLiteral, some v⟩

def ofBool (b : Bool) : Datum := ofValue (.boolean b)

/-- A text without a language. -/
def ofString (s : String) : Datum := ofTerm (.literal (.simple s))

/-- A text in the language, if one is given. -/
def ofText (s : String) (language? : Option String) : Datum :=
  match language? with
  | some language => ofTerm (.literal (.tagged s language))
  | none => ofString s

/-- The literal, if the term is one. -/
def literal? (d : Datum) : Option Literal := d.term.literal?

/-- Whether two data have the same term. -/
def same (a b : Datum) : Bool := a.term == b.term

/-- The text of a literal that has no datatype of its own and no language. -/
def string? (d : Datum) : Option String :=
  d.literal?.bind fun l => if l.datatype = Xsd.string then some l.value else none

/-- The text and the language of a literal that has no datatype of its own. -/
def text? (d : Datum) : Option (String × Option String) :=
  d.literal?.bind fun l =>
    if l.datatype = Xsd.string then some (l.value, none)
    else l.language?.map fun language => (l.value, some language)

/-- The truth value that stands for a datum in a condition. A number is true unless it is zero or
NaN, a string unless it is empty, and a malformed boolean or number is false; other data have no
truth value. -/
def truth? (d : Datum) : Option Bool :=
  match d.value? with
  | some (.boolean b) => some b
  | some (.integer n) => some (n.value != 0)
  | some (.decimal n) => some (n.units != 0)
  | some (.float x) => some x.isTrue
  | some (.double x) => some x.isTrue
  | some (.dateTime _) | some (.date _) | some (.time _) => none
  | none =>
    d.literal?.bind fun l =>
      if l.datatype = Xsd.string then some (l.value != "")
      else if l.datatype = Xsd.boolean ∨ Xsd.numericTypes.contains l.datatype then some false
      else none

end Datum

/-! ## Truth with errors -/

namespace Truth

/-- True if one side is, false if both are. -/
def or : (a b : Option Bool) → Option Bool
  | some true, _ => some true
  | some false, b => b
  | none, some true => some true
  | none, _ => none

/-- False if one side is, true if both are. -/
def and : (a b : Option Bool) → Option Bool
  | some false, _ => some false
  | some true, b => b
  | none, some false => some false
  | none, _ => none

/-- The opposite of a truth value. -/
def not (a : Option Bool) : Option Bool := a.map Bool.not

end Truth
end QuadStore
