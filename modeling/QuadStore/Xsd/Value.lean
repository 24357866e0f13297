import QuadStore.Rdf.Term
import QuadStore.Xsd.Calendar
import QuadStore.Xsd.Floating

/-!
# Values of literals

A literal of a supported datatype with a valid lexical form has a value, and each value has one
canonical literal. The datatypes derived from `xsd:integer` share its values, and
`xsd:dateTimeStamp` those of `xsd:dateTime`.
-/

namespace QuadStore
namespace Xsd

/-- The value of a literal. -/
inductive Value where
  | boolean (b : Bool)
  | integer (n : Integer)
  | decimal (d : Decimal)
  | float (x : Single)
  | double (x : Double)
  | dateTime (t : Instant)
  | date (t : Instant)
  | time (t : Instant)
deriving DecidableEq, Repr

/-- A lexical form of `xsd:boolean`. -/
def parseBoolean? (text : String) : Option Bool :=
  if text = "true" ∨ text = "1" then some true
  else if text = "false" ∨ text = "0" then some false
  else none

namespace Value

/-- The value of a lexical form of a datatype. -/
def parse? (text datatype : String) : Option Value :=
  if datatype = Xsd.boolean then (parseBoolean? text).map boolean
  else if integerTypes.contains datatype then (Integer.parse? text).map integer
  else if datatype = Xsd.decimal then (Decimal.parse? text).map decimal
  else if datatype = Xsd.float then (Single.parse? text).map float
  else if datatype = Xsd.double then (Double.parse? text).map double
  else if datatype = Xsd.dateTime ∨ datatype = Xsd.dateTimeStamp then
    (Calendar.parseDateTime? text).map dateTime
  else if datatype = Xsd.date then (Calendar.parseDate? text).map date
  else if datatype = Xsd.time then (Calendar.parseTime? text).map time
  else none

/-- The value of a literal, if its datatype is supported and its lexical form is valid. -/
def ofLiteral? (l : Literal) : Option Value := parse? l.value l.datatype

/-- A value of one of the four kinds of numbers. -/
def isNumeric : Value → Bool
  | integer _ | decimal _ | float _ | double _ => true
  | _ => false

/-- The canonical lexical form. -/
def text : Value → String
  | boolean b => if b then "true" else "false"
  | integer n => n.text
  | decimal d => d.text
  | float x => x.text
  | double x => x.text
  | dateTime t => t.dateTimeText
  | date t => t.dateText
  | time t => t.timeText

/-- The datatype of the canonical literal. -/
def datatype : Value → String
  | boolean _ => Xsd.boolean
  | integer _ => Xsd.integer
  | decimal _ => Xsd.decimal
  | float _ => Xsd.float
  | double _ => Xsd.double
  | dateTime _ => Xsd.dateTime
  | date _ => Xsd.date
  | time _ => Xsd.time

/-- The canonical literal. -/
def toLiteral (v : Value) : Literal := .ofTyped v.text ⟨v.datatype⟩

end Value
end Xsd

/-- The literal of a floating point number. -/
def Literal.ofDouble (x : Xsd.Double) : Literal := .typed x.text ⟨Xsd.double⟩ (by decide)

end QuadStore
