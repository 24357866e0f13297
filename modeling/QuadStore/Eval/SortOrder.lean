import QuadStore.Eval.Comparison

/-!
# Sort order

The total order that rows are sorted by: nothing, then blank nodes, IRIs and literals. Literals
come by family (texts, numbers, points of the calendar, others), numbers by their value whatever
their datatype, and malformed ones after the values of their family or datatype. Literals that are
still level go by datatype and text, so that only equal terms are level in the end.
-/

namespace QuadStore

/-- The families of literals, in their order. -/
inductive LiteralFamily where
  | plain
  | numeric
  | calendar
  | other
deriving DecidableEq, Ord, Repr

/-- The family of a datatype. -/
def LiteralFamily.ofDatatype (datatype : String) : LiteralFamily :=
  if datatype = Xsd.string ∨ datatype = Rdf.langString then plain
  else if Xsd.numericTypes.contains datatype then numeric
  else if Xsd.calendarTypes.contains datatype then calendar
  else other

/-- An order in which what is missing comes first. -/
def missingFirst {α : Type} (order : α → α → Ordering) : Option α → Option α → Ordering
  | some a, some b => order a b
  | some _, none => .gt
  | none, some _ => .lt
  | none, none => .eq

/-- An order in which what is missing comes last. -/
def missingLast {α : Type} (order : α → α → Ordering) : Option α → Option α → Ordering
  | some a, some b => order a b
  | some _, none => .lt
  | none, some _ => .gt
  | none, none => .eq

namespace Xsd

/-- Where a number is sorted: the nearest double, and the exact value if it has one. -/
structure NumberKey where
  approximation : Double
  decimal? : Option Decimal

namespace NumberKey

/-- The key of a number. -/
def ofValue? : Value → Option NumberKey
  | .integer n => some ⟨.ofInt n.value, some (.ofInteger n)⟩
  | .decimal d => some ⟨.ofDecimal d, some d⟩
  | .float x => some ⟨.ofSingle x, none⟩
  | .double x => some ⟨x, none⟩
  | _ => none

/-- By approximation, NaNs included; then exact values by their value, before inexact ones. -/
def order (a b : NumberKey) : Ordering :=
  (compare (BinaryFormat.binary64.totalKey a.approximation.bits.toNat)
    (BinaryFormat.binary64.totalKey b.approximation.bits.toNat)).then
    (missingLast Decimal.order a.decimal? b.decimal?)

end NumberKey

/-- Instants without a time zone come before those with one. -/
def Instant.sortOrder (a b : Instant) : Ordering :=
  (compare a.offset?.isSome b.offset?.isSome).then ((a.order? b).getD .eq)

/-- The order of values of one kind. -/
def Value.sortOrder : Value → Value → Ordering
  | .boolean a, .boolean b => compare a b
  | .dateTime a, .dateTime b => a.sortOrder b
  | .date a, .date b => a.sortOrder b
  | .time a, .time b => a.sortOrder b
  | _, _ => .eq

end Xsd

namespace Datum

/-- The order of two literals of one family, by what they stand for. -/
def familyOrder (family : LiteralFamily) (a b : Literal) (v? w? : Option Xsd.Value) : Ordering :=
  match family with
  | .plain => missingFirst compare a.language? b.language?
  | .numeric =>
    missingLast Xsd.NumberKey.order (v?.bind Xsd.NumberKey.ofValue?)
      (w?.bind Xsd.NumberKey.ofValue?)
  | .calendar | .other =>
    (compare a.datatype b.datatype).then (missingLast Xsd.Value.sortOrder v? w?)

/-- The order of two literals with their values. -/
def literalOrder (a b : Literal) (v? w? : Option Xsd.Value) : Ordering :=
  let family := LiteralFamily.ofDatatype a.datatype
  ((compare family (.ofDatatype b.datatype)).then (familyOrder family a b v? w?)).then
    ((compare a.datatype b.datatype).then (compare a.value b.value))

/-- The order of two data. -/
def sortOrder (a b : Datum) : Ordering :=
  match a.term, b.term with
  | .blank m, .blank n => compare m.label n.label
  | .blank _, _ => .lt
  | _, .blank _ => .gt
  | .iri i, .iri j => compare i.text j.text
  | .iri _, _ => .lt
  | _, .iri _ => .gt
  | .literal l, .literal m => literalOrder l m a.value? b.value?

/-- The order of two sort keys, of which either may be missing. -/
def keyOrder : Option Datum → Option Datum → Ordering := missingFirst sortOrder

end Datum
end QuadStore
