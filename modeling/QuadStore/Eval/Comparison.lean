import QuadStore.Eval.Arithmetic

/-!
# Comparison

The operators `=` and `<` on data. Values are compared by what they stand for, across the kinds of
numbers. Literals without a value can only be compared if they are strings; equality of two
literals is open where the meaning of one of them is not known.
-/

namespace QuadStore

/-- The order of two values; values of different kinds, NaNs and some pairs of instants of which
only one has a time zone are not ordered. -/
def Xsd.Value.order? : Xsd.Value → Xsd.Value → Option Ordering
  | .boolean a, .boolean b => some (compare a b)
  | .dateTime a, .dateTime b => a.order? b
  | .date a, .date b => a.order? b
  | .time a, .time b => a.order? b
  | a, b => (Xsd.NumberPair.ofValues? a b).bind Xsd.NumberPair.order?

namespace Datum

/-- A literal whose meaning is known: a text, or a supported datatype with a valid lexical form. -/
def isKnownLiteral (d : Datum) : Bool :=
  d.value?.isSome || d.literal?.any Literal.isPlain

/-- The operator `=`. -/
def equal? (a b : Datum) : Option Bool :=
  match a.value?, b.value? with
  | some v, some w => some (v.order? w == some .eq)
  | _, _ =>
    if a.same b then some true
    else if a.literal?.isSome && b.literal?.isSome then
      if a.isKnownLiteral && b.isKnownLiteral then some false else none
    else some false

/-- The order behind the operators `<`, `<=`, `>` and `>=`. -/
def order? (a b : Datum) : Option Ordering :=
  match a.value?, b.value? with
  | some v, some w => v.order? w
  | _, _ => a.string?.bind fun s => b.string?.map fun t => compare s t

end Datum
end QuadStore
