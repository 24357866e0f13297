import QuadStore.Eval.Datum

/-!
# Arithmetic

Two numbers of different kinds are brought to the later one of their kinds in the order integer,
decimal, float, double; then they are compared, or combined by one of the four operations. An
operation on integers or decimals that leaves their range, and a division of them by zero, has no
result. The quotient of two integers is a decimal.
-/

namespace QuadStore
namespace Xsd

/-- Two numbers of one kind. -/
inductive NumberPair where
  | integer (a b : Integer)
  | decimal (a b : Decimal)
  | float (a b : Single)
  | double (a b : Double)

namespace NumberPair

/-- Two values brought to one kind of number, if both are numbers. -/
def ofValues? : Value → Value → Option NumberPair
  | .integer a, .integer b => some (integer a b)
  | .integer a, .decimal b => some (decimal (.ofInteger a) b)
  | .integer a, .float b => some (float (.ofInt a.value) b)
  | .integer a, .double b => some (double (.ofInt a.value) b)
  | .decimal a, .integer b => some (decimal a (.ofInteger b))
  | .decimal a, .decimal b => some (decimal a b)
  | .decimal a, .float b => some (float (.ofDecimal a) b)
  | .decimal a, .double b => some (double (.ofDecimal a) b)
  | .float a, .integer b => some (float a (.ofInt b.value))
  | .float a, .decimal b => some (float a (.ofDecimal b))
  | .float a, .float b => some (float a b)
  | .float a, .double b => some (double (.ofSingle a) b)
  | .double a, .integer b => some (double a (.ofInt b.value))
  | .double a, .decimal b => some (double a (.ofDecimal b))
  | .double a, .float b => some (double a (.ofSingle b))
  | .double a, .double b => some (double a b)
  | _, _ => none

/-- The numeric order; a NaN is not ordered with anything. -/
def order? : NumberPair → Option Ordering
  | integer a b => some (a.order b)
  | decimal a b => some (a.order b)
  | float a b => a.order? b
  | double a b => a.order? b

def add? : NumberPair → Option Value
  | integer a b => (a.add? b).map .integer
  | decimal a b => (a.add? b).map .decimal
  | float a b => some (.float (a.add b))
  | double a b => some (.double (a.add b))

def sub? : NumberPair → Option Value
  | integer a b => (a.sub? b).map .integer
  | decimal a b => (a.sub? b).map .decimal
  | float a b => some (.float (a.sub b))
  | double a b => some (.double (a.sub b))

def mul? : NumberPair → Option Value
  | integer a b => (a.mul? b).map .integer
  | decimal a b => (a.mul? b).map .decimal
  | float a b => some (.float (a.mul b))
  | double a b => some (.double (a.mul b))

def div? : NumberPair → Option Value
  | integer a b => ((Decimal.ofInteger a).div? (.ofInteger b)).map .decimal
  | decimal a b => (a.div? b).map .decimal
  | float a b => some (.float (a.div b))
  | double a b => some (.double (a.div b))

end NumberPair

namespace Value

/-- The opposite of a number. -/
def neg? : Value → Option Value
  | integer n => n.neg?.map integer
  | decimal d => d.neg?.map decimal
  | float x => some (float x.neg)
  | double x => some (double x.neg)
  | _ => none

/-- The absolute value of a number. -/
def abs? : Value → Option Value
  | integer n => n.abs?.map integer
  | decimal d => d.abs?.map decimal
  | float x => some (float x.abs)
  | double x => some (double x.abs)
  | _ => none

end Value
end Xsd

namespace Datum

/-- Two data that are both numbers, brought to one kind. -/
def numbers? (a b : Datum) : Option Xsd.NumberPair :=
  a.value?.bind fun v => b.value?.bind fun w => Xsd.NumberPair.ofValues? v w

/-- An operation on two numbers as an operation on data. -/
def arithmetic? (operation : Xsd.NumberPair → Option Xsd.Value) (a b : Datum) : Option Datum :=
  ((numbers? a b).bind operation).map ofValue

end Datum
end QuadStore
