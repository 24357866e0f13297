import QuadStore.Eval.Comparison
import QuadStore.Eval.Dataset
import QuadStore.Eval.FunctionCall
import QuadStore.Eval.Row
import QuadStore.Eval.SortOrder

/-!
# Rows of a pattern

A pattern makes one row into the rows that extend it, in order. The right side of a join extends
each row of the left side, so that what the left side binds is fixed on the right. Expressions are
evaluated in a row; one that fails has no value.
-/

namespace QuadStore

/-! ## Quad patterns -/

namespace Position

/-- The term that a position has to be in a row; a variable without a value may be any. -/
def wanted? {α : Type} (row : Row) (toTerm : α → Term) : Position α → Option Term
  | given a => some (toTerm a)
  | var v => (row.get? v).map (·.term)

/-- Binds the variable of a position. -/
def bind? {α : Type} (row : Row) (p : Position α) (t : Term) : Option Row :=
  match p with
  | given _ => some row
  | var v => row.bind? v (.ofTerm t)

end Position

namespace GraphPosition

/-- What the graph has to be in a row. -/
def shape (row : Row) : GraphPosition → GraphShape
  | any => .any
  | default => .default
  | given name => .named name.toTerm
  | var v =>
    match row.get? v with
    | some d => .named d.term
    | none => .any

/-- Binds the variable of the position, which only stands for named graphs. -/
def bind? (row : Row) (p : GraphPosition) (g : GraphName) : Option Row :=
  match p with
  | var v => g.toTerm?.bind fun t => row.bind? v (.ofTerm t)
  | _ => some row

end GraphPosition

namespace QuadPattern

/-- The quads that the pattern may match in a row. -/
def shape (p : QuadPattern) (row : Row) : QuadShape :=
  ⟨p.subject.wanted? row id, p.predicate.wanted? row .iri, p.object.wanted? row id,
    p.graph.shape row⟩

/-- The row extended by a quad, unless a repeated variable would get two values. -/
def bind? (p : QuadPattern) (row : Row) (q : Quad) : Option Row := do
  let row ← p.subject.bind? row q.subject.toTerm
  let row ← p.predicate.bind? row (.iri q.predicate)
  let row ← p.object.bind? row q.object
  p.graph.bind? row q.graph

/-- The rows of the pattern, one for each quad that it matches. -/
def rows (dataset : Dataset) (p : QuadPattern) (row : Row) : List Row :=
  (dataset.matching (p.shape row)).filterMap (p.bind? row)

end QuadPattern

/-! ## Operations on rows -/

namespace Row

/-- The first rows of each class of equal ones, apart from those equal to one already seen. -/
def distinctFrom (seen : List Row) : List Row → List Row
  | [] => []
  | row :: rest =>
    if seen.any row.same then distinctFrom seen rest
    else row :: distinctFrom (row :: seen) rest

/-- The rows without repetitions. -/
def distinct (rows : List Row) : List Row := distinctFrom [] rows

/-- The order of two values of a sort key in a direction. -/
def keyOrder (direction : Direction) (a b : Option Datum) : Ordering :=
  match direction with
  | .ascending => Datum.keyOrder a b
  | .descending => Datum.keyOrder b a

/-- The order of two lists of values: by the first key, then by the next. -/
def keysOrder : List Direction → (a b : List (Option Datum)) → Ordering
  | direction :: directions, a :: as, b :: bs =>
    (keyOrder direction a b).then (keysOrder directions as bs)
  | _, _, _ => .eq

/-- The rows in the order of their keys; rows that are level stay as they were. -/
def sort (directions : List Direction) (keys : Row → List (Option Datum)) (rows : List Row) :
    List Row :=
  ((rows.map fun row => (keys row, row)).mergeSort fun a b =>
    keysOrder directions a.1 b.1 != .gt).map (·.2)

/-- The rows after the first `start`, at most `length?` of them. -/
def slice (start : Nat) (length? : Option Nat) (rows : List Row) : List Row :=
  let rest := rows.drop start
  match length? with
  | some n => rest.take n
  | none => rest

end Row

/-! ## Expressions -/

/-- Whether a datum equals one of some candidates. -/
def Datum.among? (d : Datum) : List (Option Datum) → Option Bool
  | [] => some false
  | c? :: rest => Truth.or (c?.bind d.equal?) (d.among? rest)

/-- The truth value of an expression from its value. -/
def Datum.truthOf? (d? : Option Datum) : Option Bool := d?.bind Datum.truth?

/-- An operator other than a connective on two values. -/
def BinaryOp.relate? (op : BinaryOp) (a b : Datum) : Option Datum :=
  let ordered (accept : Ordering → Bool) := (a.order? b).map fun o => Datum.ofBool (accept o)
  match op with
  | or | and => none
  | equal => (a.equal? b).map .ofBool
  | sameTerm => some (.ofBool (a.same b))
  | greater => ordered (· == .gt)
  | greaterOrEqual => ordered (· != .lt)
  | less => ordered (· == .lt)
  | lessOrEqual => ordered (· != .gt)
  | add => Datum.arithmetic? Xsd.NumberPair.add? a b
  | subtract => Datum.arithmetic? Xsd.NumberPair.sub? a b
  | multiply => Datum.arithmetic? Xsd.NumberPair.mul? a b
  | divide => Datum.arithmetic? Xsd.NumberPair.div? a b

/-- An operator on the values of two expressions, of which a connective may do without one. -/
def BinaryOp.combine? (op : BinaryOp) (a? b? : Option Datum) : Option Datum :=
  match op with
  | or => (Truth.or (Datum.truthOf? a?) (Datum.truthOf? b?)).map .ofBool
  | and => (Truth.and (Datum.truthOf? a?) (Datum.truthOf? b?)).map .ofBool
  | op => a?.bind fun a => b?.bind fun b => op.relate? a b

/-- An operator on one value. -/
def UnaryOp.of? (op : UnaryOp) (a : Datum) : Option Datum :=
  match op with
  | plus => if a.value?.any Xsd.Value.isNumeric then some a else none
  | minus => (a.value?.bind Xsd.Value.neg?).map .ofValue
  | not => (Truth.not a.truth?).map .ofBool

mutual

/-- The value of an expression in a row. -/
def Expression.eval (dataset : Dataset) : Expression → Row → Option Datum
  | .iri i, _ => some (.ofTerm (.iri i))
  | .literal l, _ => some (.ofTerm (.literal l))
  | .var v, row => row.get? v
  | .binary op a b, row => op.combine? (a.eval dataset row) (b.eval dataset row)
  | .oneOf needle candidates, row =>
    (needle.eval dataset row).bind fun d =>
      (d.among? (Expression.evalEach dataset candidates row)).map .ofBool
  | .unary op operand, row => (operand.eval dataset row).bind op.of?
  | .exists pattern, row => some (.ofBool !(pattern.rows dataset row).isEmpty)
  | .bound v, row => some (.ofBool (row.get? v).isSome)
  | .ifThenElse condition yes no, row =>
    match Datum.truthOf? (condition.eval dataset row) with
    | some true => yes.eval dataset row
    | some false => no.eval dataset row
    | none => none
  | .coalesce choices, row => (Expression.evalEach dataset choices row).findSome? id
  | .call function arguments, row =>
    ((Expression.evalEach dataset arguments row).mapM id).bind function.evaluate?

/-- The values of some expressions in a row. -/
def Expression.evalEach (dataset : Dataset) : List Expression → Row → List (Option Datum)
  | [], _ => []
  | e :: rest, row => e.eval dataset row :: Expression.evalEach dataset rest row

/-- The values of some sort keys in a row. -/
def Expression.evalKeys (dataset : Dataset) : List (Direction × Expression) → Row →
    List (Option Datum)
  | [], _ => []
  | (_, e) :: rest, row => e.eval dataset row :: Expression.evalKeys dataset rest row

/-- Whether a condition is true in a row; without a condition it is. -/
def Expression.allows (dataset : Dataset) : Option Expression → Row → Bool
  | none, _ => true
  | some condition, row => Datum.truthOf? (condition.eval dataset row) == some true

/-- The rows that extend a row by a pattern. -/
def GraphPattern.rows (dataset : Dataset) : GraphPattern → Row → List Row
  | .quad pattern, row => pattern.rows dataset row
  | .join left right, row => (left.rows dataset row).flatMap fun r => right.rows dataset r
  | .leftJoin left right condition?, row =>
    (left.rows dataset row).flatMap fun r =>
      match (right.rows dataset r).filter fun s => Expression.allows dataset condition? s with
      | [] => [r]
      | extended => extended
  | .filter condition inner, row =>
    (inner.rows dataset row).filter fun r =>
      Datum.truthOf? (condition.eval dataset r) == some true
  | .union left right, row => left.rows dataset row ++ right.rows dataset row
  | .extend inner v value, row =>
    (inner.rows dataset row).filterMap fun r => r.bindAny? v (value.eval dataset r)
  | .distinct inner, row => Row.distinct (inner.rows dataset row)
  | .orderBy inner keys, row =>
    Row.sort (keys.map (·.1)) (fun r => Expression.evalKeys dataset keys r)
      (inner.rows dataset row)
  | .slice inner start length?, row => Row.slice start length? (inner.rows dataset row)
  | .project inner vs, row =>
    (inner.rows dataset (row.restrict vs)).filterMap (row.extend? vs)

end

end QuadStore
