import QuadStore.Bindings
import QuadStore.Eval.Fault
import QuadStore.Eval.Rows
import QuadStore.Store.Corruption

/-!
# Queries

A query is a pattern without faults and the values that are given for its variables. It has a
column for each variable in scope, and its rows depend on the dataset alone. An evaluation whose
deadline is over when its first row is asked for is cancelled.
-/

namespace QuadStore

/-- Why an evaluation stops. -/
inductive EvaluationError where
  | storage (c : Corruption)
  | cancelled
  | invalidPattern (fault : PatternFault)
deriving DecidableEq, Repr

/-- What the error says. -/
def EvaluationError.message : EvaluationError → String
  | storage c => c.message
  | cancelled => "The evaluation has been cancelled because its deadline was exceeded"
  | invalidPattern fault => "Invalid graph pattern: " ++ fault.message

/-- Whether the deadline of an evaluation is still ahead or has passed when it begins. -/
inductive Deadline where
  | ahead
  | passed
deriving DecidableEq, Repr

/-- The earlier one of two deadlines. -/
def Deadline.min : Deadline → Deadline → Deadline
  | ahead, ahead => ahead
  | _, _ => passed

/-- A pattern without faults, and the row that its evaluation begins with. -/
structure Query where
  pattern : GraphPattern
  start : Row
  accepted : pattern.fault? = none

namespace Query

/-- The values given for the variables in scope, the last one of each. -/
def startRow (columns : List Variable) (bindings : BindingSet) : Row :=
  bindings.toList.foldr (fun (v, t) row =>
    if columns.contains v then (row.bind? v (.ofTerm t)).getD row else row) .empty

/-- The query of a pattern with some values, unless the pattern has a fault. -/
def ofPattern (pattern : GraphPattern) (bindings : BindingSet) : Except EvaluationError Query :=
  match h : pattern.fault? with
  | some fault => .error (.invalidPattern fault)
  | none => .ok ⟨pattern, startRow pattern.columns bindings, h⟩

/-- The columns of the rows. -/
def columns (q : Query) : List Variable := q.pattern.columns

/-- The columns of a row of the evaluation. -/
def project (columns : List Variable) (row : Row) : BindingSet :=
  ⟨columns, columns.map fun v => (row.get? v).map (·.term)⟩

/-- The rows of the query. -/
def rows (q : Query) (dataset : Dataset) : List BindingSet :=
  (q.pattern.rows dataset q.start).map (project q.columns)

/-- What the pulls of an evaluation give, up to its end or its first error. -/
def pulls (q : Query) (dataset : Dataset) (deadline : Deadline) :
    List (Except EvaluationError BindingSet) :=
  match deadline with
  | .ahead => (q.rows dataset).map .ok
  | .passed => [.error .cancelled]

end Query
end QuadStore
