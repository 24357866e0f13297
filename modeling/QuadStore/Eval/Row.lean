import QuadStore.Eval.Datum

/-!
# Rows

What the variables are bound to at a point of an evaluation. A row only grows: a variable that has
a value keeps it, and binding it to another term fails.
-/

namespace QuadStore

/-- Variables with their values. -/
structure Row where
  entries : List (Variable × Datum)
  /-- Each variable stands once. -/
  nodup : (entries.map (·.1)).Nodup

namespace Row

/-- The row without values. -/
def empty : Row := ⟨[], List.nodup_nil⟩

/-- The value of a variable. -/
def get? (row : Row) (v : Variable) : Option Datum := row.entries.lookup v

/-- A variable without a value is none of those that have one. -/
theorem not_mem_of_get?_eq_none {row : Row} {v : Variable} (h : row.get? v = none) :
    v ∉ row.entries.map (·.1) := by
  intro hv
  obtain ⟨entry, he, rfl⟩ := List.mem_map.1 hv
  simpa using List.lookup_eq_none_iff.1 h entry he

/-- Adds a variable that has no value. -/
def add (row : Row) (v : Variable) (d : Datum) (h : row.get? v = none) : Row :=
  ⟨(v, d) :: row.entries, List.nodup_cons.2 ⟨not_mem_of_get?_eq_none h, row.nodup⟩⟩

/-- Gives a variable a value. A variable that has one has to have the same term. -/
def bind? (row : Row) (v : Variable) (d : Datum) : Option Row :=
  match h : row.get? v with
  | some old => if old.same d then some row else none
  | none => some (row.add v d h)

/-- Gives a variable a value, if there is one. -/
def bindAny? (row : Row) (v : Variable) (d? : Option Datum) : Option Row :=
  match d? with
  | some d => row.bind? v d
  | none => some row

/-- The values of some variables alone. -/
def restrict (row : Row) (vars : List Variable) : Row :=
  vars.foldl (fun r v => (r.bindAny? v (row.get? v)).getD r) empty

/-- The values that another row has for some variables, added to those of the row. -/
def extend? (row : Row) (vars : List Variable) (other : Row) : Option Row :=
  vars.foldlM (fun r v => r.bindAny? v (other.get? v)) row

/-- Whether two rows bind the same variables to the same terms. -/
def same (a b : Row) : Bool :=
  a.entries.length == b.entries.length &&
    a.entries.all fun (v, d) => (b.get? v).any d.same

end Row
end QuadStore
