import QuadStore.Rdf.Term

/-!
# Binding sets

A row of values under the names of its columns. A column may be without a value, and sets given as
two lists may repeat a name or have lists of different lengths: a variable is looked up at its
first column, values past the last name count but belong to no variable, and names past the last
value are unbound.
-/

namespace QuadStore

/-- Values under the names of their columns. -/
structure BindingSet where
  columns : List Variable
  values : List (Option Term)
deriving Repr

namespace BindingSet

/-- No columns. -/
def empty : BindingSet := ⟨[], []⟩

instance : Inhabited BindingSet := ⟨empty⟩

/-- The value of a column by its number. -/
def getAt? (b : BindingSet) (column : Nat) : Option Term := b.values[column]?.join

/-- The value of a variable. -/
def get? (b : BindingSet) (v : Variable) : Option Term :=
  (b.columns.idxOf? v).bind b.getAt?

def contains (b : BindingSet) (v : Variable) : Bool := (b.get? v).isSome

/-- The number of values. -/
def size (b : BindingSet) : Nat := b.values.countP Option.isSome

/-- Whether no column has a value. -/
def isEmpty (b : BindingSet) : Bool := b.values.all Option.isNone

/-- The columns that have a name and a value. -/
def toList (b : BindingSet) : List (Variable × Term) :=
  (b.columns.zip b.values).filterMap fun (v, value?) => value?.map (v, ·)

/-- Two sets agree if no variable has two values. -/
def isCompatible (a b : BindingSet) : Bool :=
  a.toList.all fun (v, t) => (b.get? v).all (· == t)

/-- As many values, and each column of the first with the same value in the second. -/
def same (a b : BindingSet) : Bool :=
  a.size == b.size && a.toList.all fun (v, t) => b.get? v == some t

/-- Sets the value of a variable in its column, or in a new one. -/
def set (b : BindingSet) (v : Variable) (t : Term) : BindingSet :=
  match b.columns.idxOf? v with
  | some column => ⟨b.columns, b.values.set column (some t)⟩
  | none => ⟨b.columns ++ [v], b.values ++ [some t]⟩

/-- Removes the column of a variable. -/
def erase (b : BindingSet) (v : Variable) : BindingSet :=
  match b.columns.idxOf? v with
  | some column => ⟨b.columns.eraseIdx column, b.values.eraseIdx column⟩
  | none => b

/-- The set of some values, the last one of each variable. -/
def ofList (pairs : List (Variable × Term)) : BindingSet :=
  pairs.foldl (fun b (v, t) => b.set v t) empty

/-- The values of two sets together, if they agree. Columns without a value are dropped. -/
def merge? (a b : BindingSet) : Option BindingSet :=
  if a.isCompatible b then
    some <| b.toList.foldl (fun r (v, t) => if a.contains v then r else r.set v t) (ofList a.toList)
  else none

/-- The text of a set. -/
def text (b : BindingSet) : String :=
  "\x7b" ++ ", ".intercalate (b.toList.map fun (v, t) => v.text ++ " = " ++ t.ntriples) ++ "\x7d"

end BindingSet
end QuadStore
