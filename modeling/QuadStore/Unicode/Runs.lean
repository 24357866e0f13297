/-!
# Run-length tables

Properties of characters are written down as runs, from code point 0 on. In a marked table each
run has a mark and a length (`Cc32 Zs1` is 32 controls and a space); in a plain one the lengths of
the runs outside and inside of a set take turns, beginning outside.
-/

namespace QuadStore
namespace Unicode

/-- Counts the bounds up to `n` among sorted bounds, between the places `low` and `high`. -/
def countUpTo (bounds : Array Nat) (n low high : Nat) : Nat :=
  if h : low < high then
    let middle := (low + high) / 2
    if bounds[middle]?.any (· ≤ n) then countUpTo bounds n (middle + 1) high
    else countUpTo bounds n low middle
  else low
termination_by high - low

/-- The running sums of some lengths. -/
def runningSums (lengths : List Nat) : Array Nat :=
  (lengths.foldl (fun (sum, sums) n => (sum + n, sums.push (sum + n))) (0, #[])).2

/-- A set of code points by the places where it begins and ends. -/
structure CodePoints where
  bounds : Array Nat

namespace CodePoints

/-- The set written as lengths. -/
def ofRows (rows : List String) : CodePoints :=
  ⟨runningSums ((rows.flatMap (·.splitOn " ")).map fun run => run.toNat?.getD 0)⟩

/-- A code point is inside after an odd number of bounds. -/
def contains (s : CodePoints) (c : Char) : Bool :=
  countUpTo s.bounds c.toNat 0 s.bounds.size % 2 == 1

/-- The number of stretches of code points. -/
def runs (s : CodePoints) : Nat := s.bounds.size / 2

end CodePoints

/-- A mark for each code point, by runs. -/
structure Marks where
  ends : Array Nat
  marks : Array String

namespace Marks

/-- The table written as marks with lengths. -/
def ofRows (rows : List String) : Marks :=
  let runs := (rows.flatMap (·.splitOn " ")).map fun run =>
    (String.ofList (run.toList.filter Char.isAlpha),
      (String.ofList (run.toList.filter Char.isDigit)).toNat?.getD 0)
  ⟨runningSums (runs.map (·.2)), (runs.map (·.1)).toArray⟩

/-- The mark of a code point. -/
def get (t : Marks) (c : Char) : String :=
  t.marks[countUpTo t.ends c.toNat 0 t.ends.size]?.getD ""

end Marks
end Unicode
end QuadStore
