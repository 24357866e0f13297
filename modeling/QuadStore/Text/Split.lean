/-!
# Cutting text

Positions and pieces of a text held as a list of characters: the cut after the last separator,
the first place where one text stands inside another, and the pieces between separators.
-/

namespace QuadStore
namespace Text

/-- Cuts a text after its last `c`, which stays at the end of the first part. -/
def splitAfterLast? (c : Char) : List Char → Option (List Char × List Char)
  | [] => none
  | x :: xs =>
    match splitAfterLast? c xs with
    | some (front, back) => some (x :: front, back)
    | none => if x = c then some ([x], xs) else none

/-- Drops `head` from the front of a text that starts with it. -/
def dropHead? : (head text : List Char) → Option (List Char)
  | [], text => some text
  | _ :: _, [] => none
  | c :: head, d :: text => if c = d then dropHead? head text else none

/-- What stands before and after the first occurrence of `needle`. -/
def cutFirst? (needle : List Char) : List Char → Option (List Char × List Char)
  | [] => if needle.isEmpty then some ([], []) else none
  | x :: xs =>
    match dropHead? needle (x :: xs) with
    | some after => some ([], after)
    | none => (cutFirst? needle xs).map fun (before, after) => (x :: before, after)

/-- The pieces between the occurrences of `separator`: one more than there are occurrences. -/
def splitAll (separator : Char) : List Char → List (List Char)
  | [] => [[]]
  | x :: xs =>
    if x = separator then [] :: splitAll separator xs
    else
      match splitAll separator xs with
      | piece :: rest => (x :: piece) :: rest
      | [] => [[x]]

/-- A text has at least one piece, the empty text included. -/
theorem splitAll_ne_nil (separator : Char) (text : List Char) : splitAll separator text ≠ [] := by
  induction text with
  | nil => simp [splitAll]
  | cons x xs ih =>
    simp only [splitAll]
    split
    · simp
    · split <;> simp_all

end Text
end QuadStore
