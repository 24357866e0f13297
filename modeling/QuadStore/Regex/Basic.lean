import QuadStore.Regex.CharSet

/-!
# Regular expressions

Expressions over characters and the question whether a text has a match. A match is looked for by
sets of positions: an expression leads from the places where it may begin to the places where it
may end, and the positions of a text being finite, a repetition comes to rest.
-/

namespace QuadStore

/-- What a place between two characters has to be. -/
inductive Look where
  | textStart
  | textEnd
  | lineStart
  | lineEnd
  | lineStartAfterReturn
  | lineEndBeforeReturn
  | wordEdge (isWord : Char → Bool)
  | wordInside (isWord : Char → Bool)
  | wordStart (isWord : Char → Bool)
  | wordEnd (isWord : Char → Bool)
  | wordStartHalf (isWord : Char → Bool)
  | wordEndHalf (isWord : Char → Bool)

/-- A regular expression. A repetition without a greatest number has no bound. -/
inductive Regex where
  | empty
  | set (s : CharSet)
  | look (l : Look)
  | concat (parts : List Regex)
  | alternation (choices : List Regex)
  | group (inner : Regex)
  | repetition (inner : Regex) (least : Nat) (most? : Option Nat)

namespace Look

/-- Whether a place of a text is as asked for. The lines of the first pair of kinds end with a line
feed; those of the second end with a carriage return, a line feed or both. -/
def holds (text : Array Char) (place : Nat) (l : Look) : Bool :=
  let before? := if place = 0 then none else text[place - 1]?
  let after? := text[place]?
  match l with
  | textStart => before?.isNone
  | textEnd => after?.isNone
  | lineStart => before?.all (· == '\n')
  | lineEnd => after?.all (· == '\n')
  | lineStartAfterReturn =>
    before?.all fun c => c == '\n' || (c == '\r' && after? != some '\n')
  | lineEndBeforeReturn =>
    after?.all fun c => c == '\r' || (c == '\n' && before? != some '\r')
  | wordEdge isWord => before?.any isWord != after?.any isWord
  | wordInside isWord => before?.any isWord == after?.any isWord
  | wordStart isWord => !before?.any isWord && after?.any isWord
  | wordEnd isWord => before?.any isWord && !after?.any isWord
  | wordStartHalf isWord => !before?.any isWord
  | wordEndHalf isWord => !after?.any isWord

end Look

namespace Regex

/-- The union of two ascending lists of places. -/
def mergePlaces : List Nat → List Nat → List Nat
  | [], qs => qs
  | p :: ps, [] => p :: ps
  | p :: ps, q :: qs =>
    if p < q then p :: mergePlaces ps (q :: qs)
    else if q < p then q :: mergePlaces (p :: ps) qs
    else p :: mergePlaces ps qs
termination_by ps qs => ps.length + qs.length

/-- Takes `n` steps, or fewer if there is no place left. -/
def stepTimes (step : List Nat → List Nat) : (n : Nat) → List Nat → List Nat
  | 0, places => places
  | n + 1, places => if places.isEmpty then [] else stepTimes step n (step places)

/-- All places reached within `n` steps from the newest ones, together with those seen before. -/
def reachWithin (step : List Nat → List Nat) : (n : Nat) → (seen newest : List Nat) → List Nat
  | 0, seen, _ => seen
  | n + 1, seen, newest =>
    let found := (step newest).filter fun p => !seen.contains p
    if found.isEmpty then seen else reachWithin step n (mergePlaces seen found) found

mutual

/-- The places where an expression may end if it begins at one of some places. -/
def advance (text : Array Char) : Regex → List Nat → List Nat
  | empty, places => places
  | set s, places => places.filterMap fun p =>
    if text[p]?.any s.contains then some (p + 1) else none
  | look l, places => places.filter fun p => l.holds text p
  | concat parts, places => advanceThrough text parts places
  | alternation choices, places => advanceAny text choices places
  | group inner, places => inner.advance text places
  | repetition inner least most?, places =>
    let step := fun ps => inner.advance text ps
    let start := stepTimes step least places
    match most? with
    | some most => reachWithin step (most - least) start start
    | none => reachWithin step (text.size + 1) start start

/-- The ends of some expressions one after the other. -/
def advanceThrough (text : Array Char) : List Regex → List Nat → List Nat
  | [], places => places
  | r :: rest, places => advanceThrough text rest (r.advance text places)

/-- The ends of any of some expressions. -/
def advanceAny (text : Array Char) : List Regex → List Nat → List Nat
  | [], _ => []
  | r :: rest, places => mergePlaces (r.advance text places) (advanceAny text rest places)

end

/-- Whether an expression matches somewhere in a text. -/
def isMatch (r : Regex) (text : String) : Bool :=
  let cs := text.toList.toArray
  !(r.advance cs (List.range (cs.size + 1))).isEmpty

mutual

/-- About how many bytes the automaton of an expression takes. -/
def weight : Regex → Nat
  | empty => 32
  | set s => s.weight
  | look _ => 32
  | concat parts => weightAll parts
  | alternation choices => 64 + weightAll choices
  | group inner => 64 + inner.weight
  | repetition inner least most? =>
    match most? with
    | some most => (least + (most - least)) * (inner.weight + 4) + (most - least) * 32
    | none => (max least 1) * inner.weight + 64

/-- The weight of some expressions together. -/
def weightAll : List Regex → Nat
  | [] => 0
  | r :: rest => r.weight + weightAll rest

end

mutual

/-- How deep an expression is nested. -/
def depth : Regex → Nat
  | empty | look _ => 0
  | set s => s.depth
  | concat parts | alternation parts => depthAll parts + 1
  | group inner | repetition inner _ _ => inner.depth + 1

/-- The greatest depth of some expressions. -/
def depthAll : List Regex → Nat
  | [] => 0
  | r :: rest => max r.depth (depthAll rest)

end

end Regex
end QuadStore
