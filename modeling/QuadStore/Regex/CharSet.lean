import QuadStore.Unicode.Case
import QuadStore.Unicode.Script

/-!
# Sets of characters

The sets that a regular expression writes in brackets or with a backslash: characters, ranges,
properties, and what the set operations and a match in any case make of them.
-/

namespace QuadStore

/-- A set of characters. -/
inductive CharSet where
  | char (c : Char)
  | range (low high : Char)
  | table (contains : Char → Bool) (runs : Nat)
  | bracket (inner : CharSet)
  | union (parts : List CharSet)
  | inter (a b : CharSet)
  | diff (a b : CharSet)
  | symDiff (a b : CharSet)
  | complement (s : CharSet)
  | anyCase (variants : Char → List Char) (s : CharSet)

namespace CharSet

mutual

/-- Whether a character is in a set. -/
def contains : CharSet → Char → Bool
  | char d, c => c == d
  | range low high, c => low ≤ c && c ≤ high
  | table p _, c => p c
  | bracket s, c => s.contains c
  | union parts, c => anyContains parts c
  | inter a b, c => a.contains c && b.contains c
  | diff a b, c => a.contains c && !b.contains c
  | symDiff a b, c => a.contains c != b.contains c
  | complement s, c => !s.contains c
  | anyCase variants s, c => (variants c).any fun d => s.contains d

/-- Whether a character is in one of some sets. -/
def anyContains : List CharSet → Char → Bool
  | [], _ => false
  | s :: rest, c => s.contains c || anyContains rest c

end

mutual

/-- About how many bytes an automaton takes to recognise a character of a set in UTF-8. -/
def weight : CharSet → Nat
  | char c => 32 * c.utf8Size
  | range _ high => if high.toNat < 0x80 then 72 else 132
  | table _ runs => 64 + 62 * runs
  | bracket s => s.weight
  | union parts => weightAll parts
  | inter a b | diff a b | symDiff a b => a.weight + b.weight
  | complement s => s.weight + 960
  | anyCase _ s => s.weight + 16

/-- The weight of some sets together. -/
def weightAll : List CharSet → Nat
  | [] => 0
  | s :: rest => s.weight + weightAll rest

end

mutual

/-- How deep the brackets and operations of a set are nested. Parts side by side are one level of
their own if there are two or more. -/
def depth : CharSet → Nat
  | char _ | range _ _ | table _ _ => 0
  | bracket s => s.depth + 1
  | union parts => depthAll parts + if parts.length ≤ 1 then 0 else 1
  | inter a b | diff a b | symDiff a b => max a.depth b.depth + 1
  | complement s | anyCase _ s => s.depth

/-- The greatest depth of some sets. -/
def depthAll : List CharSet → Nat
  | [] => 0
  | s :: rest => max s.depth (depthAll rest)

end

/-- The characters with another case within ASCII. -/
def asciiVariants (c : Char) : List Char :=
  if c.isAlpha then [c.toLower, c.toUpper] else [c]

/-- The letters, digits and the underscore of ASCII. -/
def isAsciiWord (c : Char) : Bool := c.isAlphanum || c == '_'

/-- The sets written as `[:name:]`, all within ASCII. -/
def asciiNamed? (name : String) : Option CharSet :=
  match name with
  | "alnum" => some (union [range '0' '9', range 'A' 'Z', range 'a' 'z'])
  | "alpha" => some (union [range 'A' 'Z', range 'a' 'z'])
  | "ascii" => some (range '\x00' '\x7f')
  | "blank" => some (union [char '\t', char ' '])
  | "cntrl" => some (union [range '\x00' '\x1f', char '\x7f'])
  | "digit" => some (range '0' '9')
  | "graph" => some (range '!' '~')
  | "lower" => some (range 'a' 'z')
  | "print" => some (range ' ' '~')
  | "punct" => some (union [range '!' '/', range ':' '@', range '[' '\x60', range '\x7b' '~'])
  | "space" => some (union [range '\t' '\r', char ' '])
  | "upper" => some (range 'A' 'Z')
  | "word" => some (union [range '0' '9', range 'A' 'Z', range 'a' 'z', char '_'])
  | "xdigit" => some (union [range '0' '9', range 'A' 'F', range 'a' 'f'])
  | _ => none

/-- The set of `\d`, `\s` or `\w`, of all characters or within ASCII. -/
def classOf? (letter : Char) (unicode : Bool) : Option CharSet :=
  match letter, unicode with
  | 'd', true => some (table Unicode.isDecimal 80)
  | 's', true => some (table Unicode.isWhiteSpace 10)
  | 'w', true => some (table Unicode.isWord 802)
  | 'd', false => asciiNamed? "digit"
  | 's', false => asciiNamed? "space"
  | 'w', false => asciiNamed? "word"
  | _, _ => none

/-- The number of runs in a table with one of some marks. -/
def markedRuns (marks : Array String) (wanted : List String) : Nat :=
  marks.toList.countP wanted.contains

/-- A name in lower case, without separators, characters outside ASCII and a leading `is`. -/
def plainName (name : String) : String :=
  let cs := name.toList.map Char.toLower
  let (isPrefixed, cs) :=
    match cs with
    | 'i' :: 's' :: rest => (true, rest)
    | cs => (false, cs)
  let kept := cs.filter fun c => c.toNat < 0x80 && c != ' ' && c != '_' && c != '-'
  if isPrefixed && kept == ['c'] then "isc" else String.ofList kept

/-- A group of general categories. -/
def categoryNamed? (name : String) : Option CharSet :=
  match name with
  | "any" => some (range '\x00' (Char.ofNat 0x10FFFF))
  | "ascii" => some (range '\x00' '\x7f')
  | "assigned" => some (table (fun c => Unicode.category c != "Cn") 730)
  | _ =>
    (Unicode.categoriesNamed? name).map fun categories =>
      table (fun c => categories.contains (Unicode.category c))
        (markedRuns Unicode.categoryTable.marks categories)

/-- The characters of a script. -/
def scriptNamed? (name : String) : Option CharSet :=
  (Unicode.scriptNamed? name).map fun code =>
    table (fun c => Unicode.script c == code) (markedRuns Unicode.scriptTable.marks [code])

/-- A property, a group of categories or a script by its name. The short names of three categories
win over properties of the same name. -/
def named? (name : String) : Option CharSet :=
  let name := plainName name
  let property? :=
    if ["cf", "sc", "lc"].contains name then none
    else (Unicode.propertyNamed? name).map fun p => table p 300
  (property? <|> categoryNamed? name) <|> scriptNamed? name

/-- The characters with a value of the category or of the script. -/
def valued? (name value : String) : Option CharSet :=
  match plainName name with
  | "gc" | "generalcategory" => categoryNamed? (plainName value)
  | "sc" | "script" | "scx" | "scriptextensions" => scriptNamed? (plainName value)
  | _ => none

end CharSet
end QuadStore
