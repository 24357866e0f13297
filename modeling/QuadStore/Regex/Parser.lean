import QuadStore.Regex.Basic
import QuadStore.Text.Split
import QuadStore.Text.Digits

/-!
# Reading regular expressions

The written form of regular expressions: characters, escapes, sets in brackets with set
operations, groups, alternatives, repetitions and flags. An expression whose automaton would be
too large, or that is nested too deeply, is refused like a malformed one.

A reader takes the characters left and gives back what it read and what is left after it. Readers
that call one another carry fuel, for which the number of characters left is enough.
-/

namespace QuadStore
namespace Regex

/-- How the characters of an expression are read. -/
structure Flags where
  anyCase : Bool := false
  manyLines : Bool := false
  dotMatchesLineFeed : Bool := false
  spacious : Bool := false
  carriageReturn : Bool := false
  unicode : Bool := true
deriving DecidableEq, Repr

/-- What one character or escape stands for. -/
inductive Primitive where
  | literal (c : Char)
  | set (s : CharSet)
  | look (l : Look)

/-- The rest of a line and its end. -/
def dropLine : List Char → List Char
  | [] => []
  | c :: cs => if c = '\n' then cs else dropLine cs

/-- Drops white space and comments, with fuel. -/
def dropSpace : (fuel : Nat) → List Char → List Char
  | 0, cs => cs
  | _ + 1, [] => []
  | fuel + 1, c :: cs =>
    if Unicode.isWhiteSpace c then dropSpace fuel cs
    else if c = '#' then dropSpace fuel (dropLine cs)
    else c :: cs

/-- Drops what a spacious expression leaves out. -/
def skip (flags : Flags) (cs : List Char) : List Char :=
  if flags.spacious then dropSpace cs.length cs else cs

/-- The characters with a meaning of their own. -/
def isMeta (c : Char) : Bool := "\\.+*?()|[]\x7b\x7d^$#&-~".toList.contains c

/-- A text as an expression that matches it. -/
def escapeAll (text : String) : String :=
  String.ofList (text.toList.flatMap fun c => if isMeta c then ['\\', c] else [c])

/-! ## Escapes -/

/-- The character of a code point in hexadecimal digits. -/
def charOfHex? (digits : List Char) : Option Char := do
  let values ← digits.mapM Text.hexValue?
  let n := values.foldl (fun n d => 16 * n + d) 0
  if values.isEmpty || !n.isValidChar then none else some (Char.ofNat n)

/-- Some digits one after the other. -/
def takeHex (flags : Flags) : (count : Nat) → List Char → Option (List Char × List Char)
  | 0, cs => some ([], cs)
  | count + 1, c :: cs => do
    let (digits, rest) ← takeHex flags count (skip flags cs)
    some (c :: digits, rest)
  | _ + 1, [] => none

/-- The characters up to a closing brace, with fuel. -/
def takeBraced (flags : Flags) : (fuel : Nat) → List Char → Option (List Char × List Char)
  | 0, _ => none
  | _ + 1, [] => none
  | fuel + 1, c :: cs =>
    if c = '\x7d' then some ([], cs)
    else do
      let (inside, rest) ← takeBraced flags fuel (skip flags cs)
      some (c :: inside, rest)

/-- A code point in hexadecimal, with a number of digits or in braces. -/
def readHex (flags : Flags) (count : Nat) (cs : List Char) : Option (Primitive × List Char) :=
  match skip flags cs with
  | '\x7b' :: rest => do
    let (digits, rest) ← takeBraced flags (rest.length + 1) (skip flags rest)
    some (.literal (← charOfHex? digits), skip flags rest)
  | cs => do
    let (digits, rest) ← takeHex flags count cs
    let c ← charOfHex? digits
    if !flags.unicode && count == 2 && 0x7F < c.toNat then none else some (.literal c, rest)

/-- A set closed under a change of case, if the flags ask for it. -/
def foldCase (flags : Flags) (s : CharSet) : CharSet :=
  if flags.anyCase then
    .anyCase (if flags.unicode then Unicode.caseVariants else CharSet.asciiVariants) s
  else s

/-- The characters outside of a set, if they are asked for; within ASCII there are none. -/
def negateIf (flags : Flags) (negated : Bool) (s : CharSet) : Option CharSet :=
  if !negated then some s else if flags.unicode then some (.complement s) else none

/-- A property by one letter or by a name in braces, with a value or without. -/
def readProperty (flags : Flags) (negated : Bool) (cs : List Char) :
    Option (Primitive × List Char) :=
  let finish (negated : Bool) (s? : Option CharSet) (rest : List Char) := do
    some (Primitive.set (← negateIf flags negated (foldCase flags (← s?))), rest)
  if !flags.unicode then none
  else
    match skip flags cs with
    | [] => none
    | '\x7b' :: rest => do
      let (name, rest) ← takeBraced flags (rest.length + 1) (skip flags rest)
      let text (cs : List Char) := String.ofList cs
      match Text.cutFirst? ['!', '='] name with
      | some (key, value) => finish (!negated) (CharSet.valued? (text key) (text value)) rest
      | none =>
        match Text.cutFirst? [':'] name <|> Text.cutFirst? ['='] name with
        | some (key, value) => finish negated (CharSet.valued? (text key) (text value)) rest
        | none => finish negated (CharSet.named? (text name)) rest
    | c :: rest =>
      if c = '\\' then none
      else finish negated (CharSet.named? (String.singleton c)) (skip flags rest)

/-- A class by its letter, of which the upper case asks for the complement. -/
def readClass (flags : Flags) (letter : Char) (cs : List Char) :
    Option (Primitive × List Char) := do
  let s ← CharSet.classOf? letter.toLower flags.unicode
  some (.set (← negateIf flags letter.isUpper s), cs)

/-- The word characters that the flags go by. -/
def wordCharacters (flags : Flags) : Char → Bool :=
  if flags.unicode then Unicode.isWord else CharSet.isAsciiWord

/-- The edge of a word, of any kind or of the kind named in braces. Braces that begin otherwise
belong to a repetition. -/
def readWordEdge (flags : Flags) (cs : List Char) : Option (Primitive × List Char) :=
  let isWord := wordCharacters flags
  let isNameChar (c : Char) := c.isAlpha || c == '-'
  match cs with
  | '\x7b' :: inside =>
    match skip flags inside with
    | [] => none
    | c :: rest =>
      if isNameChar c then do
        let (name, rest) ← takeBraced flags (rest.length + 2) (c :: rest)
        match String.ofList name with
        | "start" => some (.look (.wordStart isWord), rest)
        | "end" => some (.look (.wordEnd isWord), rest)
        | "start-half" => some (.look (.wordStartHalf isWord), rest)
        | "end-half" => some (.look (.wordEndHalf isWord), rest)
        | _ => none
      else some (.look (.wordEdge isWord), cs)
  | _ => some (.look (.wordEdge isWord), cs)

/-- What stands after a backslash. -/
def readEscape (flags : Flags) : List Char → Option (Primitive × List Char)
  | [] => none
  | c :: cs =>
    if c.isDigit then none
    else
      match c with
      | 'x' => readHex flags 2 cs
      | 'u' => readHex flags 4 cs
      | 'U' => readHex flags 8 cs
      | 'p' => readProperty flags false cs
      | 'P' => readProperty flags true cs
      | 'd' | 's' | 'w' | 'D' | 'S' | 'W' => readClass flags c cs
      | 'a' => some (.literal '\x07', cs)
      | 'f' => some (.literal '\x0c', cs)
      | 't' => some (.literal '\t', cs)
      | 'n' => some (.literal '\n', cs)
      | 'r' => some (.literal '\r', cs)
      | 'v' => some (.literal '\x0b', cs)
      | 'A' => some (.look .textStart, cs)
      | 'z' => some (.look .textEnd, cs)
      | 'b' => readWordEdge flags cs
      | 'B' => some (.look (.wordInside (wordCharacters flags)), cs)
      | '<' => some (.look (.wordStart (wordCharacters flags)), cs)
      | '>' => some (.look (.wordEnd (wordCharacters flags)), cs)
      | _ => if c.isAlphanum || 0x80 ≤ c.toNat then none else some (.literal c, cs)

/-! ## Sets in brackets -/

/-- The operations between two sets. -/
inductive SetOp where
  | inter
  | diff
  | symDiff

/-- A set operation on two sets, each closed under a change of case if the flags ask for it. -/
def SetOp.apply (flags : Flags) (a b : CharSet) : SetOp → CharSet
  | inter => .inter (foldCase flags a) (foldCase flags b)
  | diff => .diff (foldCase flags a) (foldCase flags b)
  | symDiff => .symDiff (foldCase flags a) (foldCase flags b)

/-- A set with the operation waiting before it carried out. -/
def completeSet (flags : Flags) (waiting? : Option (SetOp × CharSet)) (s : CharSet) : CharSet :=
  match waiting? with
  | some (op, left) => op.apply flags left s
  | none => s

/-- A set named between colons, after the bracket that opens it, and whether its complement is
meant. -/
def readNamedSet : List Char → Option (Bool × CharSet × List Char)
  | ':' :: cs => do
    let (negated, cs) := match cs with
      | '^' :: cs => (true, cs)
      | cs => (false, cs)
    let (name, rest) ← Text.cutFirst? [':'] cs
    let rest ← Text.dropHead? [']'] rest
    some (negated, ← CharSet.asciiNamed? (String.ofList name), rest)
  | _ => none

/-- One character or escape inside of brackets. -/
def readSetItem (flags : Flags) : List Char → Option (Primitive × List Char)
  | [] => none
  | '\\' :: cs => readEscape flags cs
  | c :: cs => some (.literal c, cs)

/-- The hyphens, or else the closing bracket, that stand for themselves at the front of a set. -/
def readSetFront (flags : Flags) : (fuel : Nat) → List CharSet → List Char →
    List CharSet × List Char
  | 0, parts, cs => (parts, cs)
  | fuel + 1, parts, cs =>
    match parts, cs with
    | parts, '-' :: rest => readSetFront flags fuel (.char '-' :: parts) (skip flags rest)
    | [], ']' :: rest => ([.char ']'], skip flags rest)
    | parts, cs => (parts, cs)

/-- A literal of a set; without Unicode only ASCII has any. -/
def literalSet (flags : Flags) (c : Char) : Option CharSet :=
  if flags.unicode || c.toNat < 0x80 then some (.char c) else none

/-- The character that decides whether the hyphen before it makes a range. A spacious expression
passes over white space and one number sign, whose comment is not passed over. -/
def afterHyphen? (flags : Flags) (cs : List Char) : Option Char :=
  if flags.spacious then
    match cs.dropWhile Unicode.isWhiteSpace with
    | '#' :: rest => (rest.dropWhile Unicode.isWhiteSpace).head?
    | rest => rest.head?
  else cs.head?

/-- A character, a range or a set inside of brackets. -/
def readSetRange (flags : Flags) (cs : List Char) : Option (CharSet × List Char) := do
  let (first, rest) ← readSetItem flags cs
  let rest := skip flags rest
  let next? := match rest with
    | '-' :: after => afterHyphen? flags after
    | _ => none
  match rest, next? with
  | [], _ => none
  | '-' :: after, next? =>
    if next? == some ']' || next? == some '-' then alone first rest
    else
      match first, ← readSetItem flags (skip flags after) with
      | .literal low, (.literal high, rest) =>
        if low ≤ high && (flags.unicode || high.toNat < 0x80) then some (.range low high, rest)
        else none
      | _, _ => none
  | rest, _ => alone first rest
where
  /-- An item that is no range. -/
  alone (item : Primitive) (rest : List Char) : Option (CharSet × List Char) :=
    match item with
    | .literal c => (literalSet flags c).map (·, rest)
    | .set s => some (s, rest)
    | .look _ => none

mutual

/-- A set after its opening bracket. -/
def readSet (flags : Flags) : (fuel : Nat) → List Char → Option (CharSet × List Char)
  | 0, _ => none
  | fuel + 1, cs =>
    let (negated, cs) := match skip flags cs with
      | '^' :: rest => (true, skip flags rest)
      | cs => (false, cs)
    let (parts, cs) := readSetFront flags (cs.length + 1) [] cs
    if cs.isEmpty then none
    else do
      let (s, rest) ← readSetParts flags fuel none parts cs
      some (.bracket (← negateIf flags negated (foldCase flags s)), rest)

/-- The parts of a set up to its closing bracket. -/
def readSetParts (flags : Flags) : (fuel : Nat) → Option (SetOp × CharSet) → List CharSet →
    List Char → Option (CharSet × List Char)
  | 0, _, _, _ => none
  | fuel + 1, waiting?, parts, cs =>
    let complete := completeSet flags waiting? (.union parts.reverse)
    match skip flags cs with
    | [] => none
    | '[' :: rest =>
      match readNamedSet rest with
      | some (negated, s, rest) =>
        match negateIf flags negated (foldCase flags s) with
        | some s => readSetParts flags fuel waiting? (s :: parts) rest
        | none => none
      | none =>
        match readSet flags fuel rest with
        | some (s, rest) => readSetParts flags fuel waiting? (s :: parts) rest
        | none => none
    | ']' :: rest => some (complete, rest)
    | '&' :: '&' :: rest => readSetParts flags fuel (some (.inter, complete)) [] rest
    | '-' :: '-' :: rest => readSetParts flags fuel (some (.diff, complete)) [] rest
    | '~' :: '~' :: rest => readSetParts flags fuel (some (.symDiff, complete)) [] rest
    | cs =>
      match readSetRange flags cs with
      | some (s, rest) => readSetParts flags fuel waiting? (s :: parts) rest
      | none => none

end

/-! ## Groups and repetitions -/

/-- A group that is still open: what stands before it, and the flags that come back after it. -/
structure Level where
  flags : Flags
  choices : List Regex
  parts : List Regex

/-- Where reading stands: the alternatives read so far in the innermost group and the parts of the
current one, from the last to the first, and the groups around it. -/
structure Reading where
  flags : Flags
  choices : List Regex
  parts : List Regex
  levels : List Level
  names : List (List Char)

/-- Parts one after the other, given from the last to the first. -/
def sequence (parts : List Regex) : Regex :=
  match parts with
  | [] => .empty
  | [r] => r
  | parts => .concat parts.reverse

/-- The alternatives read so far together with the current one. -/
def Reading.body (s : Reading) : Regex :=
  if s.choices.isEmpty then sequence s.parts
  else .alternation ((sequence s.parts :: s.choices).reverse)

/-- A part added at the end. -/
def Reading.add (s : Reading) (r : Regex) : Reading := { s with parts := r :: s.parts }

/-- A character as an expression. Without Unicode only ASCII has cases. -/
def literal (flags : Flags) (c : Char) : Option Regex :=
  if flags.anyCase && !flags.unicode && 0x80 ≤ c.toNat then none
  else some (.set (foldCase flags (.char c)))

/-- A primitive as an expression. -/
def Primitive.toRegex (flags : Flags) : Primitive → Option Regex
  | .literal c => Regex.literal flags c
  | .set s => some (.set s)
  | .look l => some (.look l)

/-- What a dot stands for. -/
def dotSet (flags : Flags) : CharSet :=
  if flags.dotMatchesLineFeed then .range '\x00' (Char.ofNat 0x10FFFF)
  else if flags.carriageReturn then .complement (.union [.char '\r', .char '\n'])
  else .complement (.char '\n')

/-- Where `^` matches. -/
def startLook (flags : Flags) : Look :=
  if !flags.manyLines then .textStart
  else if flags.carriageReturn then .lineStartAfterReturn
  else .lineStart

/-- Where `$` matches. -/
def endLook (flags : Flags) : Look :=
  if !flags.manyLines then .textEnd
  else if flags.carriageReturn then .lineEndBeforeReturn
  else .lineEnd

/-- The flags as one letter sets or clears them. -/
def Flags.set? (flags : Flags) (letter : Char) (value : Bool) : Option Flags :=
  match letter with
  | 'i' => some { flags with anyCase := value }
  | 'm' => some { flags with manyLines := value }
  | 's' => some { flags with dotMatchesLineFeed := value }
  | 'x' => some { flags with spacious := value }
  | 'R' => some { flags with carriageReturn := value }
  | 'u' => some { flags with unicode := value }
  | 'U' => some flags
  | _ => none

/-- The flags of a group up to its colon or closing parenthesis. No letter may come twice, and a
minus sign stands before at least one. -/
def readFlags (flags : Flags) (value : Bool) (seen : List Char) :
    List Char → Option (Flags × List Char × List Char)
  | [] => none
  | c :: cs =>
    if c = ':' ∨ c = ')' then if seen.head? == some '-' then none else some (flags, seen, c :: cs)
    else if seen.contains c then none
    else if c = '-' then readFlags flags false (c :: seen) cs
    else
      match flags.set? c value with
      | some flags => readFlags flags value (c :: seen) cs
      | none => none

/-- Whether the name of a group may begin with a character. -/
def isNameStart (c : Char) : Bool := c == '_' || Unicode.isAlphabetic c

/-- Whether the name of a group may go on with a character. -/
def isNamePart (c : Char) : Bool :=
  c == '_' || c == '.' || c == '[' || c == ']' || Unicode.isAlphanumeric c

/-- The name of a group up to its angle bracket. -/
def readName (cs : List Char) : Option (List Char × List Char) := do
  let (name, rest) ← Text.cutFirst? ['>'] cs
  if name.head?.any isNameStart && name.all isNamePart then some (name, rest) else none

/-- A new innermost group, with flags of its own. -/
def Reading.enter (s : Reading) (flags : Flags) : Reading :=
  { s with flags := flags, choices := [], parts := [],
           levels := ⟨s.flags, s.choices, s.parts⟩ :: s.levels }

/-- A group with a name that no other one has. -/
def Reading.enterNamed (s : Reading) (cs : List Char) : Option (Reading × List Char) := do
  let (name, rest) ← readName cs
  if s.names.contains name then none
  else some ({ s with names := name :: s.names }.enter s.flags, rest)

/-- What stands after an opening parenthesis: a group, or flags for the rest of the group around. -/
def Reading.openGroup (s : Reading) (cs : List Char) : Option (Reading × List Char) :=
  match skip s.flags cs with
  | '?' :: 'P' :: '<' :: rest => s.enterNamed rest
  | '?' :: '=' :: _ | '?' :: '!' :: _ => none
  | '?' :: '<' :: '=' :: _ | '?' :: '<' :: '!' :: _ => none
  | '?' :: '<' :: rest => s.enterNamed rest
  | '?' :: rest => do
    let (flags, seen, rest) ← readFlags s.flags true [] rest
    match rest with
    | ':' :: rest => some (s.enter flags, rest)
    | _ :: rest => if seen.isEmpty then none else some ({ s with flags := flags }.add .empty, rest)
    | [] => none
  | cs => some (s.enter s.flags, cs)

/-- The end of the innermost group. -/
def Reading.closeGroup (s : Reading) : Option Reading :=
  match s.levels with
  | [] => none
  | level :: levels =>
    some { s with flags := level.flags, choices := level.choices,
                  parts := .group s.body :: level.parts, levels := levels }

/-- The last part repeated; there must be one, and flags are none. -/
def Reading.repeatLast (s : Reading) (least : Nat) (most? : Option Nat) : Option Reading :=
  match s.parts with
  | [] | .empty :: _ => none
  | r :: parts => some { s with parts := .repetition r least most? :: parts }

/-- Drops the question mark that makes a repetition reluctant, which changes no answer. -/
def dropReluctant : List Char → List Char
  | '?' :: cs => cs
  | cs => cs

/-- Digits with what a spacious expression leaves out between them, with fuel. -/
def takeDigits (flags : Flags) : (fuel : Nat) → List Char → List Char × List Char
  | 0, cs => ([], cs)
  | _ + 1, [] => ([], [])
  | fuel + 1, c :: cs =>
    if c.isDigit then
      let (digits, rest) := takeDigits flags fuel (skip flags cs)
      (c :: digits, rest)
    else ([], c :: cs)

/-- A count within 32 bits, with white space around it; the count is missing if there are no
digits. -/
def readCount (flags : Flags) (cs : List Char) : Option (Option Nat × List Char) :=
  let (digits, rest) := takeDigits flags cs.length (cs.dropWhile Unicode.isWhiteSpace)
  let rest := skip flags (rest.dropWhile Unicode.isWhiteSpace)
  if digits.isEmpty then some (none, rest)
  else
    let n := digits.foldl (fun n c => 10 * n + (c.toNat - '0'.toNat)) 0
    if n < 0x100000000 then some (some n, rest) else none

/-- The counts of a repetition after the opening brace. -/
def readCounts (flags : Flags) (cs : List Char) : Option (Nat × Option Nat × List Char) := do
  let (least?, rest) ← readCount flags (skip flags cs)
  let least ← least?
  match rest with
  | '\x7d' :: rest => some (least, some least, skip flags rest)
  | ',' :: rest =>
    match skip flags rest with
    | '\x7d' :: rest => some (least, none, skip flags rest)
    | rest =>
      let (most?, rest) ← readCount flags rest
      let most ← most?
      match rest with
      | '\x7d' :: rest => if least ≤ most then some (least, some most, skip flags rest) else none
      | _ => none
  | _ => none

/-- Reads one piece of an expression. -/
def Reading.step (s : Reading) (c : Char) (cs : List Char) : Option (Reading × List Char) :=
  match c with
  | '(' => s.openGroup cs
  | ')' => s.closeGroup.map (·, cs)
  | '|' => some ({ s with choices := sequence s.parts :: s.choices, parts := [] }, cs)
  | '[' => (readSet s.flags (cs.length + 2) cs).map fun (chars, rest) => (s.add (.set chars), rest)
  | '?' => (s.repeatLast 0 (some 1)).map (·, dropReluctant cs)
  | '*' => (s.repeatLast 0 none).map (·, dropReluctant cs)
  | '+' => (s.repeatLast 1 none).map (·, dropReluctant cs)
  | '\x7b' => do
    let (least, most?, rest) ← readCounts s.flags cs
    some (← s.repeatLast least most?, dropReluctant rest)
  | '.' => if s.flags.unicode then some (s.add (.set (dotSet s.flags)), cs) else none
  | '^' => some (s.add (.look (startLook s.flags)), cs)
  | '$' => some (s.add (.look (endLook s.flags)), cs)
  | '\\' => do
    let (item, rest) ← readEscape s.flags cs
    some (s.add (← item.toRegex s.flags), rest)
  | c => do some (s.add (← literal s.flags c), cs)

/-- Reads an expression to its end, with fuel. -/
def Reading.run : (fuel : Nat) → Reading → List Char → Option Regex
  | 0, _, _ => none
  | fuel + 1, s, cs =>
    match skip s.flags cs with
    | [] => if s.levels.isEmpty then some s.body else none
    | c :: cs =>
      match s.step c cs with
      | some (s, rest) => Reading.run fuel s rest
      | none => none

/-- The greatest depth of an expression. -/
def depthLimit : Nat := 250

/-- The greatest weight of an expression. -/
def weightLimit : Nat := 1000000

/-- The expression of a text, read with some flags at first. -/
def parse? (flags : Flags) (text : String) : Option Regex := do
  let cs := text.toList
  let r ← Reading.run (cs.length + 1) ⟨flags, [], [], [], []⟩ cs
  if r.depth ≤ depthLimit && r.weight ≤ weightLimit then some r else none

end Regex
end QuadStore
