/-!
# Identifier grammars

The character classes `PN_CHARS_U` and `PN_CHARS` of the N-Triples and SPARQL grammars, the
labels of blank nodes and the names of variables built from them.
-/

namespace QuadStore
namespace Name

/-- The ranges of `PN_CHARS_U`: letters and the underscore. -/
def startRanges : List (Nat × Nat) :=
  [(0x5F, 0x5F), (0x41, 0x5A), (0x61, 0x7A), (0xC0, 0xD6), (0xD8, 0xF6), (0xF8, 0x2FF),
   (0x370, 0x37D), (0x37F, 0x1FFF), (0x200C, 0x200D), (0x2070, 0x218F), (0x2C00, 0x2FEF),
   (0x3001, 0xD7FF), (0xF900, 0xFDCF), (0xFDF0, 0xFFFD), (0x10000, 0xEFFFF)]

/-- What may follow in a name but not start it: the combining marks and the two joining ties. -/
def markRanges : List (Nat × Nat) :=
  [(0xB7, 0xB7), (0x300, 0x36F), (0x203F, 0x2040)]

/-- Whether a character lies in one of some ranges, ends included. -/
def inRanges (ranges : List (Nat × Nat)) (c : Char) : Bool :=
  ranges.any fun (low, high) => low ≤ c.toNat && c.toNat ≤ high

/-- An ASCII digit. -/
def isDigit (c : Char) : Bool := '0' ≤ c && c ≤ '9'

/-- `PN_CHARS_U`. -/
def isStart (c : Char) : Bool := inRanges startRanges c

/-- `PN_CHARS`: the letters, digits, the hyphen and the combining marks. -/
def isPart (c : Char) : Bool :=
  isStart c || c == '-' || isDigit c || inRanges markRanges c

/-- A character that may start the label of a blank node. -/
def isLabelStart (c : Char) : Bool := isDigit c || c == ':' || isStart c

/-- A character that may stand in the label of a blank node after the first one. -/
def isLabelPart (c : Char) : Bool := c == '.' || c == ':' || isPart c

/-- The labels of blank nodes: a dot may stand neither first nor last. -/
def isBlankNodeLabel : List Char → Bool
  | [] => false
  | first :: rest =>
    isLabelStart first && rest.all isLabelPart && (first :: rest).getLast? != some '.'

/-- The names of variables, which hold no hyphen. -/
def isVariableName : List Char → Bool
  | [] => false
  | first :: rest =>
    (isDigit first || isStart first) && rest.all fun c => c != '-' && isPart c

end Name
end QuadStore
