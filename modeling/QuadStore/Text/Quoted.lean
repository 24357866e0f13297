import QuadStore.Text.Digits

/-!
# Quoted text

The quoted form of a string in N-Triples: a quote and a backslash are escaped, the control
characters with a letter of their own are written with it, and the other ones below U+0020 and
U+007F by four upper case hexadecimal digits. Every other character stands for itself.
-/

namespace QuadStore
namespace Text

/-- The letter that stands for a character after a backslash, when it has one. -/
def escapeLetter? (c : Char) : Option Char :=
  if c = '\x08' then some 'b'
  else if c = '\t' then some 't'
  else if c = '\n' then some 'n'
  else if c = '\x0c' then some 'f'
  else if c = '\r' then some 'r'
  else if c = '"' then some '"'
  else if c = '\\' then some '\\'
  else none

/-- Control characters without a letter are written by their code. -/
def isCodeEscaped (c : Char) : Bool :=
  c.toNat < 0x20 || c.toNat == 0x7F

/-- One character inside quotes. -/
def escape (c : Char) : List Char :=
  match escapeLetter? c with
  | some letter => ['\\', letter]
  | none => if isCodeEscaped c then '\\' :: 'u' :: hexDigits 4 c.toNat else [c]

/-- A string between quotes. -/
def quote (s : String) : String :=
  String.ofList ('"' :: s.toList.flatMap escape ++ ['"'])

end Text
end QuadStore
