/-!
# UTF-8

Texts from and to their bytes. Where some bytes are no text, the report names the first sequence
that is none: the index of its first byte, and how many of its bytes could still have begun a
character, or that the bytes end within a character.
-/

namespace QuadStore

/-- A sequence of bytes. -/
abbrev Bytes := List UInt8

namespace Utf8

/-- The first place where bytes are no text. -/
inductive Fault where
  | invalid (length index : Nat)
  | incomplete (index : Nat)
deriving DecidableEq, Repr

/-- What the report says. -/
def Fault.message : Fault → String
  | invalid length index => "invalid utf-8 sequence of " ++ toString length ++
      " bytes from index " ++ toString index
  | incomplete index => "incomplete utf-8 byte sequence from index " ++ toString index

/-- A character of which some bytes are still to come: where it begins, how many bytes are missing
and between which bounds the next one lies. -/
structure Unfinished where
  start : Nat
  missing : Nat
  low : UInt8
  high : UInt8

/-- How a character of several bytes goes on after its first byte. -/
def begin? (index : Nat) (lead : UInt8) : Option Unfinished :=
  if lead < 0xC2 then none
  else if lead < 0xE0 then some ⟨index, 1, 0x80, 0xBF⟩
  else if lead = 0xE0 then some ⟨index, 2, 0xA0, 0xBF⟩
  else if lead = 0xED then some ⟨index, 2, 0x80, 0x9F⟩
  else if lead < 0xF0 then some ⟨index, 2, 0x80, 0xBF⟩
  else if lead = 0xF0 then some ⟨index, 3, 0x90, 0xBF⟩
  else if lead < 0xF4 then some ⟨index, 3, 0x80, 0xBF⟩
  else if lead = 0xF4 then some ⟨index, 3, 0x80, 0x8F⟩
  else none

/-- The first fault in some bytes, from an index on. -/
def firstFault (index : Nat) (unfinished? : Option Unfinished) : Bytes → Option Fault
  | [] => unfinished?.map fun u => .incomplete u.start
  | byte :: rest =>
    match unfinished? with
    | none =>
      if byte < 0x80 then firstFault (index + 1) none rest
      else
        match begin? index byte with
        | some u => firstFault (index + 1) (some u) rest
        | none => some (.invalid 1 index)
    | some u =>
      if u.low ≤ byte && byte ≤ u.high then
        if u.missing ≤ 1 then firstFault (index + 1) none rest
        else firstFault (index + 1) (some ⟨u.start, u.missing - 1, 0x80, 0xBF⟩) rest
      else some (.invalid (index - u.start) u.start)

/-- The bytes of a text. -/
def encode (s : String) : Bytes := s.toUTF8.data.toList

/-- The text of some bytes, or the first fault in them. -/
def decode (bytes : Bytes) : Except Fault String :=
  match String.fromUTF8? ⟨bytes.toArray⟩ with
  | some s => .ok s
  | none => .error ((firstFault 0 none bytes).getD (.incomplete 0))

/-- A text is read back from its bytes. -/
theorem decode_encode (s : String) : decode (encode s) = .ok s := by
  have h : String.fromUTF8? ⟨(encode s).toArray⟩ = some s := by
    simp only [encode, Array.toArray_toList]
    unfold String.fromUTF8?
    split
    · rfl
    · rename_i invalid
      exact absurd s.isValidUTF8 invalid
  simp [decode, h]

end Utf8
end QuadStore
