import QuadStore.Journal.Record

/-!
# Journals

A journal is a file of records: a header of four bytes, then a frame for each record, which is the
length of the record in four bytes and the record. A frame that ends too early, as after a crash,
is cut off when the journal is opened; anything else that is wrong is reported.
-/

namespace QuadStore
namespace Journal

/-- The three bytes that a journal begins with. -/
def magic : Bytes := [0x6F, 0x78, 0x71]

/-- The version of the format. -/
def version : UInt8 := 1

/-- The header of a journal. -/
def header : Bytes := magic ++ [version]

/-- The frame of a record, unless a length does not fit. -/
def frame? (r : Record) : Option Bytes := do
  let payload ← r.encode?
  return (← Bytes.ofLength? payload.length) ++ payload

/-- Complains about bytes that do not begin with a header. -/
def checkHeader (bytes : Bytes) : Except Corruption Unit :=
  if bytes.take 3 != magic then .error .notAJournal
  else
    match bytes[3]? with
    | none => .error .notAJournal
    | some v =>
      if v = version then .ok ()
      else if version < v then .error (.futureVersion v.toNat)
      else .error (.invalidVersion v.toNat)

/-- The payload of the first frame and the bytes after it, if the frame is complete. -/
def splitFrame? (bytes : Bytes) : Option (Bytes × Bytes) :=
  if 4 ≤ bytes.length then
    let length := Bytes.toNat (bytes.take 4)
    let rest := bytes.drop 4
    if length ≤ rest.length then some (rest.splitAt length) else none
  else none

/-- The records of the complete frames and how many bytes these take. The fuel bounds the number
of frames. -/
def readFrames : (fuel : Nat) → Bytes → Except Corruption (List Record × Nat)
  | 0, _ => .ok ([], 0)
  | fuel + 1, bytes =>
    match splitFrame? bytes with
    | none => .ok ([], 0)
    | some (payload, rest) => do
      let record ← Record.decode payload
      let (records, size) ← readFrames fuel rest
      return (record :: records, 4 + payload.length + size)

/-- The records of a journal, and its bytes without an incomplete frame at their end. No bytes
become an empty journal. -/
def recover (bytes : Bytes) : Except Corruption (List Record × Bytes) :=
  if bytes.isEmpty then .ok ([], header)
  else do
    checkHeader bytes
    let (records, size) ← readFrames bytes.length (bytes.drop 4)
    return (records, bytes.take (4 + size))

end Journal
end QuadStore
