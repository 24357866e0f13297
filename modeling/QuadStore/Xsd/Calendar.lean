import QuadStore.Xsd.Decimal

/-!
# Calendar values

The values of `xsd:dateTime`, `xsd:date` and `xsd:time` are instants: seconds on the line of the
proleptic Gregorian calendar, counted from the start of year 1, and the offset from universal time
if the text had one. A time of day lies on the last day of 1972. The line follows the seven
property model of XML Schema 1.1.

An instant without an offset lies within fourteen hours on either side of its place, so that it is
ordered with one that has an offset only if both ends of this span say the same.
-/

namespace QuadStore
namespace Xsd

/-- An offset from universal time in minutes. -/
structure Offset where
  minutes : Int
  inDay : -840 ≤ minutes ∧ minutes ≤ 840
deriving DecidableEq, Repr

/-- A place on the line. -/
structure Instant where
  seconds : Decimal
  offset? : Option Offset
deriving DecidableEq, Repr

namespace Calendar

def isLeap (year : Int) : Bool :=
  year % 400 == 0 || (year % 4 == 0 && year % 100 != 0)

def daysInMonth (year : Int) (month : Nat) : Nat :=
  if month = 2 then (if isLeap year then 29 else 28)
  else if [4, 6, 9, 11].contains month then 30
  else 31

/-- The days from the start of year 1 to the start of a year. -/
def daysBeforeYear (year : Int) : Int :=
  let y := year - 1
  365 * y + (y / 400 - y / 100 + y / 4)

/-- The days from the start of a year to the start of a month of it. -/
def daysBeforeMonth (year : Int) (month : Nat) : Nat :=
  (List.range (month - 1)).foldl (fun days m => days + daysInMonth year (m + 1)) 0

/-- The days from the start of year 1 to a date. -/
def dayNumber (year : Int) (month day : Nat) : Int :=
  daysBeforeYear year + daysBeforeMonth year month + (day - 1 : Int)

/-- The day on which times of day lie. -/
def timeDay : Int := dayNumber 1972 12 31

/-- The year of a day: the one that a cycle of 400 years, one of 100, one of 4 and the last single
years leave. -/
def yearOf (day : Int) : Int :=
  let cycle := day / 146097
  let inCycle := day % 146097
  let century := min (inCycle / 36524) 3
  let inCentury := inCycle - century * 36524
  let quad := inCentury / 1461
  let inQuad := inCentury % 1461
  let single := min (inQuad / 365) 3
  400 * cycle + 100 * century + 4 * quad + single + 1

/-- The month and day of the month on the day of a year that is counted from zero. -/
def monthAndDay (year : Int) : (dayOfYear : Nat) → (months : List Nat) → Nat × Nat
  | _, [] => (12, 31)
  | day, month :: rest =>
    let days := daysInMonth year month
    if day < days then (month, day + 1) else monthAndDay year (day - days) rest

/-- The year, month and day of the month of a day. -/
def civil (day : Int) : Int × Nat × Nat :=
  let year := yearOf day
  (year, monthAndDay year (day - daysBeforeYear year).toNat (List.range' 1 12))

/-! ## Lexical forms -/

/-- Reads one character that must be there. -/
def expect? (c : Char) : List Char → Option (List Char)
  | d :: rest => if d = c then some rest else none
  | [] => none

/-- Two digits, no more, within bounds. -/
def readPair? (low high : Nat) (cs : List Char) : Option (Nat × List Char) :=
  let (digits, rest) := Text.spanDigits cs
  let n := Text.ofDigits digits
  if digits.length = 2 ∧ low ≤ n ∧ n ≤ high then some (n, rest) else none

/-- A year of at least four digits, more only if they do not start with zero, and fewer than
2⁶³. -/
def readYear? (cs : List Char) : Option (Int × List Char) :=
  let (negative, body) :=
    match cs with
    | '-' :: rest => (true, rest)
    | _ => (false, cs)
  let (digits, rest) := Text.spanDigits body
  let n := Text.ofDigits digits
  if digits.length < 4 ∨ (4 < digits.length ∧ digits.head? = some '0') ∨
      0x8000000000000000 ≤ n then none
  else some (Text.signed negative n, rest)

/-- Seconds: two digits below sixty and an optional fraction with a digit. -/
def readSeconds? (cs : List Char) : Option (Decimal × List Char) :=
  let (whole, rest) := Text.spanDigits cs
  let (fraction, rest) :=
    match rest with
    | '.' :: more => let (digits, rest) := Text.spanDigits more; ('.' :: digits, rest)
    | _ => ([], rest)
  if whole.length = 2 ∧ fraction ≠ ['.'] then
    (Decimal.parse? (String.ofList (whole ++ fraction))).bind fun seconds =>
      if seconds.units < 60 * Nat.pow 10 Decimal.places then some (seconds, rest) else none
  else none

/-- The offset that ends a text: absent, a `Z`, or a signed time within fourteen hours. -/
def readOffset? : List Char → Option (Option Offset)
  | [] => some none
  | ['Z'] => some (some ⟨0, by decide⟩)
  | sign :: rest => do
    guard (sign = '+' ∨ sign = '-')
    let (hours, rest) ← readPair? 0 99 rest
    let rest ← expect? ':' rest
    let (minutes, rest) ← readPair? 0 59 rest
    guard rest.isEmpty
    let total := Text.signed (sign = '-') (60 * hours + minutes)
    if h : -840 ≤ total ∧ total ≤ 840 then some (some ⟨total, h⟩) else none

/-- A date without its offset, as its day. -/
def readDay? (cs : List Char) : Option (Int × List Char) := do
  let (year, rest) ← readYear? cs
  let rest ← expect? '-' rest
  let (month, rest) ← readPair? 1 12 rest
  let rest ← expect? '-' rest
  let (day, rest) ← readPair? 1 31 rest
  guard (day ≤ daysInMonth year month)
  return (dayNumber year month day, rest)

/-- A time of day as its minutes and seconds; 24:00:00 is the only one past 23:59. -/
def readTime? (cs : List Char) : Option (Nat × Decimal × List Char) := do
  let (hour, rest) ← readPair? 0 24 cs
  let rest ← expect? ':' rest
  let (minute, rest) ← readPair? 0 59 rest
  let rest ← expect? ':' rest
  let (second, rest) ← readSeconds? rest
  guard (hour < 24 ∨ minute = 0 ∧ second.units = 0)
  return (60 * hour + minute, second, rest)

/-- The instant of a day, minutes and seconds of local time, unless it lies too far off. -/
def instant? (day minutes : Int) (seconds : Option Decimal) (offset? : Option Offset) :
    Option Instant := do
  let shift := offset?.elim 0 Offset.minutes
  let start ← Decimal.ofInt? (86400 * day + 60 * (minutes - shift))
  match seconds with
  | none => return ⟨start, offset?⟩
  | some seconds => return ⟨← start.add? seconds, offset?⟩

/-- A lexical form of `xsd:dateTime`. -/
def parseDateTime? (text : String) : Option Instant := do
  let (day, rest) ← readDay? text.toList
  let rest ← expect? 'T' rest
  let (minutes, seconds, rest) ← readTime? rest
  instant? day minutes (some seconds) (← readOffset? rest)

/-- A lexical form of `xsd:date`. -/
def parseDate? (text : String) : Option Instant := do
  let (day, rest) ← readDay? text.toList
  instant? day 0 none (← readOffset? rest)

/-- A lexical form of `xsd:time`, in which 24:00:00 is midnight. -/
def parseTime? (text : String) : Option Instant := do
  let (minutes, seconds, rest) ← readTime? text.toList
  instant? timeDay (minutes % 1440 : Nat) (some seconds) (← readOffset? rest)

end Calendar

namespace Offset

/-- `Z` for universal time, else a signed time of two digits each. -/
def text (o : Offset) : String :=
  if o.minutes = 0 then "Z"
  else
    let n := o.minutes.natAbs
    let sign := if o.minutes < 0 then '-' else '+'
    String.ofList (sign :: Text.paddedDigits 2 (n / 60) ++ ':' :: Text.paddedDigits 2 (n % 60))

end Offset

namespace Instant

open Calendar

/-- Whole seconds of local time, cut off toward zero. -/
def localSeconds (t : Instant) : Int := t.seconds.whole + 60 * t.offset?.elim 0 Offset.minutes

/-- The local date, four digits or more for the year. -/
def dateChars (t : Instant) : List Char :=
  let (year, month, day) := civil (t.localSeconds / 86400)
  let sign := if year < 0 then ['-'] else []
  sign ++ Text.paddedDigits 4 year.natAbs ++ '-' :: Text.paddedDigits 2 month ++
    '-' :: Text.paddedDigits 2 day

/-- The local time of day, the seconds with their fraction. -/
def timeChars (t : Instant) : List Char :=
  let hour := (t.localSeconds % 86400 / 3600).toNat
  let minute := (t.localSeconds % 3600 / 60).toNat
  let units := t.seconds.remainder 60
  let seconds := ((Decimal.ofUnits? units).elim "" Decimal.text).toList
  let padding := if units < 10 * Nat.pow 10 Decimal.places then ['0'] else []
  Text.paddedDigits 2 hour ++ ':' :: Text.paddedDigits 2 minute ++ ':' :: padding ++ seconds

def offsetText (t : Instant) : String := t.offset?.elim "" Offset.text

/-- The canonical lexical form as an `xsd:dateTime`. -/
def dateTimeText (t : Instant) : String :=
  String.ofList (t.dateChars ++ 'T' :: t.timeChars) ++ t.offsetText

/-- The canonical lexical form as an `xsd:date`. -/
def dateText (t : Instant) : String := String.ofList t.dateChars ++ t.offsetText

/-- The canonical lexical form as an `xsd:time`. -/
def timeText (t : Instant) : String := String.ofList t.timeChars ++ t.offsetText

/-- Fourteen hours. -/
def span : Int := 14 * 3600 * Nat.pow 10 Decimal.places

/-- The order of a count of units with the two ends of a span, if it is the same with both. -/
def spanOrder? (units center : Int) : Option Ordering := do
  let late ← Decimal.ofUnits? (center + span)
  let early ← Decimal.ofUnits? (center - span)
  if compare units late.units = compare units early.units then some (compare units late.units)
  else none

/-- The order of two instants, if it is known. -/
def order? (a b : Instant) : Option Ordering :=
  match a.offset?, b.offset? with
  | some _, none => spanOrder? a.seconds.units b.seconds.units
  | none, some _ => (spanOrder? b.seconds.units a.seconds.units).map Ordering.swap
  | _, _ => some (compare a.seconds.units b.seconds.units)

end Instant
end Xsd
end QuadStore
