import Chargeback.Decimal.Basic
import Chargeback.Text.Blank
import Chargeback.Time.Instant

/-!
# Written instants

Instants as RFC 3339 texts. They are written in universal time, with three, six
or nine digits of a second when these are needed. They are read with any offset
from universal time; the reader also accepts blanks between the parts, months,
days and times of one digit, and signed years of more than four digits.

## Main definitions

* `Instant.write`: the text of an instant.
* `Instant.writeSeconds`: the text without the part of a second.
* `Instant.read?`: the instant of a text.
-/

namespace Chargeback

namespace Instant

/-! ## Writing -/

/-- A number with zeros in front up to a width. -/
def padded (width n : Nat) : List Char :=
  let ds := Decimal.digits n
  List.replicate (width - ds.length) '0' ++ ds

/-- A year; outside the years 0 to 9999 it carries its sign. -/
def writeYear (year : Int) : List Char :=
  if 0 ≤ year && year ≤ 9999 then padded 4 year.toNat
  else (if year < 0 then '-' else '+') :: padded 4 year.natAbs

/-- The digits of a second behind its point: none, three, six or nine. -/
def writeFraction (nanos : Nat) : List Char :=
  if nanos = 0 then []
  else if nanos % 1000000 = 0 then '.' :: padded 3 (nanos / 1000000)
  else if nanos % 1000 = 0 then '.' :: padded 6 (nanos / 1000)
  else '.' :: padded 9 nanos

/-- Date and time to the second. -/
def writeDateTime (t : Instant) : List Char :=
  writeYear t.date.year ++ '-' :: padded 2 t.date.month ++ '-' :: padded 2 t.date.day ++
    'T' :: padded 2 t.hour ++ ':' :: padded 2 t.minute ++ ':' :: padded 2 t.second

/-- The text of an instant, in universal time. -/
def write (t : Instant) : String :=
  String.ofList (t.writeDateTime ++ writeFraction t.nanosOfSecond ++ ['Z'])

/-- The text of the second that an instant lies in, in universal time. -/
def writeSeconds (t : Instant) : String :=
  String.ofList (t.writeDateTime ++ ['Z'])

/-! ## Reading -/

/-- Read a number of at most `width` digits, with blanks in front of it. -/
def readNumber (width : Nat) (s : List Char) : Option (Nat × List Char) :=
  let s := Text.trimLeft s
  let ds := (s.take width).takeWhile Char.isDigit
  if ds.isEmpty then none else some (Decimal.value ds, s.drop ds.length)

/-- Read a year: four digits at most, or any number of them behind a sign. -/
def readYear (s : List Char) : Option (Int × List Char) :=
  let signed (sign : Int) (s : List Char) : Option (Int × List Char) :=
    let (ds, rest) := Decimal.spanDigits s
    if ds.isEmpty then none else some (sign * Decimal.value ds, rest)
  match Text.trimLeft s with
  | '-' :: rest => signed (-1) rest
  | '+' :: rest => signed 1 rest
  | s => (readNumber 4 s).map fun r => (r.1, r.2)

/-- Read a separator, with blanks in front of it. -/
def readSeparator (c : Char) (s : List Char) : Option (List Char) :=
  match Text.trimLeft s with
  | d :: rest => if c = d then some rest else none
  | [] => none

/-- Read the digits of a second behind a point, if there is a point, as
nanoseconds. Digits beyond the ninth do not count. -/
def readFraction : List Char → Option (Nat × List Char)
  | '.' :: rest =>
    let (ds, rest) := Decimal.spanDigits rest
    if ds.isEmpty then none
    else
      let ds := ds.take 9
      some (Decimal.value ds * Nat.pow 10 (9 - ds.length), rest)
  | s => some (0, s)

/-- Read a row of two digits. -/
def readTwoDigits : List Char → Option (Nat × List Char)
  | a :: b :: rest =>
    if a.isDigit && b.isDigit then some (Decimal.value [a, b], rest) else none
  | _ => none

/-- Read an offset of hours and minutes behind its sign, in seconds. -/
def readHoursMinutes (s : List Char) : Option (Int × List Char) := do
  let (hours, s) ← readTwoDigits s
  let s := s.dropWhile fun c => c = ':' || Text.isBlank c
  let (minutes, s) ← readTwoDigits s
  if minutes < 60 then some (3600 * hours + 60 * minutes, s) else none

/-- Read an offset from universal time in seconds: the letters `UTC` or `Z` in
any case, or a sign with hours and minutes. -/
def readOffset (s : List Char) : Option (Int × List Char) :=
  let s := Text.trimLeft s
  if Decimal.spells "utc" (s.take 3) then some (0, s.drop 3)
  else
    match s with
    | 'Z' :: rest | 'z' :: rest => some (0, rest)
    | '+' :: rest => readHoursMinutes rest
    | '-' :: rest | '\u2212' :: rest => (readHoursMinutes rest).map fun r => (-r.1, r.2)
    | _ => none

/-- The instant of a date, a time of day and an offset from universal time, when
all of them exist. Second 60 is the leap second that follows second 59. -/
def ofFields? (date : Date) (hour minute second nanos : Nat) (offset : Int) : Option Instant :=
  if date.IsValid ∧ hour < 24 ∧ minute < 60 ∧ second ≤ 60 ∧
      -86400 < offset ∧ offset < 86400 then
    let seconds : Int := 3600 * hour + 60 * minute + (if second = 60 then 59 else second)
    let nanos := if second = 60 then nanos + 1000000000 else nanos
    let here : Instant := ⟨86400 * date.dayNumber + seconds, nanos⟩
    let there := here.addSeconds (-offset)
    if here.inRange && there.inRange then some there else none
  else none

/-- The instant that a text stands for. -/
def read? (text : String) : Option Instant := do
  let (year, s) ← readYear text.toList
  let s ← readSeparator '-' s
  let (month, s) ← readNumber 2 s
  let s ← readSeparator '-' s
  let (day, s) ← readNumber 2 s
  match s with
  | mark :: s =>
    if mark = 'T' || mark = 't' || mark = ' ' then
      let (hour, s) ← readNumber 2 s
      let s ← readSeparator ':' s
      let (minute, s) ← readNumber 2 s
      let s ← readSeparator ':' s
      let (second, s) ← readNumber 2 s
      let (nanos, s) ← readFraction s
      let (offset, s) ← readOffset s
      if (Text.trimLeft s).isEmpty then
        ofFields? ⟨year, month, day⟩ hour minute second nanos offset
      else none
    else none
  | [] => none

end Instant

end Chargeback
