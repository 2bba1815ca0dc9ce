import Scriptorium.Text.Blank

/-!
# Timestamps

A timestamp is a moment in universal time to the nanosecond.  It is written as a date and a time
with `Z`, and in file names as a slug.  It is read with any offset; a leap second is kept as a
sixtieth second.
-/

namespace Scriptorium.Archive

/-- Seconds since 1970 and nanoseconds; from a whole second of nanoseconds on the second is a leap
second that follows the one counted. -/
structure Timestamp where
  seconds : Int
  nanos : Nat
  deriving Repr, DecidableEq, Inhabited

namespace Timestamp

/-- The number of days from 1970 to a date. -/
def daysOf (year month day : Int) : Int :=
  let y := if month ≤ 2 then year - 1 else year
  let era := y.fdiv 400
  let yoe := y - era * 400
  let doy := (153 * (if 2 < month then month - 3 else month + 9) + 2) / 5 + day - 1
  era * 146097 + (yoe * 365 + yoe / 4 - yoe / 100 + doy) - 719468

/-- The date of a number of days from 1970. -/
def dateOf (days : Int) : Int × Int × Int :=
  let z := days + 719468
  let era := z.fdiv 146097
  let doe := z - era * 146097
  let yoe := (doe - doe / 1460 + doe / 36524 - doe / 146096) / 365
  let doy := doe - (365 * yoe + yoe / 4 - yoe / 100)
  let mp := (5 * doy + 2) / 153
  let day := doy - (153 * mp + 2) / 5 + 1
  let month := if mp < 10 then mp + 3 else mp - 9
  (yoe + era * 400 + (if month ≤ 2 then 1 else 0), month, day)

def isLeap (year : Int) : Bool :=
  year.fmod 4 == 0 && (year.fmod 100 != 0 || year.fmod 400 == 0)

def monthLength (year month : Int) : Int :=
  if month = 2 then (if isLeap year then 29 else 28)
  else if month = 4 ∨ month = 6 ∨ month = 9 ∨ month = 11 then 30 else 31

/-- The parts of a moment as they are written down. -/
structure Fields where
  year : Int
  month : Int
  day : Int
  hour : Int
  minute : Int
  second : Int
  nanos : Nat
  deriving Repr, DecidableEq

/-- The moment that fields stand for, if they are a date and a time; `offset` is in seconds. -/
def ofFields? (f : Fields) (offset : Int) : Option Timestamp :=
  if 1 ≤ f.month ∧ f.month ≤ 12 ∧ 1 ≤ f.day ∧ f.day ≤ monthLength f.year f.month ∧ f.hour ≤ 23
      ∧ f.minute ≤ 59 ∧ f.second ≤ 60 ∧ -262143 ≤ f.year ∧ f.year ≤ 262142
      ∧ -86400 < offset ∧ offset < 86400 then
    let leap := f.second = 60
    some ⟨daysOf f.year f.month f.day * 86400 + f.hour * 3600 + f.minute * 60
        + (if leap then 59 else f.second) - offset,
      if leap then f.nanos + 1000000000 else f.nanos⟩
  else none

def fields (t : Timestamp) : Fields :=
  let days := t.seconds.fdiv 86400
  let rest := t.seconds - days * 86400
  let (year, month, day) := dateOf days
  let leap := 1000000000 ≤ t.nanos
  ⟨year, month, day, rest / 3600, rest / 60 % 60, rest % 60 + (if leap then 1 else 0),
    if leap then t.nanos - 1000000000 else t.nanos⟩

def le (a b : Timestamp) : Bool :=
  a.seconds < b.seconds || (a.seconds == b.seconds && a.nanos ≤ b.nanos)

/-! ## Writing -/

def padded (width n : Nat) : String :=
  let ds := Nat.toDigits 10 n
  String.ofList (List.replicate (width - ds.length) '0' ++ ds)

/-- A year: four digits, and outside their range a sign. -/
def yearText (y : Int) : String :=
  if 0 ≤ y ∧ y ≤ 9999 then padded 4 y.toNat
  else if y < 0 then "-" ++ padded 4 (-y).toNat
  else "+" ++ padded 4 y.toNat

/-- The fraction of a second in no, three, six or nine digits. -/
def fractionText (nanos : Nat) : String :=
  if nanos = 0 then ""
  else if nanos % 1000000 = 0 then "." ++ padded 3 (nanos / 1000000)
  else if nanos % 1000 = 0 then "." ++ padded 6 (nanos / 1000)
  else "." ++ padded 9 nanos

def text (t : Timestamp) : String :=
  let f := t.fields
  yearText f.year ++ "-" ++ padded 2 f.month.toNat ++ "-" ++ padded 2 f.day.toNat ++ "T"
    ++ padded 2 f.hour.toNat ++ ":" ++ padded 2 f.minute.toNat ++ ":" ++ padded 2 f.second.toNat
    ++ fractionText f.nanos ++ "Z"

/-- Date and time to the microsecond, as they stand in file names. -/
def slug (t : Timestamp) : String :=
  let f := t.fields
  yearText f.year ++ padded 2 f.month.toNat ++ padded 2 f.day.toNat ++ "_"
    ++ padded 2 f.hour.toNat ++ padded 2 f.minute.toNat ++ padded 2 f.second.toNat ++ "_"
    ++ padded 6 (f.nanos / 1000)

/-! ## Reading -/

def numberOf (ds : List Char) : Nat := ds.foldl (fun acc c => acc * 10 + (c.toNat - '0'.toNat)) 0

/-- Reads a number of at least `least` and at most `most` digits. -/
def readNumber (least most : Nat) (cs : List Char) : Option (Nat × List Char) :=
  let ds := (cs.take most).takeWhile Char.isDigit
  if ds.length < least then none else some (numberOf ds, cs.drop ds.length)

def readChar (c : Char) : List Char → Option (List Char)
  | d :: r => if c = d then some r else none
  | [] => none

/-- Takes the letter or the blank between date and time. -/
def readSeparator : List Char → Option (List Char)
  | c :: r => if c = 'T' ∨ c = 't' ∨ c = ' ' then some r else none
  | [] => none

/-- Reads a fraction of a second, if there is one; digits after the ninth do not count. -/
def readFraction : List Char → Option (Nat × List Char)
  | '.' :: r =>
    let ds := (r.take 9).takeWhile Char.isDigit
    if ds.isEmpty then none
    else some (numberOf ds * Nat.pow 10 (9 - ds.length), r.dropWhile Char.isDigit)
  | r => some (0, r)

/-- Reads the minutes of an offset. -/
def readOffsetMinutes (negative : Bool) (hours : Nat) (cs : List Char) :
    Option (Int × List Char) := do
  let (minutes, r) ← readNumber 2 2 cs
  if 59 < minutes then none
  else
    let s : Int := (hours * 3600 + minutes * 60 : Nat)
    some (if negative then -s else s, r)

/-- Reads an offset; `colon` takes what stands between hours and minutes. -/
def readOffset (colon : List Char → Option (List Char)) : List Char → Option (Int × List Char)
  | [] => none
  | c :: r =>
    if c = 'Z' ∨ c = 'z' then some (0, r)
    else if c = '+' ∨ c = '-' ∨ c = '−' then do
      let (hours, r) ← readNumber 2 2 r
      readOffsetMinutes (c != '+') hours (← colon r)
    else none

/-- Reads a date and a time in the strict form: every number has its full width. -/
def ofText? (s : String) : Option Timestamp := do
  let (year, r) ← readNumber 4 4 s.toList
  let (month, r) ← readNumber 2 2 (← readChar '-' r)
  let (day, r) ← readNumber 2 2 (← readChar '-' r)
  let (hour, r) ← readNumber 2 2 (← readSeparator r)
  let (minute, r) ← readNumber 2 2 (← readChar ':' r)
  let (second, r) ← readNumber 2 2 (← readChar ':' r)
  let (nanos, r) ← readFraction r
  let (offset, r) ← readOffset (readChar ':') r
  if r.isEmpty then ofFields? ⟨year, month, day, hour, minute, second, nanos⟩ offset else none

/-- Reads a year that may have a sign, and then any number of digits. -/
def readYear (cs : List Char) : Option (Int × List Char) :=
  match Text.dropBlanks cs with
  | '-' :: r => (readNumber 1 r.length r).map fun (n, r) => (-n, r)
  | '+' :: r => (readNumber 1 r.length r).map fun (n, r) => (n, r)
  | r => (readNumber 1 4 r).map fun (n, r) => (n, r)

/-- Reads a number of one or two digits after blanks. -/
def readShort (cs : List Char) : Option (Nat × List Char) := readNumber 1 2 (Text.dropBlanks cs)

/-- Takes a character after blanks. -/
def readMark (c : Char) (cs : List Char) : Option (List Char) := readChar c (Text.dropBlanks cs)

/-- Reads a date and a time in the relaxed form: blanks may stand between the parts, leading zeros
and the colon of the offset may be missing, and the offset may be named. -/
def ofRelaxedText? (s : String) : Option Timestamp := do
  let (year, r) ← readYear s.toList
  let (month, r) ← readShort (← readMark '-' r)
  let (day, r) ← readShort (← readMark '-' r)
  let (hour, r) ← readShort (← readSeparator r)
  let (minute, r) ← readShort (← readMark ':' r)
  let (second, r) ← readShort (← readMark ':' r)
  let (nanos, r) ← readFraction r
  let r := Text.dropBlanks r
  let named := (r.take 3).map Char.toUpper = ['U', 'T', 'C']
  let (offset, r) ←
    if named then some (0, r.drop 3)
    else readOffset (fun r => some (r.dropWhile fun c => c == ':' || Text.isBlank c)) r
  if (Text.dropBlanks r).isEmpty then
    ofFields? ⟨year, month, day, hour, minute, second, nanos⟩ offset
  else none

end Timestamp

end Scriptorium.Archive
