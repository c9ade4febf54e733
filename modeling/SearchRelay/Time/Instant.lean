import SearchRelay.Text.Decimal
import SearchRelay.Text.Space
import SearchRelay.Time.Calendar

/-!
Points in time and their texts. A text gives date, time and the distance from universal time.
Reading is more generous than writing: blanks may stand before numbers, `T` may be a blank, and
digits beyond the nanosecond are left out.
-/

namespace SearchRelay

/-- A point in time: seconds since the first of January 1970 and nanoseconds. Within a leap second
the nanoseconds go on beyond a billion. -/
structure Instant where
  seconds : Int
  nanos : Nat
deriving DecidableEq, Repr

namespace Instant

def billion : Nat := 1000000000

def daySeconds : Int := 86400

/-- The first and the last year that a point in time can have. -/
def minYear : Int := -262143
def maxYear : Int := 262142

/-- The point in time a whole number of seconds after the beginning of 1970. Beyond the years that
can be shown, that beginning stands for it. -/
def ofSeconds (seconds : Int) : Instant :=
  let year := (Date.ofDays (seconds / daySeconds)).year
  if minYear ≤ year ∧ year ≤ maxYear then ⟨seconds, 0⟩ else ⟨0, 0⟩

/-! ### Writing -/

def padded (width n : Nat) : List Char :=
  let digits := Text.decimal n
  List.replicate (width - digits.length) '0' ++ digits

/-- A year; one that four digits cannot show carries its sign. -/
def yearText (year : Int) : List Char :=
  if 0 ≤ year ∧ year ≤ 9999 then padded 4 year.toNat
  else (if year < 0 then '-' else '+') :: padded 4 year.natAbs

/-- The fraction of a second in three, six or nine digits, as few as are needed. -/
def fractionText (nanos : Nat) : List Char :=
  if nanos = 0 then []
  else if nanos % 1000000 = 0 then '.' :: padded 3 (nanos / 1000000)
  else if nanos % 1000 = 0 then '.' :: padded 6 (nanos / 1000)
  else '.' :: padded 9 nanos

/-- Date and time, without the distance from universal time. -/
def clockText (instant : Instant) : List Char :=
  let date := Date.ofDays (instant.seconds / daySeconds)
  let second := (instant.seconds % daySeconds).toNat
  let leap := instant.nanos / billion
  yearText date.year ++ '-' :: padded 2 date.month ++ '-' :: padded 2 date.day ++ 'T' ::
    padded 2 (second / 3600) ++ ':' :: padded 2 (second / 60 % 60) ++ ':' ::
    padded 2 (second % 60 + leap) ++ fractionText (instant.nanos % billion)

def text (instant : Instant) : List Char := instant.clockText ++ "+00:00".toList

def zuluText (instant : Instant) : List Char := instant.clockText ++ ['Z']

/-! ### Reading -/

/-- Reads at most some number of digits, at least one, as a number below `2 ^ 63`. -/
def digits? (most : Nat) (text : List Char) : Option (Nat × List Char) :=
  let digits := (text.take most).takeWhile Char.isDigit
  if digits.isEmpty then none
  else ((Text.readDigits 0 digits).filter (· < Nat.pow 2 63)).map
    fun value => (value, text.drop digits.length)

def skipBlanks (text : List Char) : List Char := text.dropWhile Text.isSpace

/-- Reads a number of two digits in a range. Blanks may stand before it. -/
def two? (low high : Nat) (text : List Char) : Option (Nat × List Char) := do
  let (value, rest) ← digits? 2 (skipBlanks text)
  if low ≤ value ∧ value ≤ high then some (value, rest) else none

def separator? (mark : Char) (text : List Char) : Option (List Char) :=
  match skipBlanks text with
  | c :: rest => if c = mark then some rest else none
  | [] => none

/-- Reads a year: four digits at most, or any number of them after a sign. -/
def year? (text : List Char) : Option (Int × List Char) :=
  let text := skipBlanks text
  match text with
  | '-' :: rest => (digits? rest.length rest).map fun (value, rest) => (-(value : Int), rest)
  | '+' :: rest => (digits? rest.length rest).map fun (value, rest) => ((value : Int), rest)
  | _ => (digits? 4 text).map fun (value, rest) => ((value : Int), rest)

/-- Reads the fraction of a second, if there is one, in nanoseconds. -/
def fraction? (text : List Char) : Option (Nat × List Char) :=
  match text with
  | '.' :: rest => do
    let (value, after) ← digits? 9 rest
    let used := rest.length - after.length
    return (value * Nat.pow 10 (9 - used), after.dropWhile Char.isDigit)
  | _ => some (0, text)

def pair? (bound : Nat) : List Char → Option (Nat × List Char)
  | a :: b :: rest =>
    let value := Text.digitValue a * 10 + Text.digitValue b
    if a.isDigit && b.isDigit && value < bound then some (value, rest) else none
  | _ => none

/-- Reads the distance from universal time in seconds: a letter, a word, or a sign with hours and
minutes. -/
def distance? (text : List Char) : Option (Int × List Char) :=
  match text with
  | 'Z' :: rest | 'z' :: rest => some (0, rest)
  | _ =>
    if (text.take 3).map Char.toUpper = ['U', 'T', 'C'] then some (0, text.drop 3)
    else
      match text with
      | sign :: rest =>
        if sign = '+' ∨ sign = '-' ∨ sign = '\u2212' then do
          let (hours, rest) ← pair? 100 rest
          let (minutes, rest) ← pair? 60 (rest.dropWhile fun c => c == ':' || Text.isSpace c)
          let seconds : Int := hours * 3600 + minutes * 60
          return (if sign = '+' then seconds else -seconds, rest)
        else none
      | [] => none

/-- The point in time of a date, a time of day and a distance, if all of it exists. -/
def ofParts (date : Date) (hour minute second nanos : Nat) (distance : Int) : Option Instant :=
  if date.isValid ∧ minYear ≤ date.year ∧ date.year ≤ maxYear ∧ distance.natAbs < 86400 then
    let (second, nanos) := if second = 60 then (59, nanos + billion) else (second, nanos)
    let wall := date.toDays * daySeconds + (hour * 3600 + minute * 60 + second : Nat)
    let seconds := wall - distance
    let year := (Date.ofDays (seconds / daySeconds)).year
    if minYear ≤ year ∧ year ≤ maxYear then some ⟨seconds, nanos⟩ else none
  else none

def parse? (text : List Char) : Option Instant := do
  let (year, text) ← year? text
  let text ← separator? '-' text
  let (month, text) ← two? 1 12 text
  let text ← separator? '-' text
  let (day, text) ← two? 1 31 text
  let text ← match text with
    | c :: rest => if c = 'T' ∨ c = 't' ∨ c = ' ' then some rest else none
    | [] => none
  let (hour, text) ← two? 0 23 text
  let text ← separator? ':' text
  let (minute, text) ← two? 0 59 text
  let text ← separator? ':' text
  let (second, text) ← two? 0 60 text
  let (nanos, text) ← fraction? text
  let (distance, text) ← distance? (skipBlanks text)
  if (skipBlanks text).isEmpty then
    ofParts ⟨year, month, day⟩ hour minute second nanos distance
  else none

end Instant

end SearchRelay
