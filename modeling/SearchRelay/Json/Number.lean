import SearchRelay.Json.Binary64
import SearchRelay.Text.Decimal

/-!
Numbers of the data format. A numeral without a fraction and an exponent that fits 64 bits is an
integer; every other numeral, minus zero included, is a double. The two never equal each other.
-/

namespace SearchRelay

/-- An integer between `-2 ^ 63` and `2 ^ 64 - 1`, or a finite double. -/
inductive Number where
  | int (value : Int)
  | float (value : Binary64)
deriving DecidableEq, Repr

namespace Number

/-- Equality of numbers as values: an integer never equals a double. -/
def same : Number → Number → Bool
  | int a, int b => a == b
  | float a, float b => a.same b
  | _, _ => false

def toFloat : Number → Binary64
  | int value => .ofInt value
  | float value => value

def toWord? : Number → Option Nat
  | int (.ofNat n) => some n
  | _ => none

def text : Number → List Char
  | int (.ofNat n) => Text.decimal n
  | int (.negSucc n) => '-' :: Text.decimal (n + 1)
  | float value => value.text

end Number

/-- The parts of a numeral: sign, digits before the point, digits after it, and the exponent with
its sign. -/
structure Numeral where
  negative : Bool
  whole : List Char
  fraction : Option (List Char)
  exponent : Option (Bool × List Char)
deriving DecidableEq, Repr

namespace Numeral

/-- Cuts the exponent off; nothing may follow it, and it has a digit. -/
def exponentPart? : List Char → Option (Option (Bool × List Char))
  | [] => some none
  | mark :: rest =>
    if mark = 'e' || mark = 'E' then
      let (negative, digits) := match rest with
        | '+' :: digits => (false, digits)
        | '-' :: digits => (true, digits)
        | digits => (false, digits)
      if !digits.isEmpty && digits.all Char.isDigit then some (some (negative, digits)) else none
    else none

/-- Cuts the fraction off; it has a digit. -/
def fractionPart? : List Char → Option (Option (List Char) × List Char)
  | '.' :: rest =>
    let digits := rest.takeWhile Char.isDigit
    if digits.isEmpty then none else some (some digits, rest.dropWhile Char.isDigit)
  | rest => some (none, rest)

/-- The digits before the point: one zero, or digits that do not start with one. -/
def wholePart? (text : List Char) : Option (List Char × List Char) :=
  match text.takeWhile Char.isDigit with
  | [] => none
  | ['0'] => some (['0'], text.dropWhile Char.isDigit)
  | '0' :: _ => none
  | digits => some (digits, text.dropWhile Char.isDigit)

/-- Reads a numeral; the whole text belongs to it. -/
def ofText? (text : List Char) : Option Numeral := do
  let (negative, text) := match text with
    | '-' :: rest => (true, rest)
    | _ => (false, text)
  let (whole, text) ← wholePart? text
  let (fraction, text) ← fractionPart? text
  let exponent ← exponentPart? text
  return ⟨negative, whole, fraction, exponent⟩

/-- Adds digits to a significand as long as it fits 64 bits. Gives the significand and the digits
that no longer went in. -/
def gather : Nat → List Char → Nat × List Char
  | significand, [] => (significand, [])
  | significand, c :: rest =>
    let next := significand * 10 + Text.digitValue c
    if next ≤ Text.maxWord then gather next rest else (significand, c :: rest)

/-- The largest exponent that is kept exactly. -/
def maxExponent : Nat := Nat.pow 2 31 - 1

/-- An exponent's value, or nothing when it is larger than `maxExponent`. -/
def exponentValue : Nat → List Char → Option Nat
  | value, [] => some value
  | value, c :: rest =>
    let next := value * 10 + Text.digitValue c
    if next ≤ maxExponent then exponentValue next rest else none

/-- The magnitude of a numeral that is read as a double. The significand is the digits that fit 64
bits; digits of the whole part beyond them count as powers of ten, and those of the fraction are
left out. The significand is rounded once and then scaled, so the result is not always the nearest
double. -/
def magnitude? (numeral : Numeral) : Option Nat := do
  let (significand, spare) := gather 0 numeral.whole
  let (significand, taken) := match numeral.fraction with
    | none => (significand, 0)
    | some digits =>
      let (significand, left) := gather significand digits
      (significand, digits.length - left.length)
  let point := (spare.length : Int) - taken
  let steps := Binary64.round (significand * Binary64.one) 1
  match numeral.exponent with
  | none => Binary64.scale steps point
  | some (negative, digits) =>
    match exponentValue 0 digits with
    | some exponent => Binary64.scale steps (if negative then point - exponent else point + exponent)
    | none => if significand ≠ 0 ∧ !negative then none else some 0

/-- The number that a numeral stands for, if it is in range. -/
def toNumber? (numeral : Numeral) : Option Number :=
  let float := numeral.magnitude?.map fun steps => Number.float ⟨numeral.negative, steps⟩
  if numeral.fraction.isSome || numeral.exponent.isSome then float
  else
    match gather 0 numeral.whole with
    | (significand, []) =>
      if !numeral.negative then some (.int significand)
      else if 0 < significand && significand ≤ Nat.pow 2 63 then some (.int (-(significand : Int)))
      else float
    | _ => float

end Numeral

end SearchRelay
