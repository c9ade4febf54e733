/-!
Decimal numerals of natural numbers: reading one that fits 64 bits, and the grouping of digits by
thousands.
-/

namespace SearchRelay.Text

def maxWord : Nat := Nat.pow 2 64 - 1

def digitValue (c : Char) : Nat := c.toNat - '0'.toNat

/-- The value of a run of digits after those that gave `value`, as long as it fits 64 bits. -/
def readDigits : Nat → List Char → Option Nat
  | value, [] => some value
  | value, c :: rest =>
    let next := value * 10 + digitValue c
    if c.isDigit && next ≤ maxWord then readDigits next rest else none

/-- Reads a number of at most 64 bits. One plus sign may stand before the digits. -/
def readWord? (text : List Char) : Option Nat :=
  let digits := match text with
    | '+' :: rest => rest
    | _ => text
  if digits.isEmpty then none else readDigits 0 digits

def decimal (n : Nat) : List Char := Nat.toDigits 10 n

/-- Groups digits by threes from the right, on the reversed numeral. -/
def groupReversed : List Char → List Char
  | a :: b :: c :: d :: rest => a :: b :: c :: ',' :: groupReversed (d :: rest)
  | short => short

def grouped (n : Nat) : String := String.ofList (groupReversed (decimal n).reverse).reverse

end SearchRelay.Text
