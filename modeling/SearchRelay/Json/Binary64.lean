/-!
Finite double-precision numbers as whole multiples of the smallest step `2 ^ -1074`. Every
operation is exact arithmetic on natural numbers followed by one rounding to the nearest number
with 53 significant bits, ties to even, so two doubles compare as the integers they stand for.
-/

namespace SearchRelay

/-- A finite double: a sign and a number of steps of `2 ^ -1074`. Zero has both signs. -/
structure Binary64 where
  negative : Bool
  steps : Nat
deriving DecidableEq, Repr

namespace Binary64

def one : Nat := Nat.pow 2 1074

/-- The first number of steps that is too large for a double. -/
def limit : Nat := Nat.pow 2 2098

/-- The nearest integer to a quotient; a tie goes to the even neighbour. -/
def nearest (num den : Nat) : Nat :=
  let below := num / den
  let doubled := 2 * (num % den)
  if doubled < den then below else if den < doubled then below + 1 else below + below % 2

/-- How many low bits a number of steps loses when it keeps 53 significant ones. -/
def excess (steps : Nat) : Nat := Nat.log2 steps + 1 - 53

/-- The number of steps nearest to a quotient among those with at most 53 significant bits. -/
def round (num den : Nat) : Nat :=
  let spare := Nat.pow 2 (excess (num / den))
  nearest num (den * spare) * spare

def zero (negative : Bool) : Binary64 := ⟨negative, 0⟩

def ofNat (n : Nat) : Binary64 := ⟨false, round (n * one) 1⟩

def ofInt (n : Int) : Binary64 := ⟨n < 0, round (n.natAbs * one) 1⟩

def neg (x : Binary64) : Binary64 := { x with negative := !x.negative }

def mulSteps (x y : Nat) : Nat := round (x * y) one

def divSteps (x y : Nat) : Nat := round (x * one) y

/-- The value in steps, with its sign. Both zeros have the value zero. -/
def value (x : Binary64) : Int := if x.negative then -(x.steps : Int) else x.steps

/-- Numerical order. Doubles that are equal as numbers are equal here, zeros included. -/
def compare (x y : Binary64) : Ordering := Ord.compare x.value y.value

def same (x y : Binary64) : Bool := x.value == y.value

/-- The number of steps in a power of ten that a double can hold. -/
def powerOfTen (exponent : Nat) : Nat := round (Nat.pow 10 exponent * one) 1

/-- `steps * 10 ^ exponent`. A positive power is one multiplication and may overflow. A negative
power is one division by a power of ten up to `10 ^ 308`, after as many divisions by `10 ^ 308`
as are needed to get there, each of them rounded. -/
def scale (steps : Nat) (exponent : Int) : Option Nat :=
  if exponent < -308 then
    if steps = 0 then some 0 else scale (divSteps steps (powerOfTen 308)) (exponent + 308)
  else if 308 < exponent then
    if steps = 0 then some 0 else none
  else if 0 ≤ exponent then
    some (mulSteps steps (powerOfTen exponent.toNat)) |>.filter (· < limit)
  else some (divSteps steps (powerOfTen exponent.natAbs))
termination_by exponent.natAbs
decreasing_by omega

/-- Digits, as a number, and the place of the decimal point: `0.d₁d₂… * 10 ^ point`. -/
structure Shortest where
  digits : List Char
  point : Int

/-- The two reals between which a text reads back as `steps`, times four; the ends belong to the
interval when the last significant bit is zero. -/
def interval (steps : Nat) : Nat × Nat × Bool :=
  let spare := Nat.pow 2 (excess steps)
  let below := if steps = Nat.pow 2 (Nat.log2 steps) ∧ 1 < spare then spare else 2 * spare
  (4 * steps - below, 4 * steps + 2 * spare, (steps / spare) % 2 == 0)

/-- The multiple of `grid` steps (a quotient) nearest to `steps` that lies in the interval, if one
of the two neighbours does; a tie goes to the even one. -/
def onGrid (steps gridNum gridDen : Nat) : Option Nat :=
  let (low, high, ends) := interval steps
  let below := steps * gridDen / gridNum
  let inside (k : Nat) : Bool :=
    let place := 4 * k * gridNum
    if ends then low * gridDen ≤ place && place ≤ high * gridDen
    else low * gridDen < place && place < high * gridDen
  let rest := 2 * (steps * gridDen - below * gridNum)
  let nearer := if rest < gridNum then below
    else if gridNum < rest then below + 1 else below + below % 2
  let other := if nearer = below then below + 1 else below
  if inside nearer then some nearer else if inside other then some other else none

/-- The place of the first digit of a positive number: the `e` with
`10 ^ (e - 1) ≤ steps < 10 ^ e` in units of one. Below one it is read off the inverse, because no
power of ten below one is a double. -/
def pointOf (steps : Nat) : Int :=
  if one ≤ steps then (Nat.toDigits 10 (steps / one)).length
  else 1 - ((Nat.toDigits 10 (one / steps)).length : Int)

/-- The fewest digits that read back as a positive double, and of those the nearest. -/
def shortestFrom (steps : Nat) (point : Int) : Nat → Nat → Shortest
  | 0, _ => ⟨['0'], point⟩
  | tries + 1, places =>
    -- the grid of numbers with `places` digits: multiples of `10 ^ (point - places)`
    let exponent := point - places
    let gridNum := if 0 ≤ exponent then one * Nat.pow 10 exponent.toNat else one
    let gridDen := if 0 ≤ exponent then 1 else Nat.pow 10 exponent.natAbs
    match onGrid steps gridNum gridDen with
    | some k =>
      let digits := Nat.toDigits 10 k
      ⟨(digits.reverse.dropWhile (· == '0')).reverse, point + digits.length - places⟩
    | none => shortestFrom steps point tries (places + 1)

/-- The fewest digits that read back; seventeen always do. -/
def shortest (steps : Nat) : Shortest := shortestFrom steps (pointOf steps) 17 1

/-- The text of a magnitude: positional from `1e-5` up to `1e16`, else with an exponent that
carries its sign. -/
def magnitudeText (steps : Nat) : List Char :=
  if steps = 0 then ['0', '.', '0']
  else
    let ⟨digits, point⟩ := shortest steps
    let count := digits.length
    if 0 < point && point ≤ 16 then
      let whole := point.toNat
      if count ≤ whole then digits ++ List.replicate (whole - count) '0' ++ ['.', '0']
      else digits.take whole ++ '.' :: digits.drop whole
    else if -5 < point && point ≤ 0 then
      ['0', '.'] ++ List.replicate point.natAbs '0' ++ digits
    else
      let exponent := point - 1
      let mantissa := match digits with
        | [d] => [d]
        | d :: rest => d :: '.' :: rest
        | [] => []
      mantissa ++ 'e' :: (if exponent < 0 then '-' else '+') :: Nat.toDigits 10 exponent.natAbs

def text (x : Binary64) : List Char :=
  if x.negative then '-' :: magnitudeText x.steps else magnitudeText x.steps

end Binary64

end SearchRelay
