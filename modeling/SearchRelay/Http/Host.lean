import SearchRelay.Text.Decimal
import SearchRelay.Text.Percent

/-!
Names and numbers of hosts. A name is written in small letters, with letters beyond the common
ones encoded; a name that ends in a number is an address and nothing else.
-/

namespace SearchRelay.Host

/-! ### Addresses of four numbers -/

def baseValue? (base : Nat) (digits : List Char) : Option Nat :=
  (digits.mapM fun c => (Text.hexValue? c).filter (· < base)).map fun values =>
    values.foldl (fun value digit => value * base + digit) 0

/-- A number of an address: decimal, or in base eight or sixteen by how it begins. -/
def number? (text : List Char) : Option Nat :=
  match text with
  | [] => none
  | '0' :: 'x' :: digits | '0' :: 'X' :: digits => baseValue? 16 digits
  | '0' :: c :: digits => baseValue? 8 (c :: digits)
  | _ => baseValue? 10 text

/-- The parts of a name between its points. A point at the end adds none. -/
def parts (name : List Char) : List (List Char) :=
  let all := name.splitOnP (· == '.')
  if 1 < all.length ∧ all.getLast? = some [] then all.dropLast else all

def endsInNumber (name : List Char) : Bool :=
  match (parts name).getLast? with
  | some last => !last.isEmpty && (last.all Char.isDigit || (number? last).isSome)
  | none => false

/-- The four bytes that numbers stand for. The last number fills what the others leave. -/
def ofNumbers? (numbers : List Nat) : Option (List Nat) :=
  match numbers.reverse with
  | [] => none
  | last :: before =>
    let left := 4 - before.length
    if 4 ≤ before.length ∨ before.any (255 < ·) ∨ Nat.pow 256 left ≤ last then none
    else some (before.reverse ++
      (List.range left).map fun place => last / Nat.pow 256 (left - 1 - place) % 256)

def address? (name : List Char) : Option (List Nat) := ((parts name).mapM number?).bind ofNumbers?

def addressText (bytes : List Nat) : List Char :=
  ['.'].intercalate (bytes.map Text.decimal)

/-! ### Addresses of eight groups -/

/-- Groups of an address; the last one may be written as four numbers. -/
def groups? : List (List Char) → Option (List Nat)
  | [] => some []
  | [last] =>
    if last.contains '.' then
      let numbers := last.splitOnP (· == '.')
      if numbers.length = 4 ∧ numbers.all (fun n => n.length = 1 ∨ n.head? ≠ some '0') then
        match numbers.mapM (baseValue? 10) with
        | some [a, b, c, d] =>
          if [a, b, c, d].all (· < 256) then some [a * 256 + b, c * 256 + d] else none
        | _ => none
      else none
    else if last.isEmpty ∨ 4 < last.length then none
    else (baseValue? 16 last).map fun group => [group]
  | first :: rest =>
    if first.isEmpty ∨ 4 < first.length then none
    else do
      let group ← baseValue? 16 first
      return group :: (← groups? rest)

def cutGap (done : List Char) : List Char → Option (List Char × List Char)
  | ':' :: ':' :: rest => some (done.reverse, rest)
  | c :: rest => cutGap (c :: done) rest
  | [] => none

def splitGroups (text : List Char) : List (List Char) :=
  if text.isEmpty then [] else text.splitOnP (· == ':')

/-- An address of eight groups; two colons in a row stand for groups of zeros. -/
def longAddress? (text : List Char) : Option (List Nat) :=
  match cutGap [] text with
  | none => (groups? (splitGroups text)).filter fun groups => groups.length = 8
  | some (left, right) => do
    let left ← groups? (splitGroups left)
    let right ← groups? (splitGroups right)
    if left.length + right.length < 8 then
      some (left ++ List.replicate (8 - left.length - right.length) 0 ++ right)
    else none

def groupText (group : Nat) : List Char := Nat.toDigits 16 group

def zeros (groups : List Nat) : Nat := (groups.takeWhile (· == 0)).length

/-- The place and the length of the first longest run of zeros, if it is longer than one. -/
def longestGap (groups : List Nat) : Option (Nat × Nat) :=
  let runs := (List.range 8).map fun place => (place, zeros (groups.drop place))
  let best := runs.foldl (fun best run => if best.2 < run.2 then run else best) (0, 1)
  if 1 < best.2 then some best else none

def longAddressText (groups : List Nat) : List Char :=
  let join (groups : List Nat) : List Char := [':'].intercalate (groups.map groupText)
  '[' :: (match longestGap groups with
    | some (place, length) =>
      join (groups.take place) ++ ':' :: ':' :: join (groups.drop (place + length))
    | none => join groups) ++ [']']

/-! ### Names -/

/-- The next step of the encoding of letters: how far apart they are on the average. -/
def adapt (delta count : Nat) (first : Bool) : Nat :=
  let rec go (fuel k delta : Nat) : Nat :=
    match fuel with
    | 0 => k
    | fuel + 1 => if 455 < delta then go fuel (k + 36) (delta / 35) else k + 36 * delta / (delta + 38)
  let delta := if first then delta / 700 else delta / 2
  go 64 0 (delta + delta / count)

def letterDigit (n : Nat) : Char := Char.ofNat (if n < 26 then n + 97 else n + 22)

/-- A number in digits whose weights depend on `bias`; `fuel` bounds the number of digits. -/
def letterNumber (bias : Nat) : (fuel k number : Nat) → List Char
  | 0, _, _ => []
  | fuel + 1, k, number =>
    let limit := if k ≤ bias then 1 else min (k - bias) 26
    if number < limit then [letterDigit number]
    else letterDigit (limit + (number - limit) % (36 - limit)) ::
      letterNumber bias fuel (k + 36) ((number - limit) / (36 - limit))

/-- What the encoder of letters knows: the next code to look for, the distance since the last
letter, the bias of the digits, the number of letters that are done, and the text so far. -/
structure Encoding where
  code : Nat
  delta : Nat
  bias : Nat
  done : Nat
  text : List Char

/-- Looks at one letter of the label while letters with the code `code` are written. -/
def Encoding.visit (plain code : Nat) (state : Encoding) (c : Char) : Encoding :=
  if c.toNat < code then { state with delta := state.delta + 1 }
  else if c.toNat = code then
    { state with delta := 0, done := state.done + 1,
                 bias := adapt state.delta (state.done + 1) (state.done == plain),
                 text := state.text ++ letterNumber state.bias 32 36 state.delta }
  else state

/-- Writes the letters with the next higher code; `fuel` bounds the number of codes. -/
def encodeFrom (label : List Char) (plain : Nat) : (fuel : Nat) → Encoding → List Char
  | 0, state => state.text
  | fuel + 1, state =>
    match ((label.map Char.toNat).filter (state.code ≤ ·)).min? with
    | none => state.text
    | some code =>
      let start := { state with delta := state.delta + (code - state.code) * (state.done + 1) }
      let state := label.foldl (Encoding.visit plain code) start
      encodeFrom label plain fuel { state with code := code + 1, delta := state.delta + 1 }

/-- A part of a name in common letters, digits and hyphens. -/
def encodeLabel (label : List Char) : List Char :=
  let label := label.map Char.toLower
  if label.all (·.toNat < 128) then label
  else
    let plain := label.filter (·.toNat < 128)
    let start := if plain.isEmpty then [] else plain ++ ['-']
    ['x', 'n', '-', '-'] ++
      encodeFrom label plain.length label.length ⟨128, 0, 72, plain.length, start⟩

def isForbidden (c : Char) : Bool :=
  c.toNat == 0 || "\t\n\r #/:<>?@[\\]^|".toList.contains c

def isForbiddenInName (c : Char) : Bool :=
  isForbidden c || c.toNat < 0x20 || c == '%' || c.toNat == 0x7F

/-- The host of a common kind of address, as it is written. -/
def name? (text : List Char) : Option (List Char) :=
  let decoded := Text.decodeLossy (Text.percentDecode text)
  let name := ['.'].intercalate ((decoded.splitOnP (· == '.')).map encodeLabel)
  if name.isEmpty ∨ name.any isForbiddenInName then none
  else if endsInNumber name then (address? name).map addressText
  else some name

/-- A host in brackets, or one of a common kind. -/
def parse? (text : List Char) : Option (List Char) :=
  match text with
  | '[' :: rest =>
    if rest.getLast? = some ']' then (longAddress? rest.dropLast).map longAddressText else none
  | _ => name? text

end SearchRelay.Host
