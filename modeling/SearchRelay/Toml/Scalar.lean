import SearchRelay.Json.Decode
import SearchRelay.Settings.Value
import SearchRelay.Time.Calendar

/-!
Bare values of settings files: truth values, numbers, dates and times of day. They are told apart
by their characters alone.
-/

namespace SearchRelay.Toml

def isBareChar (c : Char) : Bool :=
  c.isAlphanum || c == '+' || c == '-' || c == '_' || c == '.' || c == ':'

/-! ### Numbers -/

/-- The digits of a number in a base, underscores left out; each of these stands between two
digits. -/
def baseDigits? (base : Nat) (text : List Char) : Option (List Nat) :=
  let groups := text.splitOnP (· == '_')
  if groups.any List.isEmpty then none
  else groups.flatten.mapM fun c => (Text.hexValue? c).filter (· < base)

/-- The number of digits in a base, as long as it fits 63 bits. -/
def baseNumber? (base : Nat) (text : List Char) : Option SettingValue := do
  let digits ← baseDigits? base text
  let value : Nat := digits.foldl (fun value digit => value * base + digit) 0
  if value < Nat.pow 2 63 then some (.integer value) else none

/-- A sign before a bare value, and what follows it. -/
def signed (text : List Char) : Bool × List Char :=
  match text with
  | '-' :: rest => (true, rest)
  | '+' :: rest => (false, rest)
  | _ => (false, text)

/-- A decimal integer. A zero may begin it only if nothing follows. -/
def integer? (text : List Char) : Option SettingValue := do
  let (negative, rest) := signed text
  let digits ← baseDigits? 10 rest
  if digits.length ≠ 1 ∧ digits.head? = some 0 then none
  else
    let size : Nat := digits.foldl (fun value digit => value * 10 + digit) 0
    let value : Int := if negative then -size else size
    if -(Int.pow 2 63) ≤ value ∧ value < Int.pow 2 63 then some (.integer value) else none

def underscoresBetween : List Char → Bool
  | a :: '_' :: b :: rest => a.isDigit && b.isDigit && underscoresBetween (b :: rest)
  | a :: rest => a != '_' && underscoresBetween rest
  | [] => true

def real? (text : List Char) : Option SettingValue :=
  let (negative, rest) := signed text
  if rest = ['i', 'n', 'f'] ∨ rest = ['n', 'a', 'n'] then some .real
  else if !rest.any (fun c => c == '.' || c == 'e' || c == 'E') || !underscoresBetween rest then none
  else
    let plain := rest.filter (· != '_')
    let text := if negative then '-' :: plain else plain
    (Json.decode? .float text).map fun _ => .real

/-! ### Dates and times -/

def digits? (count : Nat) (text : List Char) : Option (Nat × List Char) :=
  let digits := text.take count
  if digits.length = count ∧ digits.all Char.isDigit then
    some (digits.foldl (fun value c => value * 10 + (c.toNat - '0'.toNat)) 0, text.drop count)
  else none

def character? (expected : Char) : List Char → Option (List Char)
  | c :: rest => if c = expected then some rest else none
  | [] => none

def date? (text : List Char) : Option (List Char) := do
  let (year, text) ← digits? 4 text
  let (month, text) ← digits? 2 (← character? '-' text)
  let (day, text) ← digits? 2 (← character? '-' text)
  if (Date.mk year month day).isValid then some text else none

def time? (text : List Char) : Option (List Char) := do
  let (hour, text) ← digits? 2 text
  let (minute, text) ← digits? 2 (← character? ':' text)
  let (second, text) ← digits? 2 (← character? ':' text)
  if hour < 24 ∧ minute < 60 ∧ second ≤ 60 then
    match text with
    | '.' :: rest => if rest.head?.any Char.isDigit then some (rest.dropWhile Char.isDigit) else none
    | _ => some text
  else none

/-- Reads a distance from universal time; there may be none. -/
def distance? (text : List Char) : Option (List Char) :=
  match text with
  | 'Z' :: rest | 'z' :: rest => some rest
  | sign :: rest =>
    if sign = '+' ∨ sign = '-' then do
      let (hours, rest) ← digits? 2 rest
      let (minutes, rest) ← digits? 2 (← character? ':' rest)
      if hours < 24 ∧ minutes < 60 then some rest else none
    else some text
  | [] => some []

/-- A date, a time of day, or both. -/
def isMoment (text : List Char) : Bool :=
  match date? text with
  | some [] => true
  | some (mark :: rest) =>
    (mark = 'T' || mark = 't' || mark = ' ') && (time? rest).bind distance? == some []
  | none => time? text == some []

/-! ### Bare values -/

/-- What a bare value stands for. A date or a time is a group of parts that no setting asks for. -/
def bare? (text : List Char) : Option SettingValue :=
  match text with
  | ['t', 'r', 'u', 'e'] => some (.boolean true)
  | ['f', 'a', 'l', 's', 'e'] => some (.boolean false)
  | '0' :: 'x' :: rest => baseNumber? 16 rest
  | '0' :: 'o' :: rest => baseNumber? 8 rest
  | '0' :: 'b' :: rest => baseNumber? 2 rest
  | _ =>
    match integer? text, real? text with
    | some value, _ | none, some value => some value
    | none, none => if isMoment text then some (.group []) else none

/-- Reads a bare value. A blank after a date belongs to it if a time of day follows. -/
def bare (input : List Char) : Option (SettingValue × List Char) :=
  let text := input.takeWhile isBareChar
  let rest := input.dropWhile isBareChar
  match rest with
  | ' ' :: after =>
    if date? text = some [] ∧ after.head?.any Char.isDigit then
      let text := text ++ ' ' :: after.takeWhile isBareChar
      (bare? text).map fun value => (value, after.dropWhile isBareChar)
    else (bare? text).map fun value => (value, rest)
  | _ => (bare? text).map fun value => (value, rest)

end SearchRelay.Toml
