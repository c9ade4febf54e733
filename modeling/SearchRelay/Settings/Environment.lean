import SearchRelay.Settings.Value
import SearchRelay.Text.Decimal
import SearchRelay.Text.Space
import SearchRelay.Toml.Text

/-!
Settings from the environment. A variable names a setting by its sections with two underscores
between them; capital letters do not matter. What the variable holds is a truth value, a number,
a list or a group if it can be read as one, and a text otherwise.
-/

namespace SearchRelay.Environment

open Toml (Reader)

/-! ### Values -/

def isBlank (c : Char) : Bool :=
  c == ' ' || c == '\t' || c == '\n' || c == '\r' || c == '\x0c'

def skipBlanks (input : List Char) : List Char := input.dropWhile isBlank

def isSeparator (c : Char) : Bool :=
  c == ',' || c == '[' || c == ']' || c == '\x7b' || c == '\x7d'

/-- Drops digits; there has to be one. -/
def someDigits? (text : List Char) : Option (List Char) :=
  if text.head?.any Char.isDigit then some (text.dropWhile Char.isDigit) else none

/-- Nothing, or an exponent. -/
def isExponent (text : List Char) : Bool :=
  match text with
  | [] => true
  | mark :: rest =>
    let digits := match rest with
      | '+' :: rest | '-' :: rest => rest
      | _ => rest
    (mark = 'e' || mark = 'E') && someDigits? digits == some []

/-- A number with a point. Digits may be missing on one side of it. -/
def isReal (text : List Char) : Bool :=
  let text := match text with
    | '+' :: rest | '-' :: rest => rest
    | _ => text
  match text.dropWhile Char.isDigit with
  | '.' :: rest =>
    (text.head? != some '.' || rest.head?.any Char.isDigit) &&
      isExponent (rest.dropWhile Char.isDigit)
  | _ => false

def negative? (text : List Char) : Option Int :=
  match text with
  | '-' :: rest =>
    if rest.isEmpty then none
    else ((Text.readDigits 0 rest).filter (· ≤ Nat.pow 2 63)).map fun n => -(n : Int)
  | _ => none

def bareValue (text : List Char) : SettingValue :=
  if isReal text then .real
  else
    match Text.readWord? text, negative? text with
    | some n, _ => .integer n
    | none, some n => .integer n
    | none, none => .text (String.ofList text)

/-- Reads the values of a list after its bracket; `fuel` bounds their number. -/
def items (element : Reader SettingValue) : (fuel : Nat) → List SettingValue → Reader SettingValue
  | 0, _, _ => none
  | fuel + 1, done, input =>
    match input with
    | ']' :: rest => some (.list done.reverse, rest)
    | _ => do
      let (value, rest) ← element input
      match rest with
      | ',' :: rest => items element fuel (value :: done) rest
      | ']' :: rest => return (.list (value :: done).reverse, rest)
      | _ => none

def entry (element : Reader SettingValue) (input : List Char) :
    Option ((String × SettingValue) × List Char) := do
  let (name, rest) ← Toml.name (skipBlanks input)
  match skipBlanks rest with
  | '=' :: rest =>
    let (value, rest) ← element rest
    return ((name, value), rest)
  | _ => none

/-- Reads the entries of a group after its brace; `fuel` bounds their number. -/
def members (element : Reader SettingValue) :
    (fuel : Nat) → List (String × SettingValue) → Reader SettingValue
  | 0, _, _ => none
  | fuel + 1, done, input =>
    match input with
    | '\x7d' :: rest => some (.group done, rest)
    | _ => do
      let ((name, value), rest) ← entry element input
      let done := Entries.insert name value done
      match rest with
      | ',' :: rest => members element fuel done rest
      | '\x7d' :: rest => return (.group done, rest)
      | _ => none

/-- Reads a value with blanks around it; `depth` bounds the lists and groups in each other. -/
def value : (depth : Nat) → Reader SettingValue
  | 0, _ => none
  | depth + 1, input => do
    let (value, rest) ← match skipBlanks input with
      | 't' :: 'r' :: 'u' :: 'e' :: rest => some (.boolean true, rest)
      | 'f' :: 'a' :: 'l' :: 's' :: 'e' :: rest => some (.boolean false, rest)
      | '[' :: rest => items (value depth) (rest.length + 1) [] rest
      | '\x7b' :: rest => members (value depth) (rest.length + 1) [] rest
      | '"' :: rest => (Toml.shortString ('"' :: rest)).map fun (text, rest) => (.text text, rest)
      | '\'' :: c :: '\'' :: rest => some (.text (String.ofList [c]), rest)
      | '\'' :: _ => none
      | input =>
        let text := input.takeWhile fun c => !isSeparator c
        some (bareValue (Text.trim text), input.dropWhile fun c => !isSeparator c)
    return (value, skipBlanks rest)

def ofText (text : String) : SettingValue :=
  let chars := text.toList
  match value (chars.length + 1) chars with
  | some (value, []) => value
  | _ => .text text

/-! ### Variables -/

def mark : String := "SRX_"

/-- The sections that a name goes through; a point in it has the same meaning as two underscores. -/
def sections : List Char → List Char → List String
  | done, [] => [String.ofList done.reverse]
  | done, '_' :: '_' :: rest => String.ofList done.reverse :: sections [] rest
  | done, '.' :: rest => String.ofList done.reverse :: sections [] rest
  | done, c :: rest => sections (c.toLower :: done) rest

/-- The setting of a variable, if it is one of this program. -/
def setting? (name holds : String) : Option SettingValue :=
  let chars := name.toList
  let start := (chars.take mark.length).map Char.toUpper
  if start = mark.toList ∧ mark.length < chars.length then
    some (.nested (sections [] (chars.drop mark.length)) (ofText holds))
  else none

/-- The settings of all variables. Of two variables for one setting the later one counts. -/
def settings (environment : List (String × String)) : SettingValue :=
  (environment.filterMap fun (name, holds) => setting? name holds).foldl SettingValue.overlay
    (.group [])

end SearchRelay.Environment
