import SearchRelay.Toml.Scalar
import SearchRelay.Toml.Text

/-!
Settings files: entries, and tables of entries. How a table came about decides what may still be
added to it: a table has one header, and a table that dotted names made has none.
-/

namespace SearchRelay.Toml

/-! ### Tables under construction -/

/-- How a table came about. -/
inductive Origin where
  | header
  /-- As a part of the header of another table. -/
  | implied
  /-- As a part of a dotted name. -/
  | dotted
deriving DecidableEq

inductive Node where
  | value (value : SettingValue)
  | table (origin : Origin) (entries : List (String × Node))
  /-- Tables under the same header, the last one first. -/
  | tables (tables : List (List (String × Node)))

abbrev Entries := List (String × Node)

mutual

def Node.toValue : Node → SettingValue
  | .value value => value
  | .table _ entries => .group (entriesToValues entries)
  | .tables tables => .list (tablesToValues tables).reverse

def entriesToValues : List (String × Node) → List (String × SettingValue)
  | [] => []
  | (name, node) :: rest => (name, node.toValue) :: entriesToValues rest

def tablesToValues : List (List (String × Node)) → List SettingValue
  | [] => []
  | entries :: rest => .group (entriesToValues entries) :: tablesToValues rest

end

/-- Adds a value under dotted names. `dotted` says that these entries were made by dotted names; a
table that was not takes no entry that way, and no name is given twice. -/
def addEntry (dotted : Bool) (names : List String) (value : SettingValue) (entries : Entries) :
    Option Entries :=
  match names with
  | [] => none
  | [name] =>
    if dotted ∧ (SearchRelay.Entries.find? entries name).isNone then
      some (SearchRelay.Entries.insert name (.value value) entries)
    else none
  | name :: rest =>
    match SearchRelay.Entries.find? entries name with
    | none => (addEntry true rest value []).map fun inner =>
        SearchRelay.Entries.insert name (.table .dotted inner) entries
    | some (.table .dotted inner) => (addEntry true rest value inner).map fun inner =>
        SearchRelay.Entries.insert name (.table .dotted inner) entries
    | some (.table .implied inner) => (addEntry false rest value inner).map fun inner =>
        SearchRelay.Entries.insert name (.table .implied inner) entries
    | some (.tables (last :: before)) => (addEntry false rest value last).map fun last =>
        SearchRelay.Entries.insert name (.tables (last :: before)) entries
    | some _ => none

/-- Changes the entries of the table with a path. Tables that are missing on the way are made; of
tables with the same header the last one counts. -/
def within (path : List String) (change : Entries → Option Entries) (entries : Entries) :
    Option Entries :=
  match path with
  | [] => change entries
  | name :: rest =>
    match SearchRelay.Entries.find? entries name with
    | none => (within rest change []).map fun inner =>
        SearchRelay.Entries.insert name (.table .implied inner) entries
    | some (.table origin inner) => (within rest change inner).map fun inner =>
        SearchRelay.Entries.insert name (.table origin inner) entries
    | some (.tables (last :: before)) => (within rest change last).map fun last =>
        SearchRelay.Entries.insert name (.tables (last :: before)) entries
    | some _ => none

def openTable (name : String) (entries : Entries) : Option Entries :=
  match SearchRelay.Entries.find? entries name with
  | none => some (SearchRelay.Entries.insert name (.table .header []) entries)
  | some (.table .implied inner) =>
    some (SearchRelay.Entries.insert name (.table .header inner) entries)
  | some _ => none

def openNext (name : String) (entries : Entries) : Option Entries :=
  match SearchRelay.Entries.find? entries name with
  | none => some (SearchRelay.Entries.insert name (.tables [[]]) entries)
  | some (.tables tables) => some (SearchRelay.Entries.insert name (.tables ([] :: tables)) entries)
  | some _ => none

/-! ### Values -/

/-- The number of arrays and tables that may stand in each other. -/
def maxDepth : Nat := 80

/-- Reads the values of an array after its bracket, the last one first; `fuel` bounds their
number. -/
def items (element : Reader SettingValue) :
    (fuel : Nat) → List SettingValue → Reader SettingValue
  | 0, _, _ => none
  | fuel + 1, done, input => do
    match ← skipGap false input with
    | ']' :: rest => return (.list done.reverse, rest)
    | input =>
      let (value, rest) ← element input
      match ← skipGap false rest with
      | ',' :: rest => items element fuel (value :: done) rest
      | ']' :: rest => return (.list (value :: done).reverse, rest)
      | _ => none

/-- Reads an entry: a path, an equals sign and a value. -/
def entry (element : Reader SettingValue) (input : List Char) :
    Option ((List String × SettingValue) × List Char) := do
  let (path, rest) ← path input
  let (value, rest) ← element (skipBlanks (← character? '=' rest))
  return ((path, value), rest)

/-- Reads the entries of a table on one line after its first one; `fuel` bounds their number. -/
def members (element : Reader SettingValue) : (fuel : Nat) → Entries → Reader SettingValue
  | 0, _, _ => none
  | fuel + 1, entries, input => do
    let ((path, value), rest) ← entry element (skipBlanks input)
    let entries ← addEntry (path.length = 1) path value entries
    match skipBlanks rest with
    | ',' :: rest => members element fuel entries rest
    | '\x7d' :: rest => return (.group (entriesToValues entries), rest)
    | _ => none

/-- Reads a value with at most this many arrays and tables in each other. -/
def value : (depth : Nat) → Reader SettingValue
  | 0, _ => none
  | depth + 1, input =>
    match input with
    | '[' :: rest => items (value depth) (rest.length + 1) [] rest
    | '\x7b' :: rest =>
      match skipBlanks rest with
      | '\x7d' :: rest => some (.group [], rest)
      | _ => members (value depth) (rest.length + 1) [] rest
    | '"' :: _ | '\'' :: _ => (string input).map fun (text, rest) => (.text text, rest)
    | _ => bare input

/-! ### Documents -/

def header (closing : List Char) (input : List Char) : Option (List String × List Char) := do
  let (path, rest) ← path input
  if closing.isPrefixOf rest then return (path, ← skipLineEnd (rest.drop closing.length)) else none

def openAt (start : String → Entries → Option Entries) (path : List String) (entries : Entries) :
    Option Entries :=
  match path.getLast? with
  | some name => within path.dropLast (start name) entries
  | none => none

/-- Reads the lines of a file; entries belong to the table with the path `current`. `fuel` bounds
the number of lines. -/
def linesFrom : (fuel : Nat) → (current : List String) → Entries → List Char → Option Entries
  | 0, _, _, _ => none
  | fuel + 1, current, entries, input => do
    match ← skipGap false input with
    | [] => return entries
    | '[' :: '[' :: rest =>
      let (path, rest) ← header [']', ']'] rest
      linesFrom fuel path (← openAt openNext path entries) rest
    | '[' :: rest =>
      let (path, rest) ← header [']'] rest
      linesFrom fuel path (← openAt openTable path entries) rest
    | input =>
      let ((path, value), rest) ← entry (value maxDepth) input
      let entries ← within current (addEntry (path.length = 1) path value) entries
      linesFrom fuel current entries (← skipLineEnd rest)

/-- Reads a file. A mark of the byte order may stand before it. -/
def document? (text : List Char) : Option SettingValue :=
  let text := match text with
    | '\uFEFF' :: rest => rest
    | _ => text
  (linesFrom (text.length + 1) [] [] text).map fun entries => .group (entriesToValues entries)

end SearchRelay.Toml
