import SearchRelay.File
import SearchRelay.Record.Basic
import SearchRelay.Text.Line
import SearchRelay.Text.Space

/-!
Stores of records. What the indexer needs of a store is a lookup that may fail; the table of
records here is such a store that never fails.
-/

namespace SearchRelay

/-- A lookup of records: the record, its absence, or a store that cannot answer. -/
abbrev RecordSource := Kind → Nat → Outcome (Option Record)

/-- Records by kind and number, each at most once. -/
structure RecordTable where
  rows : List ((Kind × Nat) × Record)

namespace RecordTable

def empty : RecordTable := ⟨[]⟩

def find? (table : RecordTable) (kind : Kind) (id : Nat) : Option Record :=
  (table.rows.find? fun row => row.1 == (kind, id)).map Prod.snd

/-- Puts a record in the place of the one with its kind and number. -/
def set (table : RecordTable) (kind : Kind) (record : Record) : RecordTable :=
  ⟨((kind, record.id), record) :: table.rows.filter fun row => row.1 != (kind, record.id)⟩

/-- Removes a record; says whether there was one. -/
def remove (table : RecordTable) (kind : Kind) (id : Nat) : RecordTable × Bool :=
  (⟨table.rows.filter fun row => row.1 != (kind, id)⟩, (table.find? kind id).isSome)

def size (table : RecordTable) : Nat := table.rows.length

def insert (table : RecordTable) (record : Record) : Outcome RecordTable :=
  match record.kind? with
  | some kind => .ok (table.set kind record)
  | none => .error <| .told <| "💀 '" ++ record.className ++
      "' is not a registered record class. The store only keeps indexable things."

def source (table : RecordTable) : RecordSource := fun kind id => .ok (table.find? kind id)

/-- Adds the record of one line; a blank line adds nothing. -/
def addLine (table : RecordTable) (number : Nat) (line : List Char) : Outcome RecordTable :=
  let line := Text.trim line
  if line.isEmpty then .ok table
  else
    match Json.decode? RecordLine.decoder line with
    | some line => table.insert line.toRecord
    | none => .error <| (Report.outside .document).within <| "💀 Line " ++ toString number ++
        " of the records file is not a record. It might be JSON. It is not OUR JSON."

/-- Adds lines, the first of them with a number. The first bad line ends it. -/
def addLines (table : RecordTable) : Nat → List (List Char) → Outcome RecordTable
  | _, [] => .ok table
  | number, line :: rest =>
    match table.addLine number line with
    | .ok table => addLines table (number + 1) rest
    | .error report => .error report

def ofText (text : List Char) : Outcome RecordTable := empty.addLines 1 (Text.lines text)

/-- Reads a records file, which has to be there and to be a text. -/
def ofFile (file : File) : Outcome RecordTable :=
  match file.bytes?.bind Text.decode? with
  | some text => ofText text
  | none => .error <| (Report.outside .file).within <| "💀 The records file '" ++ file.name ++
      "' would not open. We knocked. Nobody answered."

end RecordTable

end SearchRelay
