import SearchRelay.Json.Basic
import SearchRelay.Json.Tree

/-!
Typed reading of documents. A decoder looks at one part of a document with a number of container
levels that may still be opened; every array and object it enters uses one up. A record is an
object with known keys, each given at most once, or an array of its fields in order. Parts of a
record under unknown keys are not looked at.
-/

namespace SearchRelay.Json

/-- The number of nested arrays and objects that a document may have. -/
def maxDepth : Nat := 127

abbrev Decoder (α : Type) := Nat → Tree → Option α

/-- Collects results; none is missing. -/
def allSome (parts : List (Option α)) : Option (List α) :=
  let gathered := parts.foldl (fun done part =>
    match done, part with
    | some done, some value => some (value :: done)
    | _, _ => none) (some [])
  gathered.map List.reverse

namespace Decoder

def string : Decoder String
  | _, .string text => text
  | _, _ => none

def bool : Decoder Bool
  | _, .bool value => some value
  | _, _ => none

/-- A natural number of 64 bits, written as an integer. -/
def word : Decoder Nat
  | _, .numeral value => value.toNumber?.bind Number.toWord?
  | _, _ => none

/-- A natural number of 16 bits, written as an integer. -/
def shortWord : Decoder Nat := fun depth tree => (word depth tree).filter (· < Nat.pow 2 16)

def float : Decoder Binary64
  | _, .numeral value => value.toNumber?.map Number.toFloat
  | _, _ => none

def optional (decoder : Decoder α) : Decoder (Option α)
  | _, .null => some none
  | depth, tree => (decoder depth tree).map some

def list (decoder : Decoder α) : Decoder (List α)
  | depth + 1, .array items => allSome (items.map (decoder depth))
  | _, _ => none

/-- An object with arbitrary keys; of several entries with one key the last one counts. -/
def map (decoder : Decoder α) : Decoder (List (String × α))
  | depth + 1, .object entries => do
    let decoded ← allSome (entries.map fun (key, tree) =>
      match key, decoder depth tree with
      | some key, some value => some (key, value)
      | _, _ => none)
    return Entries.ofList decoded
  | _, _ => none

def value : Decoder Json
  | _, .null => some .null
  | _, .bool b => some (.bool b)
  | _, .numeral numeral => numeral.toNumber?.map .num
  | _, .string text => text.map .str
  | depth + 1, .array items => (allSome (items.map (value depth))).map .arr
  | depth + 1, .object entries =>
    (allSome (entries.map fun (key, tree) =>
      match key, value depth tree with
      | some key, some value => some (key, value)
      | _, _ => none)).map Json.object
  | 0, _ => none

end Decoder

structure Members where
  found : List (String × Tree)
  /-- The record was written as an array, where a field can only be missing at the end. -/
  positional : Bool
  /-- The levels that the fields may still open. -/
  depth : Nat

namespace Members

def get? (members : Members) (name : String) : Option Tree :=
  (members.found.find? fun entry => entry.1 == name).map Prod.snd

def required (members : Members) (name : String) (decoder : Decoder α) : Option α :=
  (members.get? name).bind (decoder members.depth)

def withDefault (members : Members) (name : String) (decoder : Decoder α) (default : α) :
    Option α :=
  match members.get? name with
  | some tree => decoder members.depth tree
  | none => some default

/-- A field that may be missing where keys are written, but has its place in an array. -/
def absentOrNull (members : Members) (name : String) (decoder : Decoder α) : Option (Option α) :=
  match members.get? name with
  | some tree => Decoder.optional decoder members.depth tree
  | none => if members.positional then none else some none

end Members

/-- The entries with known keys, in reverse order, if all keys are texts and no known key is given
twice. -/
def knownEntries (names : List String) : List (String × Tree) → List (Option String × Tree) →
    Option (List (String × Tree))
  | found, [] => some found
  | _, (none, _) :: _ => none
  | found, (some key, tree) :: rest =>
    if names.contains key then
      if found.any fun entry => entry.1 == key then none
      else knownEntries names ((key, tree) :: found) rest
    else knownEntries names found rest

/-- A record with these field names, written with its keys. -/
def Decoder.object (names : List String) (build : Members → Option α) : Decoder α
  | depth + 1, .object entries =>
    (knownEntries names [] entries).bind fun found => build ⟨found, false, depth⟩
  | _, _ => none

/-- A record with these field names, written with its keys or as an array. -/
def Decoder.record (names : List String) (build : Members → Option α) : Decoder α
  | depth + 1, .array items =>
    if items.length ≤ names.length then build ⟨names.zip items, true, depth⟩ else none
  | depth, tree => Decoder.object names build depth tree

def decode? (decoder : Decoder α) (text : List Char) : Option α :=
  (Tree.ofText? text).bind (decoder maxDepth)

def read? (text : List Char) : Option Json := decode? .value text

end SearchRelay.Json
