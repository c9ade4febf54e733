import SearchRelay.Entries
import SearchRelay.Json.Number

/-!
Values of the data format. An object is a list of entries in increasing order of their keys, so
two objects with the same entries are the same value.
-/

namespace SearchRelay

inductive Json where
  | null
  | bool (value : Bool)
  | num (value : Number)
  | str (text : String)
  | arr (items : List Json)
  | obj (entries : List (String × Json))
deriving Repr, Inhabited

namespace Json

/-- The object with these entries. Of several entries with one key the last one counts. -/
def object (entries : List (String × Json)) : Json := .obj (Entries.ofList entries)

def ofNat (n : Nat) : Json := .num (.int n)

/-- The member of an object; other values have none. -/
def get? (key : String) : Json → Option Json
  | .obj entries => Entries.find? entries key
  | _ => none

def set (json : Json) (key : String) (value : Json) : Json :=
  match json with
  | .obj entries => .obj (Entries.insert key value entries)
  | other => other

mutual

/-- Equality of values. Numbers compare as numbers, so the two zeros of doubles are equal. -/
def same : Json → Json → Bool
  | .null, .null => true
  | .bool a, .bool b => a == b
  | .num a, .num b => a.same b
  | .str a, .str b => a == b
  | .arr a, .arr b => sameItems a b
  | .obj a, .obj b => sameEntries a b
  | _, _ => false

/-- Equality of arrays, item by item. -/
def sameItems : List Json → List Json → Bool
  | [], [] => true
  | a :: as, b :: bs => same a b && sameItems as bs
  | _, _ => false

/-- Equality of sorted entries, one by one. -/
def sameEntries : List (String × Json) → List (String × Json) → Bool
  | [], [] => true
  | (k, a) :: as, (l, b) :: bs => k == l && same a b && sameEntries as bs
  | _, _ => false

end

instance : BEq Json := ⟨same⟩

mutual

/-- Every object lists its keys in increasing order, at every depth. -/
def Canonical : Json → Prop
  | .arr items => CanonicalItems items
  | .obj entries => Entries.Sorted entries ∧ CanonicalEntries entries
  | _ => True

def CanonicalItems : List Json → Prop
  | [] => True
  | item :: rest => Canonical item ∧ CanonicalItems rest

def CanonicalEntries : List (String × Json) → Prop
  | [] => True
  | (_, value) :: rest => Canonical value ∧ CanonicalEntries rest

end

end Json

end SearchRelay
