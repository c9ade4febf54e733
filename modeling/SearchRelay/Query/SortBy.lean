import SearchRelay.Query.Filter

/-!
Sorting by one field. Documents without the field come last in both directions, and values of
different types are ordered by their texts.
-/

namespace SearchRelay

inductive Direction where
  | ascending
  | descending
deriving DecidableEq, Repr

structure SortBy where
  field : String
  direction : Direction
deriving DecidableEq, Repr

/-- The order of values: numbers by size, everything else by text. A string among strings is
ordered by itself, and a value of another type by its compact text. -/
def Json.order : Json → Json → Ordering
  | .num a, .num b => a.toFloat.compare b.toFloat
  | .str a, .str b => compare a b
  | a, b => compare a.render b.render

namespace SortBy

def ofName? (name : String) : Option SortBy :=
  if name = "created_desc" then some ⟨"created_at", .descending⟩
  else if name = "created_asc" then some ⟨"created_at", .ascending⟩
  else if name = "updated_desc" then some ⟨"updated_at", .descending⟩
  else if name = "updated_asc" then some ⟨"updated_at", .ascending⟩
  else none

def compare (sort : SortBy) (left right : Json) : Ordering :=
  match left.lookup sort.field, right.lookup sort.field with
  | some a, some b =>
    match sort.direction with
    | .ascending => a.order b
    | .descending => (a.order b).swap
  | some _, none => .lt
  | none, some _ => .gt
  | none, none => .eq

def toQuery (sort : SortBy) : Json :=
  let direction := match sort.direction with
    | .ascending => "asc"
    | .descending => "desc"
  .arr [Filter.single sort.field (Filter.single "order" (.str direction))]

end SortBy

end SearchRelay
