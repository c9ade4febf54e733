import SearchRelay.Json.Print
import SearchRelay.Reference

/-!
Operations on the index as they are sent: a line that says what to do with which document, and for
an upsert the document on a second line. Every line ends with a line feed, the last one too.
-/

namespace SearchRelay

/-- What to do with one document, and the reference that asked for it. -/
structure Operation where
  index : String
  reference : Reference
  /-- The new document, or nothing when the document is to be removed. -/
  document : Option Json

namespace Operation

def verb (operation : Operation) : String :=
  if operation.document.isSome then "index" else "delete"

/-- The line that says what to do, as a value. -/
def action (operation : Operation) : Json :=
  .obj [(operation.verb, .obj <|
    [("_index", .str operation.index), ("_id", .str operation.reference.searchId)] ++
      (operation.reference.routing.map fun routing => ("routing", Json.str routing)).toList)]

def lines (operation : Operation) : List Char :=
  match operation.document with
  | some document => operation.action.print ++ '\n' :: document.print ++ ['\n']
  | none => operation.action.print ++ ['\n']

def byteLength (operation : Operation) : Nat := Text.byteLength operation.lines

def body (operations : List Operation) : String := String.ofList (operations.flatMap lines)

end Operation

end SearchRelay
