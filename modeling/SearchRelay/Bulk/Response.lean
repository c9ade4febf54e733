import SearchRelay.Bulk.Operation
import SearchRelay.Json.Decode
import SearchRelay.Report

/-!
Answers to bulk requests. An answer has an item for each operation; the failed ones carry an error.
Items are matched to operations by place. When their number is not that of the operations, the ids
of the failed items decide.
-/

namespace SearchRelay

structure ItemResult where
  id : String
  status : Nat
  result : Option String
  error : Option Json

/-- A document that was not there to be removed has a status but no error, and is no failure. -/
def ItemResult.failed (item : ItemResult) : Bool := item.error.isSome

structure BulkResponse where
  errors : Bool
  /-- Each item names the verb of its operation; an item may also be empty. -/
  items : List (List (String × ItemResult))

namespace BulkResponse

open Json (Decoder)

/-- The answer that says nothing. -/
def empty : BulkResponse := ⟨false, []⟩

def itemDecoder : Decoder ItemResult :=
  .record ["_id", "status", "result", "error"] fun members => do
    let id ← members.withDefault "_id" .string ""
    let status ← members.withDefault "status" .shortWord 0
    let result ← members.withDefault "result" (.optional .string) none
    let error ← members.withDefault "error" (.optional .value) none
    return ⟨id, status, result, error⟩

def decoder : Decoder BulkResponse :=
  .record ["errors", "items"] fun members => do
    let errors ← members.withDefault "errors" .bool false
    let items ← members.withDefault "items" (.list (.map itemDecoder)) []
    return ⟨errors, items⟩

def ofBody (body : List Char) : Outcome BulkResponse :=
  match Json.decode? decoder body with
  | some response => .ok response
  | none => .error <| (Report.outside .document).within
      "💀 The _bulk response was not the JSON we were promised."

/-- The verdicts of the items that are not empty. -/
def results (response : BulkResponse) : List ItemResult :=
  response.items.filterMap fun item => item.head?.map Prod.snd

/-- The references of the failed operations, in their order. -/
def failedReferences (response : BulkResponse) (operations : List Operation) : List Reference :=
  let results := response.results
  if results.length = operations.length then
    ((operations.zip results).filter fun (_, result) => result.failed).map
      fun (operation, _) => operation.reference
  else
    let failed := (results.filter ItemResult.failed).map ItemResult.id
    (operations.filter fun operation => failed.contains operation.reference.searchId).map
      Operation.reference

end BulkResponse

end SearchRelay
