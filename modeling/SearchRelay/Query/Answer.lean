import SearchRelay.Json.Decode

/-!
Answers to searches, and reading them from the body that a cluster sends. The total may be a number
or an object with a value, and may be left out, in which case the hits are counted.
-/

namespace SearchRelay

structure Hit where
  id : String
  score : Option Binary64
  source : Json
  /-- For each field, in the order of the names, its texts with the matches marked. -/
  highlight : List (String × List String)

def Hit.marked? (hit : Hit) (field : String) : Option (List String) :=
  Entries.find? hit.highlight field

structure SearchAnswer where
  total : Nat
  hits : List Hit

def SearchAnswer.empty : SearchAnswer := ⟨0, []⟩

namespace SearchAnswer

open Json (Decoder)

def hitDecoder : Decoder Hit :=
  .record ["_id", "_score", "_source", "highlight"] fun members => do
    let id ← members.withDefault "_id" .string ""
    let score ← members.withDefault "_score" (.optional .float) none
    let source ← members.withDefault "_source" .value .null
    let highlight ← members.withDefault "highlight" (.map (.list .string)) []
    return ⟨id, score, source, highlight⟩

/-- A total, either plain or inside an object with its key written out. Both are first read as a
value. -/
def totalDecoder : Decoder Nat := fun depth tree =>
  if (Decoder.value depth tree).isNone then none
  else
    (Decoder.word depth tree).or <|
      Decoder.object ["value"] (fun members => members.required "value" .word) depth tree

def hitsDecoder : Decoder (Option Nat × List Hit) :=
  .record ["total", "hits"] fun members => do
    let total ← members.withDefault "total" (.optional totalDecoder) none
    let hits ← members.withDefault "hits" (.list hitDecoder) []
    return (total, hits)

def decoder : Decoder SearchAnswer :=
  .record ["hits"] fun members => do
    let (total, hits) ← members.required "hits" hitsDecoder
    return ⟨total.getD hits.length, hits⟩

def ofBody? (body : List Char) : Option SearchAnswer := Json.decode? decoder body

end SearchAnswer

end SearchRelay
