import SearchRelay.Backend.Basic
import SearchRelay.Search.Highlight
import SearchRelay.Text.Line

/-!
A cluster in memory. It takes the bulk bodies that a real one would get, keeps the documents in the
order of their first insertion, and answers searches by evaluating the filter. It keeps what it
was sent, and can be told to refuse documents, to fail once, or to be gone.
-/

namespace SearchRelay

structure StoredDocument where
  index : String
  id : String
  routing : Option String
  source : Json

structure MemoryCluster where
  /-- At most one document for each index and id, in the order of first insertion. -/
  documents : List StoredDocument
  /-- The bodies of all bulk requests, the last one first. -/
  received : List String
  searches : Nat
  counts : Nat
  /-- The reason for which the next bulk request fails. -/
  armed : Option String
  /-- Operations on these ids are refused. -/
  rejected : List String
  unavailable : Bool

namespace MemoryCluster

def empty : MemoryCluster := ⟨[], [], 0, 0, none, [], false⟩

def bodies (cluster : MemoryCluster) : List String := cluster.received.reverse

def isAt (index id : String) (document : StoredDocument) : Bool :=
  document.id == id && document.index == index

/-- Puts a document in the place of the one with its index and id, or at the end. -/
def put (document : StoredDocument) : List StoredDocument → List StoredDocument
  | [] => [document]
  | first :: rest =>
    if isAt document.index document.id first then document :: rest else first :: put document rest

def find? (cluster : MemoryCluster) (index id : String) : Option StoredDocument :=
  cluster.documents.find? (isAt index id)

def insert (cluster : MemoryCluster) (document : StoredDocument) : MemoryCluster :=
  { cluster with documents := put document cluster.documents }

def erase (cluster : MemoryCluster) (index id : String) : MemoryCluster :=
  { cluster with documents := cluster.documents.filter fun document => !isAt index id document }

def gone : Report :=
  .told "💀 error sending request: connection refused (the in-memory cluster is pretending to be down)"

def rejection (id : String) : ItemResult where
  id := id
  status := 400
  result := none
  error := some (.object
    [("type", .str "mapper_parsing_exception"), ("reason", .str "rejected on cue")])

/-- Inserts a document, unless its id is refused. -/
def applyIndex (cluster : MemoryCluster) (document : StoredDocument) :
    ItemResult × MemoryCluster :=
  if cluster.rejected.contains document.id then (rejection document.id, cluster)
  else
    let known := (cluster.find? document.index document.id).isSome
    let verdict : ItemResult :=
      { id := document.id, status := if known then 200 else 201,
        result := some (if known then "updated" else "created"), error := none }
    (verdict, cluster.insert document)

/-- Removes a document, unless its id is refused. -/
def applyDelete (cluster : MemoryCluster) (index id : String) : ItemResult × MemoryCluster :=
  if cluster.rejected.contains id then (rejection id, cluster)
  else
    let known := (cluster.find? index id).isSome
    let verdict : ItemResult :=
      { id := id, status := if known then 200 else 404,
        result := some (if known then "deleted" else "not_found"), error := none }
    (verdict, cluster.erase index id)

/-- A string member of an action, if it is one. -/
def member? (metadata : Json) (key : String) : Option String :=
  match metadata.get? key with
  | some (.str text) => some text
  | _ => none

def readAction (line : List Char) : Outcome (String × Json) :=
  match Json.read? line with
  | none => .error <| (Report.outside .document).within <|
      "💀 Malformed bulk action line: " ++ String.ofList line
  | some (.obj ((verb, metadata) :: _)) => .ok (verb, metadata)
  | some _ => .error <| .told <|
      "💀 Bulk action line is not a one-key object: " ++ String.ofList line

/-- Applies the lines of a bulk body, one operation after the other, with the items so far in
reverse order. What was applied before a bad line stays applied. -/
def applyLines (cluster : MemoryCluster) (items : List (List (String × ItemResult))) :
    List (List Char) → Outcome (List (List (String × ItemResult))) × MemoryCluster
  | [] => (.ok items.reverse, cluster)
  | action :: rest =>
    match readAction action with
    | .error report => (.error report, cluster)
    | .ok (verb, metadata) =>
      let index := (member? metadata "_index").getD ""
      let id := (member? metadata "_id").getD ""
      if verb = "index" then
        match rest with
        | [] => (.error (.told ("💀 Index action for '" ++ id ++ "' has no source line.")), cluster)
        | line :: rest =>
          match Json.read? line with
          | none => (.error ((Report.outside .document).within
              ("💀 Malformed source line for '" ++ id ++ "'.")), cluster)
          | some source =>
            let (item, cluster) := cluster.applyIndex ⟨index, id, member? metadata "routing", source⟩
            applyLines cluster ([(verb, item)] :: items) rest
      else if verb = "delete" then
        let (item, cluster) := cluster.applyDelete index id
        applyLines cluster ([(verb, item)] :: items) rest
      else (.error (.told ("💀 Unsupported bulk action '" ++ verb ++ "'.")), cluster)

def respond (items : List (List (String × ItemResult))) : BulkResponse :=
  ⟨items.any fun item => item.any fun entry => entry.2.failed, items⟩

/-- The lines of a body that are not blank. -/
def bodyLines (body : String) : List (List Char) :=
  (Text.lines body.toList).filter fun line => !Text.isBlank line

def bulk (body : String) (cluster : MemoryCluster) : Outcome BulkResponse × MemoryCluster :=
  let cluster := { cluster with received := body :: cluster.received }
  if cluster.unavailable then (.error gone, cluster)
  else
    match cluster.armed with
    | some reason =>
      (.error (.told ("💀 error sending request: " ++ reason)), { cluster with armed := none })
    | none =>
      let (items, cluster) := cluster.applyLines [] (bodyLines body)
      (items.map respond, cluster)

/-- The documents that a request asks for, sorted if it says how; documents that the sort leaves
equal stay in the order of insertion. -/
def matching (cluster : MemoryCluster) (request : SearchRequest) : List StoredDocument :=
  let found := cluster.documents.filter fun document =>
    document.index == request.index && request.filter.accepts document.source
  match request.sort with
  | none => found
  | some sort => found.mergeSort fun left right => sort.compare left.source right.source != .gt

/-- The words of every query in a filter that has to hold. Words under a negation do not count. -/
def wordsOf : Filter → List (List Char)
  | .words _ query => queryWords query
  | .allOf filters => wordsOfAll filters
  | .anyOf filters => wordsOfAll filters
  | _ => []
where
  /-- The words of several filters. -/
  wordsOfAll : List Filter → List (List Char)
    | [] => []
    | filter :: rest => wordsOf filter ++ wordsOfAll rest

/-- The fields of a document with marks around the words, as far as they hold any. -/
def markedFields (words : List (List Char)) (source : Json) (fields : List String) :
    List (String × List String) :=
  fields.foldl (fun marked field =>
    match source.lookup field with
    | some (.str text) =>
      match Highlighted.ofWords? words text.toList with
      | some highlighted =>
        Entries.insert field [String.ofList highlighted.withMarks] marked
      | none => marked
    | _ => marked) []

def toHit (request : SearchRequest) (document : StoredDocument) : Hit where
  id := document.id
  score := some (.ofNat 1)
  source := document.source
  highlight := match request.highlight with
    | some fields => markedFields (wordsOf request.filter) document.source fields
    | none => []

def search (request : SearchRequest) (cluster : MemoryCluster) :
    Outcome SearchAnswer × MemoryCluster :=
  if cluster.unavailable then (.error gone, cluster)
  else
    let found := cluster.matching request
    let hits := ((found.drop request.skip).take request.size).map (toHit request)
    (.ok ⟨found.length, hits⟩, { cluster with searches := cluster.searches + 1 })

def count (request : SearchRequest) (cluster : MemoryCluster) : Outcome Nat × MemoryCluster :=
  if cluster.unavailable then (.error gone, cluster)
  else (.ok (cluster.matching request).length, { cluster with counts := cluster.counts + 1 })

def backend : Backend MemoryCluster := ⟨bulk, search, count⟩

end MemoryCluster

end SearchRelay
