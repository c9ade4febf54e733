import SearchRelay.Query.SortBy

/-!
Requests to search or count, and the bodies in which a cluster takes them.
-/

namespace SearchRelay

/-- The marks around a match in a text that comes back from a search. -/
def startMark : List Char := "gitlabelasticsearch→".toList

def endMark : List Char := "←gitlabelasticsearch".toList

structure SearchRequest where
  index : String
  filter : Filter
  sort : Option SortBy
  /-- The number of results to pass over. -/
  skip : Nat
  size : Nat
  /-- The fields whose matches are to be marked. -/
  highlight : Option (List String)

namespace SearchRequest

/-- How matches are to be marked: the whole field, so that lines can be counted in it. -/
def highlightQuery (fields : List String) : Json :=
  .object
    [("pre_tags", .arr [.str (String.ofList startMark)]),
     ("post_tags", .arr [.str (String.ofList endMark)]),
     ("number_of_fragments", .ofNat 0),
     ("fields", .object (fields.map fun field => (field, .obj [])))]

def searchBody (request : SearchRequest) : Json :=
  .object <|
    [("query", request.filter.toQuery), ("from", .ofNat request.skip),
     ("size", .ofNat request.size), ("track_total_hits", .bool true)] ++
    (request.sort.map fun sort => ("sort", sort.toQuery)).toList ++
    (request.highlight.map fun fields => ("highlight", highlightQuery fields)).toList

/-- The body of a count: the same question without the page. -/
def countBody (request : SearchRequest) : Json := Filter.single "query" request.filter.toQuery

end SearchRequest

end SearchRelay
