import SearchRelay.Json.Print
import SearchRelay.Text.Occurrence
import SearchRelay.Text.Space

/-!
Filters: predicates over documents. A filter can be evaluated on a document and written in the
query language of a cluster, and both read the same.
-/

namespace SearchRelay

inductive Filter where
  | everything
  | nothing
  /-- The field equals a value, or is an array that holds it. -/
  | equals (field : String) (value : Json)
  /-- The field equals one of the values in that sense. -/
  | oneOf (field : String) (values : List Json)
  /-- Every word of the query occurs in some field. Case does not count. -/
  | words (fields : List String) (query : String)
  | allOf (filters : List Filter)
  | anyOf (filters : List Filter)
  | negation (filter : Filter)
deriving Inhabited

def Json.lookup (document : Json) (path : String) : Option Json :=
  (path.toList.splitOn '.').foldl
    (fun found segment => found.bind fun value => value.get? (String.ofList segment)) (some document)

/-- The words of a query, without regard to case. -/
def queryWords (query : String) : List (List Char) :=
  (Text.words query.toList).map Text.fold

namespace Filter

/-- A field that was found has a value, or is an array that holds it. -/
def holds (found : Option Json) (value : Json) : Bool :=
  match found with
  | some (.arr items) => items.any (· == value)
  | some single => single == value
  | none => false

/-- The text that a field is searched by, without regard to case. -/
def searchable : Json → List Char
  | .str string => Text.fold string.toList
  | other => Text.fold other.print

/-- The texts of several fields, each on its own line. -/
def searchableLines (fields : List Json) : List Char :=
  ['\n'].intercalate (fields.map searchable)

mutual

def accepts (document : Json) : Filter → Bool
  | .everything => true
  | .nothing => false
  | .equals field value => holds (document.lookup field) value
  | .oneOf field values =>
    let found := document.lookup field
    values.any (holds found)
  | .words fields query =>
    let wanted := queryWords query
    let lines := searchableLines (fields.filterMap document.lookup)
    !wanted.isEmpty && wanted.all fun word => Text.occurs word lines
  | .allOf filters => acceptsAll document filters
  | .anyOf filters => acceptsAny document filters
  | .negation filter => !accepts document filter

def acceptsAll (document : Json) : List Filter → Bool
  | [] => true
  | filter :: rest => accepts document filter && acceptsAll document rest

def acceptsAny (document : Json) : List Filter → Bool
  | [] => false
  | filter :: rest => accepts document filter || acceptsAny document rest

end

def single (key : String) (value : Json) : Json := .obj [(key, value)]

mutual

def toQuery : Filter → Json
  | .everything => single "match_all" (.obj [])
  | .nothing => single "match_none" (.obj [])
  | .equals field value => single "term" (single field value)
  | .oneOf field values => single "terms" (single field (.arr values))
  | .words fields query =>
    single "simple_query_string" <| .object
      [("query", .str query), ("fields", .arr (fields.map .str)), ("default_operator", .str "and")]
  | .allOf filters => single "bool" (single "must" (.arr (toQueries filters)))
  | .anyOf filters =>
    single "bool" <| .object
      [("should", .arr (toQueries filters)), ("minimum_should_match", .ofNat 1)]
  | .negation filter => single "bool" (single "must_not" (.arr [toQuery filter]))

def toQueries : List Filter → List Json
  | [] => []
  | filter :: rest => toQuery filter :: toQueries rest

end

end Filter

end SearchRelay
