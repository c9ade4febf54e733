import SearchRelay.Backend.Basic
import SearchRelay.Search.Access
import SearchRelay.Search.Highlight
import SearchRelay.Search.Page
import SearchRelay.Search.Scope
import SearchRelay.Search.Snippet

/-!
The results of one query in every scope. A page and a count of a scope ask the same filter, and
nothing is asked twice: answers are remembered, and a page also answers the count of its scope. A
blank query has no results and asks nothing. A backend that fails is reported, never shown as an
empty page, and nothing about it is remembered.
-/

namespace SearchRelay

/-- How deep into its results a backend can page. -/
def resultWindow : Nat := 10000

/-- What narrows the results beyond the query. -/
structure Narrowing where
  state : Option String
  confidential : Option Bool
  sort : Option SortBy

/-- One query: what is asked, by whom, and the size of a page that nobody asked for. -/
structure Question where
  index : String
  query : String
  visibility : Visibility
  narrowing : Narrowing
  perPage : Nat

namespace Question

/-- The size of a page when nothing else is configured. -/
def defaultPerPage : Nat := 20

def isBlank (question : Question) : Bool := Text.isBlank question.query.toList

/-- The state to filter by. No state, an empty one and `all` mean every state. -/
def wantedState? (question : Question) : Option String :=
  question.narrowing.state.filter fun state => state != "" && state != "all"

/-- The filter of a scope: its type, the query, what may be seen, and what is wanted. -/
def scopeFilter (question : Question) (scope : Scope) : Filter :=
  let query := String.ofList (Text.trim question.query.toList)
  .allOf <|
    [.equals "type" (.str scope.documentType), .words scope.textFields query] ++
    (scope.projectField.map question.visibility.projectFilter).toList ++
    (if scope.hasConfidentiality then [question.visibility.confidentialityFilter] else []) ++
    (if scope.hasState then
      (question.wantedState?.map fun state => Filter.equals "state" (.str state)).toList else []) ++
    (if scope = .issues then
      (question.narrowing.confidential.map fun value =>
        Filter.equals "confidential" (.bool value)).toList else [])

def request (question : Question) (scope : Scope) (skip size : Nat) : SearchRequest where
  index := question.index
  filter := question.scopeFilter scope
  sort := question.narrowing.sort
  skip := skip
  size := size
  highlight := if scope.highlightFields.isEmpty then none else some scope.highlightFields

end Question

/-- A result that is not a file. -/
structure FoundDocument where
  id : Option Nat
  searchId : String
  score : Option Binary64
  source : Json

inductive ResultItem where
  | document (found : FoundDocument)
  | snippet (found : Snippet)

def ResultItem.ofHit (scope : Scope) (hit : Hit) : Outcome ResultItem :=
  if scope.isBlob then (Snippet.ofHit hit none).map .snippet
  else .ok (.document
    ⟨Snippet.wordMember? hit.source "id", hit.id, hit.score, hit.source⟩)

/-- The results of hits; the first one that is none ends it. -/
def ResultItem.ofHits (scope : Scope) : List Hit → Outcome (List ResultItem)
  | [] => .ok []
  | hit :: rest =>
    match ResultItem.ofHit scope hit with
    | .error report => .error report
    | .ok item =>
      match ResultItem.ofHits scope rest with
      | .error report => .error report
      | .ok items => .ok (item :: items)

/-- A query with the answers that are known so far. -/
structure Results where
  question : Question
  counts : List (Scope × Nat)
  pages : List ((Scope × PageRequest) × SearchAnswer)
  /-- The page of each scope that was asked for last. -/
  last : List (Scope × PageRequest)

namespace Results

def ask (question : Question) : Results := ⟨question, [], [], []⟩

def knownCount? (results : Results) (scope : Scope) : Option Nat :=
  (results.counts.find? fun entry => entry.1 == scope).map Prod.snd

def knownPage? (results : Results) (scope : Scope) (page : PageRequest) : Option SearchAnswer :=
  (results.pages.find? fun entry => entry.1 == (scope, page)).map Prod.snd

def lastPage? (results : Results) (scope : Scope) : Option PageRequest :=
  (results.last.find? fun entry => entry.1 == scope).map Prod.snd

/-- Remembers a count; the first one stays. -/
def rememberCount (results : Results) (scope : Scope) (count : Nat) : Results :=
  if (results.knownCount? scope).isSome then results
  else { results with counts := (scope, count) :: results.counts }

/-- Remembers a page, and with it the count of its scope. -/
def rememberPage (results : Results) (scope : Scope) (page : PageRequest) (answer : SearchAnswer) :
    Results :=
  let results := results.rememberCount scope answer.total
  { results with pages := ((scope, page), answer) :: results.pages }

/-- The page lies inside the part of the results that a backend can reach. -/
def inWindow (page : PageRequest) : Bool := page.offset + page.perPage ≤ resultWindow

/-- The hits of a page, from memory or from the backend. -/
def answer (backend : Backend σ) (results : Results) (scope : Scope) (page : PageRequest)
    (state : σ) : Outcome SearchAnswer × Results × σ :=
  let results := { results with last := (scope, page) :: results.last }
  match results.knownPage? scope page with
  | some known => (.ok known, results, state)
  | none =>
    match backend.search (results.question.request scope page.offset page.perPage) state with
    | (.error report, state) => (.error report, results, state)
    | (.ok found, state) => (.ok found, results.rememberPage scope page found, state)

def count (backend : Backend σ) (results : Results) (scope : Scope) (state : σ) :
    Outcome Nat × Results × σ :=
  if results.question.isBlank then (.ok 0, results, state)
  else
    match results.knownCount? scope with
    | some known => (.ok known, results, state)
    | none =>
      match backend.count (results.question.request scope 0 0) state with
      | (.error report, state) => (.error report, results, state)
      | (.ok found, state) => (.ok found, results.rememberCount scope found, state)

/-- A page of a scope. A page that the backend cannot reach is empty, with the right total. -/
def page (backend : Backend σ) (results : Results) (scope : Scope) (page : PageRequest)
    (state : σ) : Outcome (Page ResultItem) × Results × σ :=
  if results.question.isBlank then (.ok ⟨[], page, 0⟩, results, state)
  else if inWindow page then
    let (found, results, state) := results.answer backend scope page state
    let shown := match found with
      | .error report => .error report
      | .ok found => (ResultItem.ofHits scope found.hits).map fun items => ⟨items, page, found.total⟩
    (shown, results, state)
  else
    let (total, results, state) := results.count backend scope state
    (total.map fun total => ⟨[], page, total⟩, results, state)

/-- The numbers of results in several scopes, one after the other; the first failure ends it. -/
def countAll (backend : Backend σ) (results : Results) :
    List Scope → σ → Outcome (List (Scope × Nat)) × Results × σ
  | [], state => (.ok [], results, state)
  | scope :: rest, state =>
    match results.count backend scope state with
    | (.error report, results, state) => (.error report, results, state)
    | (.ok found, results, state) =>
      match countAll backend results rest state with
      | (.error report, results, state) => (.error report, results, state)
      | (.ok counts, results, state) => (.ok ((scope, found) :: counts), results, state)

def markedText? (scope : Scope) (hit : Hit) : Option String :=
  scope.highlightFields.findSome? fun field => (hit.marked? field).bind List.head?

def setMarkup (id : Nat) (markup : String) : List (Nat × String) → List (Nat × String)
  | [] => [(id, markup)]
  | (other, text) :: rest =>
    if id = other then (id, markup) :: rest
    else if id < other then (id, markup) :: (other, text) :: rest
    else (other, text) :: setMarkup id markup rest

/-- The markup of hits by the numbers of their documents; hits without a number or a marked text
are left out. -/
def markupOf (scope : Scope) (hits : List Hit) : List (Nat × String) :=
  hits.foldl (fun markup hit =>
    match Snippet.wordMember? hit.source "id", markedText? scope hit with
    | some id, some text =>
      setMarkup id (String.ofList (Highlighted.parse text.toList).toMarkup) markup
    | _, _ => markup) []

/-- The markup of the page of a scope that was asked for last, or of its first page. Scopes whose
results are not shown with marks have none. -/
def markup (backend : Backend σ) (results : Results) (scope : Scope) (state : σ) :
    Outcome (Option (List (Nat × String))) × Results × σ :=
  if !scope.supportsHighlight then (.ok none, results, state)
  else if results.question.isBlank then (.ok (some []), results, state)
  else
    let page := (results.lastPage? scope).getD (PageRequest.of 1 results.question.perPage)
    if inWindow page then
      let (found, results, state) := results.answer backend scope page state
      (found.map fun found => some (markupOf scope found.hits), results, state)
    else (.ok (some []), results, state)

/-- The number of results in a scope for people to read. An unknown scope has none. -/
def formattedCount (backend : Backend σ) (results : Results) (name : String) (state : σ) :
    Outcome (Option String) × Results × σ :=
  match Scope.ofName? name with
  | none => (.ok none, results, state)
  | some scope =>
    let (found, results, state) := results.count backend scope state
    (found.map fun found => some (Text.grouped found), results, state)

end Results

end SearchRelay
