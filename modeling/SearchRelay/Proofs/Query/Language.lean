import SearchRelay.Proofs.Json.Equality
import SearchRelay.Proofs.Query.Filter

/-!
The query language as a cluster reads it. What a query asks for is read off its written form alone,
clause by clause, and compared with what the filter that it was written for accepts.
-/

namespace SearchRelay

mutual

/-- Every query for words in a filter has a word. -/
def Filter.Worded : Filter → Prop
  | .words _ query => Text.words query.toList ≠ []
  | .allOf filters | .anyOf filters => AllWorded filters
  | .negation filter => filter.Worded
  | _ => True

def Filter.AllWorded : List Filter → Prop
  | [] => True
  | filter :: rest => filter.Worded ∧ AllWorded rest

end

namespace Filter

theorem acceptsAll_eq (document : Json) (filters : List Filter) :
    acceptsAll document filters = (filters.map (accepts document)).all id := by
  induction filters with
  | nil => rfl
  | cons filter rest ih => rw [acceptsAll, ih, List.map_cons, List.all_cons, id_eq]

theorem acceptsAny_eq (document : Json) (filters : List Filter) :
    acceptsAny document filters = (filters.map (accepts document)).any id := by
  induction filters with
  | nil => rfl
  | cons filter rest ih => rw [acceptsAny, ih, List.map_cons, List.any_cons, id_eq]

end Filter

namespace Query

/-- A field has a value, or is an array that holds it. -/
def hasValue (document : Json) (field : String) (value : Json) : Bool :=
  match document.lookup field with
  | some (.arr items) => items.any (· == value)
  | some single => single == value
  | none => false

def hasWord (document : Json) (word : List Char) (field : String) : Bool :=
  match document.lookup field with
  | some value => Text.occurs word (Text.fold value.fieldText)
  | none => false

def string? : Json → Option String
  | .str text => some text
  | _ => none

/-- Every word of the query is in one of the fields. A query without words looks for nothing, and
it is up to the cluster whether it then finds everything or nothing. -/
def hasWords (wordless : Bool) (document : Json) (fields : List String) (query : String) : Bool :=
  (wordless || !(queryWords query).isEmpty) &&
    (queryWords query).all fun word => fields.any (hasWord document word)

/-- A query for words. All of them are wanted only if the operator says so. -/
def readWords (wordless : Bool) (document : Json) (body : Json) : Option Bool := do
  let query ← (body.get? "query").bind string?
  let fields ← match body.get? "fields" with
    | some (.arr fields) => fields.mapM string?
    | _ => none
  let operator ← (body.get? "default_operator").bind string?
  if operator = "and" then some (hasWords wordless document fields query) else none

/-- How many of the clauses under `should` have to hold. -/
def leastOf (clauses : List (String × Json)) : Option Nat :=
  match Entries.find? clauses "minimum_should_match" with
  | some (.num number) => number.toWord?
  | _ => none

def readPlain (answer : Bool) : Json → Option Bool
  | .obj [] => some answer
  | _ => none

def readTerm (document : Json) : Json → Option Bool
  | .obj [(field, value)] => some (hasValue document field value)
  | _ => none

def readTerms (document : Json) : Json → Option Bool
  | .obj [(field, .arr values)] => some (values.any (hasValue document field))
  | _ => none

mutual

/-- Whether a query finds a document, if it is one of the language. -/
def read (wordless : Bool) (document : Json) : Json → Option Bool
  | .obj [(name, body)] =>
    if name = "match_all" then readPlain true body
    else if name = "match_none" then readPlain false body
    else if name = "term" then readTerm document body
    else if name = "terms" then readTerms document body
    else if name = "simple_query_string" then readWords wordless document body
    else if name = "bool" then
      match body with
      | .obj clauses => readClauses wordless document (leastOf clauses) clauses
      | _ => none
    else none
  | _ => none

def readAll (wordless : Bool) (document : Json) : List Json → Option (List Bool)
  | [] => some []
  | query :: rest => do
    let first ← read wordless document query
    let others ← readAll wordless document rest
    return first :: others

/-- Whether the clauses of a combination hold, of which `least` under `should` have to. -/
def readClauses (wordless : Bool) (document : Json) (least : Option Nat) :
    List (String × Json) → Option Bool
  | [] => some true
  | (occur, body) :: rest => do
    let others ← readClauses wordless document least rest
    if occur = "minimum_should_match" then return others
    else
      match body with
      | .arr queries =>
        let answers ← readAll wordless document queries
        if occur = "must" then return (answers.all id && others)
        else if occur = "must_not" then return (!answers.any id && others)
        else if occur = "should" then
          let least ← least
          return (decide (least ≤ answers.count true) && others)
        else none
      | _ => none

end

variable {wordless : Bool} {document : Json}

/-! ### Equal queries -/

theorem hasValue_unsigned (document : Json) (field : String) (value : Json) :
    hasValue document field value.unsigned = hasValue document field value := by
  have same := Json.beq_congr (Json.unsigned_unsigned value)
  unfold hasValue
  split
  next items _ => simp only [same]
  next => exact same _
  next => rfl

theorem any_hasValue_unsigned (document : Json) (field : String) (values : List Json) :
    (Json.unsignedItems values).any (hasValue document field) =
      values.any (hasValue document field) := by
  induction values with
  | nil => rfl
  | cons value rest ih =>
    rw [Json.unsignedItems, List.any_cons, List.any_cons, hasValue_unsigned, ih]

theorem bind_string?_unsigned (value : Option Json) :
    (value.map Json.unsigned).bind string? = value.bind string? := by
  rcases value with _ | value
  · rfl
  · cases value <;> rfl

theorem mapM_string?_unsigned (values : List Json) :
    (Json.unsignedItems values).mapM string? = values.mapM string? := by
  induction values with
  | nil => rfl
  | cons value rest ih =>
    have first := bind_string?_unsigned (some value)
    rw [Json.unsignedItems, List.mapM_cons, List.mapM_cons, ih]
    exact congrArg (· >>= _) first

theorem readWords_unsigned (body : Json) :
    readWords wordless document body.unsigned = readWords wordless document body := by
  simp only [readWords, Json.get?_unsigned, bind_string?_unsigned]
  cases body.get? "fields" with
  | none => rfl
  | some fields => cases fields <;> simp [Json.unsigned, mapM_string?_unsigned]

theorem leastOf_unsigned (clauses : List (String × Json)) :
    leastOf (Json.unsignedEntries clauses) = leastOf clauses := by
  have found := Json.get?_unsigned (.obj clauses) "minimum_should_match"
  simp only [Json.unsigned, Json.get?] at found
  rw [leastOf, leastOf, found]
  cases Entries.find? clauses "minimum_should_match" with
  | none => rfl
  | some least =>
    cases least with
    | num number => cases number <;> rfl
    | null | bool | str | arr | obj => rfl

theorem readPlain_unsigned (answer : Bool) (body : Json) :
    readPlain answer body.unsigned = readPlain answer body := by
  cases body with
  | obj entries => cases entries <;> rfl
  | null | bool | num | str | arr => rfl

theorem readTerm_unsigned (body : Json) :
    readTerm document body.unsigned = readTerm document body := by
  match body with
  | .obj [(field, value)] => exact congrArg some (hasValue_unsigned document field value)
  | .obj [] | .obj (_ :: _ :: _) => rfl
  | .null | .bool _ | .num _ | .str _ | .arr _ => rfl

theorem readTerms_unsigned (body : Json) :
    readTerms document body.unsigned = readTerms document body := by
  match body with
  | .obj [(field, .arr values)] => exact congrArg some (any_hasValue_unsigned document field values)
  | .obj [(_, .null)] | .obj [(_, .bool _)] | .obj [(_, .num _)] => rfl
  | .obj [(_, .str _)] | .obj [(_, .obj _)] => rfl
  | .obj ((_, value) :: _ :: _) => cases value <;> rfl
  | .obj [] | .null | .bool _ | .num _ | .str _ | .arr _ => rfl

mutual

theorem read_unsigned (query : Json) :
    read wordless document query.unsigned = read wordless document query := by
  match query with
  | .null | .bool _ | .str _ | .num _ | .arr _ | .obj [] | .obj (_ :: _ :: _) => rfl
  | .obj [(name, .obj clauses)] =>
    have combined := readClauses_unsigned (leastOf clauses) clauses
    rw [← leastOf_unsigned] at combined
    have body : Json.unsigned (.obj clauses) = .obj (Json.unsignedEntries clauses) := rfl
    simp only [Json.unsigned, Json.unsignedEntries, read]
    rw [← body, readPlain_unsigned, readPlain_unsigned, readTerm_unsigned, readTerms_unsigned,
      readWords_unsigned, combined, leastOf_unsigned]
  | .obj [(name, .null)] | .obj [(name, .bool _)] | .obj [(name, .num _)] => rfl
  | .obj [(name, .str _)] | .obj [(name, .arr _)] => rfl

theorem readAll_unsigned (queries : List Json) :
    readAll wordless document (Json.unsignedItems queries) = readAll wordless document queries := by
  match queries with
  | [] => rfl
  | query :: rest =>
    rw [Json.unsignedItems, readAll, readAll, read_unsigned query, readAll_unsigned rest]

theorem readClauses_unsigned (least : Option Nat) (clauses : List (String × Json)) :
    readClauses wordless document least (Json.unsignedEntries clauses) =
      readClauses wordless document least clauses := by
  match clauses with
  | [] => rfl
  | (occur, body) :: rest =>
    rw [Json.unsignedEntries, readClauses, readClauses, readClauses_unsigned least rest]
    match body with
    | .arr queries => simp only [Json.unsigned, readAll_unsigned queries]
    | .null | .bool _ | .str _ | .num _ | .obj _ => rfl

end

theorem read_congr {a b : Json} (equal : a == b) :
    read wordless document a = read wordless document b := by
  rw [← read_unsigned a, (Json.same_iff a b).1 equal, read_unsigned b]

/-! ### The query of a filter -/

theorem hasValue_eq (document : Json) (field : String) (value : Json) :
    hasValue document field value = Filter.holds (document.lookup field) value := by
  unfold hasValue Filter.holds
  cases document.lookup field with
  | none => rfl
  | some found => cases found <;> rfl

theorem hasWord_iff {word : List Char} {field : String} :
    hasWord document word field ↔ ∃ value, document.lookup field = some value ∧
      word <:+: Text.fold value.fieldText := by
  unfold hasWord
  cases document.lookup field with
  | none => simp
  | some value => simp [Text.occurs_iff]

/-- A query that has a word is read as it is evaluated, and one without finds nothing. -/
theorem hasWords_eq {fields : List String} {query : String}
    (settled : wordless = false ∨ Text.words query.toList ≠ []) :
    hasWords wordless document fields query = Filter.accepts document (.words fields query) := by
  have asked : (wordless || !(queryWords query).isEmpty) ↔ Text.words query.toList ≠ [] := by
    rw [Bool.or_eq_true, Bool.not_eq_true', List.isEmpty_eq_false_iff, queryWords, ne_eq,
      List.map_eq_nil_iff]
    refine or_iff_right_of_imp fun wanted => ?_
    exact settled.resolve_left (by simp [wanted])
  rw [Bool.eq_iff_iff, Filter.accepts_words, Json.Mentions, hasWords, Bool.and_eq_true, asked]
  simp only [queryWords, List.all_eq_true, List.any_eq_true, List.forall_mem_map, hasWord_iff]

theorem mapM_string? (fields : List String) : (fields.map Json.str).mapM string? = some fields := by
  rw [List.mapM_map]
  exact List.mapM_pure.trans (congrArg some (List.map_id fields))

theorem readWords_toQuery (fields : List String) (query : String) :
    readWords wordless document (.object [("query", .str query),
      ("fields", .arr (fields.map .str)), ("default_operator", .str "and")]) =
      some (hasWords wordless document fields query) := by
  have member (key : String) : (Json.object [("query", .str query),
      ("fields", .arr (fields.map .str)), ("default_operator", .str "and")]).get? key =
      if "default_operator" = key then some (.str "and")
      else if "fields" = key then some (.arr (fields.map .str))
      else if "query" = key then some (.str query) else none := by
    simp only [Json.object, Json.get?, Entries.ofList, List.foldl_cons, List.foldl_nil,
      Entries.find?_insert]
    rfl
  have text : (some (Json.str query)).bind string? = some query := rfl
  have operator : (some (Json.str "and")).bind string? = some "and" := rfl
  rw [readWords, member, member, member]
  simp only [String.reduceEq, if_true, if_false, text, operator, mapM_string?, Option.bind_eq_bind,
    Option.bind_some]

theorem least_holds (answers : List Bool) : decide (1 ≤ answers.count true) = answers.any id := by
  rw [Bool.eq_iff_iff, decide_eq_true_iff, Nat.succ_le_iff, List.count_pos_iff, List.any_eq_true]
  simp

theorem should_eq (queries : List Json) :
    Json.object [("should", .arr queries), ("minimum_should_match", .ofNat 1)] =
      .obj [("minimum_should_match", .ofNat 1), ("should", .arr queries)] := by
  have before : "minimum_should_match" < "should" := by decide
  have apart : "minimum_should_match" ≠ "should" := by decide
  rw [Json.object, Entries.ofList, List.foldl_cons, List.foldl_cons, List.foldl_nil, Entries.insert,
    Entries.insert, if_neg apart, if_pos before]

mutual

theorem read_toQuery (filter : Filter) (settled : wordless = false ∨ filter.Worded) :
    read wordless document filter.toQuery = some (filter.accepts document) := by
  match filter with
  | .everything | .nothing => rfl
  | .equals field value =>
    rw [Filter.accepts, ← hasValue_eq]
    rfl
  | .oneOf field values =>
    have same : Filter.holds (document.lookup field) = hasValue document field :=
      funext fun value => (hasValue_eq document field value).symm
    rw [Filter.accepts, same]
    rfl
  | .words fields query =>
    rw [← hasWords_eq settled, ← readWords_toQuery]
    rfl
  | .allOf filters =>
    have answers := readAll_toQueries filters settled
    simp [Filter.toQuery, Filter.single, read, readClauses, answers, Filter.accepts,
      Filter.acceptsAll_eq]
  | .anyOf filters =>
    have answers := readAll_toQueries filters settled
    have least : leastOf [("minimum_should_match", .ofNat 1),
        ("should", .arr (Filter.toQueries filters))] = some 1 := rfl
    -- the clauses are written in the order of their names
    rw [Filter.toQuery, should_eq, Filter.accepts, Filter.acceptsAny_eq, ← least_holds]
    simp [Filter.single, read, readClauses, answers, least]
  | .negation filter =>
    have answer := read_toQuery filter settled
    simp [Filter.toQuery, Filter.single, read, readClauses, readAll, answer, Filter.accepts]

theorem readAll_toQueries (filters : List Filter)
    (settled : wordless = false ∨ Filter.AllWorded filters) :
    readAll wordless document (Filter.toQueries filters) =
      some (filters.map (Filter.accepts document)) := by
  match filters with
  | [] => rfl
  | filter :: rest =>
    have first := read_toQuery filter (settled.imp_right And.left)
    have others := readAll_toQueries rest (settled.imp_right And.right)
    simp [Filter.toQueries, readAll, first, others]

end

/-- What a filter accepts is what a cluster finds by its query, provided that nothing is found by a
query without words. A filter whose queries all have words leaves nothing to provide. And filters
with equal queries accept the same documents. -/
theorem read_eq_accepts (filter : Filter) :
    (∀ document, read false document filter.toQuery = some (filter.accepts document)) ∧
      (filter.Worded → ∀ wordless document,
        read wordless document filter.toQuery = some (filter.accepts document)) ∧
      ∀ other : Filter, other.toQuery == filter.toQuery →
        ∀ document, other.accepts document = filter.accepts document := by
  have agrees (filter : Filter) (document : Json) :
      read false document filter.toQuery = some (filter.accepts document) :=
    read_toQuery filter (Or.inl rfl)
  refine ⟨agrees filter, fun worded _ _ => read_toQuery filter (Or.inr worded), ?_⟩
  intro other equal document
  have same : read false document other.toQuery = read false document filter.toQuery :=
    read_congr equal
  rw [agrees, agrees] at same
  exact Option.some.inj same

/-- Two ways to write a red door that is not weightless; the weights are the two zeros. -/
private def redDoor (negative : Bool) : Filter :=
  .allOf [.words ["title", "note"] "RED door", .negation (.anyOf [.nothing, .oneOf "tags" []]),
    .negation (.equals "weight" (.num (.float (.zero negative))))]

private def door : Json :=
  .obj [("note", .str "Door 7"), ("title", .str "a red one"), ("weight", .num (.int 3))]

/-- The door is found, whichever zero its weight is compared with. -/
theorem read_eq_accepts_door : (redDoor true).toQuery == (redDoor false).toQuery ∧
    read true door (redDoor true).toQuery = some true ∧ (redDoor false).accepts door := by
  obtain ⟨-, worded, -⟩ := read_eq_accepts (redDoor true)
  obtain ⟨-, -, same⟩ := read_eq_accepts (redDoor false)
  have equal : (redDoor true).toQuery == (redDoor false).toQuery := by decide
  have found : (redDoor true).accepts door := by decide
  refine ⟨equal, ?_, ?_⟩
  · rw [worded (by simp [redDoor, Filter.Worded, Filter.AllWorded]; decide) true door, found]
  · rw [← same (redDoor true) equal door, found]

/-- Every word of a blank query is in a field, and yet its filter accepts nothing. -/
theorem read_blank_differs :
    read true (.obj [("title", .str "red")]) (Filter.words ["title"] " ").toQuery = some true ∧
      (Filter.words ["title"] " ").accepts (.obj [("title", .str "red")]) = false := by
  decide

end Query

end SearchRelay
