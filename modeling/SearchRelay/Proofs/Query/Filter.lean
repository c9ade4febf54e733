import SearchRelay.Proofs.Text.Words
import SearchRelay.Query.Filter

/-!
Filters on documents. What a filter of several parts accepts, when a field has a value, and what a
document must have to be found by words.
-/

namespace SearchRelay

/-- A value that equals no other one: it holds no double, and so only one zero. -/
def Json.IsExact : Json → Prop
  | .null | .bool _ | .str _ | .num (.int _) => True
  | _ => False

theorem Json.beq_iff_eq {value : Json} (isExact : value.IsExact) (other : Json) :
    (other == value) = true ↔ other = value := by
  change other.same value = true ↔ other = value
  cases value with
  | num number =>
    cases number with
    | int n =>
      cases other with
      | num number => cases number <;> simp [same, Number.same]
      | null | bool | str | arr | obj => simp [same]
    | float x => exact isExact.elim
  | null | bool | str => cases other <;> simp [same]
  | arr items => exact isExact.elim
  | obj entries => exact isExact.elim

/-- The document has the value in a field, or among those of an array there. -/
def Json.Has (document : Json) (field : String) (value : Json) : Prop :=
  ∃ found, document.lookup field = some found ∧
    match found with
    | .arr items => value ∈ items
    | single => single = value

/-- The text that a field is searched by: a string itself, and any other value as it is written. -/
def Json.fieldText : Json → List Char
  | .str string => string.toList
  | other => other.print

/-- The query has a word, and each of its words occurs in one of the fields. Case does not count. -/
def Json.Mentions (document : Json) (fields : List String) (query : String) : Prop :=
  Text.words query.toList ≠ [] ∧ ∀ word ∈ Text.words query.toList,
    ∃ field ∈ fields, ∃ value, document.lookup field = some value ∧
      Text.fold word <:+: Text.fold value.fieldText

theorem mem_queryWords {query : String} {word : List Char} (known : word ∈ queryWords query) :
    word ≠ [] ∧ '\n' ∉ word := by
  obtain ⟨plain, member, rfl⟩ := List.mem_map.1 known
  refine ⟨mt List.map_eq_nil_iff.1 (Text.isWord_of_mem_words member).1, fun inside => ?_⟩
  exact absurd (Text.isSpace_of_mem_words member (Text.feed_mem_fold.1 inside)) (by decide)

namespace Filter

theorem holds_iff {document : Json} {field : String} {value : Json} (isExact : value.IsExact) :
    holds (document.lookup field) value ↔ document.Has field value := by
  unfold holds Json.Has
  cases document.lookup field with
  | none => simp
  | some found =>
    cases found with
    | arr items => simp [Json.beq_iff_eq isExact]
    | null | bool | num | str | obj => simp [Json.beq_iff_eq isExact]

theorem searchable_eq (value : Json) : searchable value = Text.fold value.fieldText := by
  cases value <;> rfl

/-- Fields that are searched together are found by a word of the query if one of them is. -/
theorem occurs_searchableLines {query : String} {word : List Char}
    (member : word ∈ Text.words query.toList) (fields : List Json) :
    Text.occurs (Text.fold word) (searchableLines fields) ↔
      ∃ value ∈ fields, Text.fold word <:+: Text.fold value.fieldText := by
  obtain ⟨solid, free⟩ := mem_queryWords (List.mem_map_of_mem member)
  rw [Text.occurs_iff, searchableLines, Text.infix_intercalate solid free]
  simp only [List.mem_map, exists_exists_and_eq_and, searchable_eq]

theorem accepts_words {document : Json} {fields : List String} {query : String} :
    accepts document (.words fields query) ↔ document.Mentions fields query := by
  rw [accepts, Bool.and_eq_true, Bool.not_eq_true', List.isEmpty_eq_false_iff, List.all_eq_true,
    queryWords, ne_eq, List.map_eq_nil_iff, List.forall_mem_map]
  refine and_congr_right fun _ => forall₂_congr fun word member => ?_
  rw [occurs_searchableLines member]
  simp only [List.mem_filterMap]
  constructor
  · rintro ⟨value, ⟨field, inside, found⟩, occurs⟩
    exact ⟨field, inside, value, found, occurs⟩
  · rintro ⟨field, inside, value, found, occurs⟩
    exact ⟨value, ⟨field, inside, found⟩, occurs⟩

/-- Fields are searched together as they are one by one: a word of the query lies in one of the
fields wherever it occurs in their lines, and never across two of them. -/
theorem words_in_one_field (document : Json) (fields : List String) (query : String) :
    let found := fields.filterMap document.lookup
    (accepts document (.words fields query) ↔ document.Mentions fields query) ∧
      ∀ word ∈ queryWords query, ∀ before after,
        searchableLines found = before ++ word ++ after →
        ∃ earlier value later start rest, found = earlier ++ value :: later ∧
          Text.fold value.fieldText = start ++ word ++ rest ∧
          before = earlier.flatMap (fun other => searchable other ++ ['\n']) ++ start ∧
          after = rest ++ later.flatMap fun other => '\n' :: searchable other := by
  intro found
  refine ⟨accepts_words, ?_⟩
  intro word known before after whole
  obtain ⟨solid, free⟩ := mem_queryWords known
  obtain ⟨lines, line, others, start, rest, split, here, first, last⟩ :=
    Text.split_intercalate free solid whole
  obtain ⟨earlier, most, cut, rfl, tail⟩ := List.map_eq_append_iff.1 split
  obtain ⟨value, later, rfl, rfl, rfl⟩ := List.map_eq_cons_iff.1 tail
  rw [List.flatMap_map] at first last
  rw [searchable_eq] at here
  exact ⟨earlier, value, later, start, rest, cut, here, first, last⟩

/-- Two words are found in two fields, but no word is made of both. -/
example :
    let document : Json := .obj [("title", .str "Red"), ("text", .str "Door")]
    accepts document (.words ["title", "text"] "door RED") = true ∧
      accepts document (.words ["title", "text"] "reddoor") = false := by decide

theorem acceptsAll_iff {document : Json} {filters : List Filter} :
    acceptsAll document filters ↔ ∀ filter ∈ filters, accepts document filter := by
  induction filters with
  | nil => simp [acceptsAll]
  | cons filter rest ih => simp [acceptsAll, ih]

end Filter

/-- A document that holds the words of a query has one of the fields. -/
theorem Filter.exists_field {document : Json} {fields : List String} {query : String}
    (accepted : accepts document (.words fields query)) :
    ∃ field ∈ fields, (document.lookup field).isSome := by
  obtain ⟨nonempty, all⟩ := accepts_words.1 accepted
  obtain ⟨word, rest, words⟩ := List.exists_cons_of_ne_nil nonempty
  obtain ⟨field, inside, value, known, -⟩ := all word (words ▸ List.mem_cons_self)
  exact ⟨field, inside, Option.isSome_iff_exists.2 ⟨value, known⟩⟩

theorem queryWords_blank {query : List Char} (blank : Text.isBlank query) :
    queryWords (String.ofList (Text.trim query)) = [] := by
  have nothing := Text.words_append_spaces [] query (List.all_eq_true.1 blank)
  rw [List.nil_append, Text.words_nil] at nothing
  rw [queryWords, String.toList_ofList, Text.words_trim, nothing, List.map_nil]

theorem Json.lookup_blob (document : Json) {field : String}
    (path : field = "blob.content" ∨ field = "blob.path")
    (found : (document.lookup field).isSome) : (document.lookup "blob").isSome := by
  have first : "blob".toList.splitOn '.' = ["blob".toList] := by decide
  have content : "blob.content".toList.splitOn '.' = ["blob".toList, "content".toList] := by decide
  have path' : "blob.path".toList.splitOn '.' = ["blob".toList, "path".toList] := by decide
  unfold Json.lookup at found ⊢
  rw [first]
  rcases path with rfl | rfl
  · rw [content, List.foldl_cons, List.foldl_cons] at found
    exact Option.isSome_of_isSome_bind found
  · rw [path', List.foldl_cons, List.foldl_cons] at found
    exact Option.isSome_of_isSome_bind found

end SearchRelay
