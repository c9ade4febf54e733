import SearchRelay.Proofs.Search.Coverage
import SearchRelay.Proofs.Search.Paging
import SearchRelay.Proofs.Text.Feeds

/-!
Snippets of the files on a page. The first mark in a marked text stands before the first occurrence
of a word, and marks bring no line feeds. So a snippet ends on the first line of its file in which
a word of the query occurs, and on the first line of all where no line does.
-/

namespace SearchRelay

/-! ### The first match -/

/-- The places where one of the words begins in a text, in characters. Case of the text does not
count. -/
def Text.places (words : List (List Char)) (text : List Char) : Set Nat :=
  {place | ∃ word ∈ words, word ≠ [] ∧ word <+: (fold text).drop place}

namespace Highlighted

/-- The first place that is covered is the first one where a word begins. -/
theorem isLeast_places {words : List (List Char)} {text : List Char} {place : Nat}
    (set : (covered words text)[place]? = some true)
    (clear : ∀ i < place, (covered words text)[i]? = some false) :
    IsLeast (Text.places words text) place := by
  constructor
  · obtain ⟨word, known, nonempty, start, low, high, occurs, whole⟩ := within_of_covered set
    -- an occurrence that began earlier would be covered there
    obtain rfl : start = place := by
      refine Nat.le_antisymm low (Nat.le_of_not_lt fun early => ?_)
      have other := whole start (Nat.le_refl _) (by omega)
      rw [clear start early] at other
      cases other
    exact ⟨word, known, nonempty, occurs⟩
  · rintro other ⟨word, known, nonempty, occurs⟩
    refine Nat.le_of_not_lt fun early => ?_
    have bit := covered_iff.2 ⟨word, known, nonempty, coverage_of_occurs nonempty occurs⟩
    rw [clear other early] at bit
    cases bit

theorem marksOf_clear {runs : List Run} (clear : ∀ run ∈ runs, run.marked = false) :
    marksOf runs = List.replicate (textOf runs).length false := by
  refine List.eq_replicate_iff.2 ⟨length_marksOf runs, fun bit inside => ?_⟩
  obtain ⟨run, known, here⟩ := List.mem_flatMap.1 inside
  rw [(List.mem_replicate.1 here).2, clear run known]

/-- Where words are marked, the first match begins at the first place where a word begins. -/
theorem ofWords?_first {words : List (List Char)} {text : List Char} {found : Highlighted}
    (made : ofWords? words text = some found) :
    ∃ lead run rest, found.runs = lead ++ run :: rest ∧ run.isMatch ∧
      (∀ other ∈ lead, other.marked = false) ∧
      IsLeast (Text.places words text) (textOf lead).length := by
  have matched := matches_ofWords? made
  cases first : found.runs.find? Run.marked with
  | none =>
    obtain ⟨word, known, nonempty, left, right, occurs⟩ := exists_occurrence made
    have set := List.mem_of_getElem? (covered_of_occurs known nonempty occurs)
    rw [← matched.marks] at set
    obtain ⟨run, inside, bit⟩ := List.mem_flatMap.1 set
    exact absurd (List.mem_replicate.1 bit).2.symm (List.find?_eq_none.1 first run inside)
  | some run =>
    obtain ⟨marked, lead, rest, split, clear⟩ := List.find?_eq_some_iff_append.1 first
    replace clear : ∀ other ∈ lead, other.marked = false := by simpa using clear
    have solid := matched.tidy.solid run (split ▸ by simp)
    have bits : covered words text =
        List.replicate (textOf lead).length false ++ marksOf (run :: rest) := by
      rw [← matched.marks, split, marksOf_append, marksOf_clear clear]
    refine ⟨lead, run, rest, split, Run.isMatch_iff.2 ⟨marked, solid⟩, clear, isLeast_places ?_ ?_⟩
    · have size := List.length_pos_iff.2 solid
      rw [bits, List.getElem?_append_right (by simp)]
      simp [marksOf, marked, size]
    · intro i before
      rw [bits, List.getElem?_append_left (by simpa using before)]
      simp [before]

/-- The first mark stands before an occurrence of a word, and none lies before it. -/
theorem ofWords?_mark {words : List (List Char)} {text : List Char} {found : Highlighted}
    (made : ofWords? words text = some found) :
    ∃ before inside after, text = before ++ inside ++ after ∧ inside ≠ [] ∧
      Text.fold inside ∈ words ∧ (∃ rest, found.withMarks = before ++ startMark ++ rest) ∧
      ∀ word ∈ words, word ≠ [] → ¬ word <:+: Text.fold before := by
  obtain ⟨lead, run, rest, split, isMatch, clear, least⟩ := ofWords?_first made
  obtain rfl : textOf lead ++ textOf (run :: rest) = text := by
    rw [← (matches_ofWords? made).whole, split, textOf_append]
  obtain ⟨⟨word, known, nonempty, occurs⟩, first⟩ := least
  rw [Text.fold_append, ← Text.length_fold, List.drop_left] at occurs
  let tail := textOf (run :: rest)
  have here : Text.fold (tail.take word.length) = word := by
    rw [Text.fold, List.map_take]
    exact (List.prefix_iff_eq_take.1 occurs).symm
  refine ⟨textOf lead, tail.take word.length, tail.drop word.length, by simp [tail], ?_,
    here.symm ▸ known, ⟨run.text ++ endMark ++ rest.flatMap runWithMarks, ?_⟩, ?_⟩
  · exact fun empty => nonempty (by rw [← here, empty]; rfl)
  · have plain : lead.flatMap runWithMarks = textOf lead :=
      List.flatMap_congr fun other inside => by simp [runWithMarks, clear other inside]
    rw [withMarks, split, List.flatMap_append, List.flatMap_cons, plain, runWithMarks,
      if_pos (Run.isMatch_iff.1 isMatch).1]
    simp
  · rintro other member solid ⟨left, right, inside⟩
    have early : left.length ∈ Text.places words (textOf lead ++ tail) := by
      refine ⟨other, member, solid, ?_⟩
      rw [Text.fold_append, ← inside, List.append_assoc, List.append_assoc, List.drop_left]
      exact List.prefix_append _ _
    have low := first early
    have size := congrArg List.length inside
    have positive := List.length_pos_iff.2 solid
    rw [List.length_append, List.length_append, Text.length_fold] at size
    omega

end Highlighted

/-! ### The line of the first mark -/

namespace Text

/-- A word of the query occurs in a text. Case does not count. -/
def Mentions (query : String) (text : List Char) : Prop :=
  ∃ word ∈ words query.toList, fold word <:+: fold text

/-- The numbers of the lines in which a word of the query occurs, from one on. -/
def mentioning (query : String) (content : List Char) : Set Nat :=
  {number | ∃ i line, number = i + 1 ∧ (wholeLines content)[i]? = some line ∧ Mentions query line}

theorem mentions_iff {query : String} {text : List Char} :
    Mentions query text ↔ ∃ word ∈ queryWords query, word <:+: fold text := by
  simp [Mentions, queryWords]

/-- A text gets no marks if and only if no word of the query occurs in it. -/
theorem unmarked_iff {query : String} {text : List Char} :
    Highlighted.ofWords? (queryWords query) text = none ↔ ¬ Mentions query text := by
  rw [Highlighted.ofWords?_eq_none, mentions_iff]
  push Not
  exact forall₂_congr fun word known => forall_prop_of_true (mem_queryWords known).1

theorem mentioning_eq_empty {query : String} {content : List Char}
    (unmarked : Highlighted.ofWords? (queryWords query) content = none) :
    mentioning query content = ∅ := by
  refine Set.eq_empty_of_forall_notMem ?_
  rintro _ ⟨i, line, rfl, here, word, known, occurs⟩
  have inside := infix_of_mem_wholeLines (List.mem_of_getElem? here)
  exact unmarked_iff.1 unmarked ⟨word, known, occurs.trans (infix_fold inside)⟩

/-- The line feeds before the first mark tell the first line that mentions a word. -/
theorem isLeast_mentioning {query : String} {content : List Char} {found : Highlighted}
    (made : Highlighted.ofWords? (queryWords query) content = some found)
    (free : ¬ startMark <:+: content) :
    ∃ feeds, Snippet.linesBeforeMark found.withMarks = some feeds ∧
      feeds < (wholeLines content).length ∧ IsLeast (mentioning query content) (feeds + 1) := by
  obtain ⟨before, inside, after, rfl, nonempty, known, ⟨rest, written⟩, first⟩ :=
    Highlighted.ofWords?_mark made
  have whole : '\n' ∉ inside := mt feed_mem_fold.2 (mem_queryWords known).2
  obtain ⟨earlier, line, later, split, count, part, covered⟩ :=
    wholeLines_place before nonempty whole after
  refine ⟨before.count '\n', ?_, ?_, ⟨_, line, rfl, ?_, ?_⟩, ?_⟩
  · have start : ¬ startMark <:+: before := fun inside' =>
      free (inside'.trans (by rw [List.append_assoc]; exact (List.prefix_append _ _).isInfix))
    rw [Snippet.linesBeforeMark, written, cut?_append Highlighted.unbordered_startMark start]
    rfl
  · rw [split, ← count, List.length_append, List.length_cons]
    omega
  · rw [split, ← count]
    simp
  · exact mentions_iff.2 ⟨_, known, infix_fold part⟩
  · -- an earlier line lies before the first mark, where no word occurs
    rintro _ ⟨i, other, rfl, here, mentions⟩
    refine Nat.succ_le_succ (Nat.le_of_not_lt fun early => ?_)
    rw [split, List.getElem?_append_left (count ▸ early)] at here
    obtain ⟨word, member, occurs⟩ := mentions_iff.1 mentions
    have inside' := (List.infix_of_mem_flatten (List.mem_of_getElem? here)).trans covered.isInfix
    exact first word member (mem_queryWords member).1 (occurs.trans (infix_fold inside'))

end Text

/-! ### Snippets -/

theorem Json.lookup_content {document : Json} {content : String}
    (known : document.lookup "blob.content" = some (.str content)) :
    ∃ blob, document.lookup "blob" = some blob ∧ Snippet.stringMember blob "content" = content := by
  have first : "blob".toList.splitOn '.' = ["blob".toList] := by decide
  have second : "blob.content".toList.splitOn '.' = ["blob".toList, "content".toList] := by decide
  simp only [Json.lookup, first, second, List.foldl_cons, List.foldl_nil, Option.bind_some,
    String.ofList_toList] at known ⊢
  obtain ⟨blob, here, member⟩ := Option.bind_eq_some_iff.1 known
  exact ⟨blob, here, by rw [Snippet.stringMember, member]⟩

namespace MemoryCluster

theorem wordsOfAll_eq (filters : List Filter) :
    wordsOf.wordsOfAll filters = filters.flatMap wordsOf := by
  induction filters with
  | nil => rfl
  | cons filter rest ih => rw [wordsOf.wordsOfAll, ih, List.flatMap_cons]

theorem wordsOf_projectFilter (visibility : Visibility) (field : String) :
    wordsOf (visibility.projectFilter field) = [] := by
  unfold Visibility.projectFilter
  split <;> rfl

theorem wordsOf_confidentialityFilter (visibility : Visibility) :
    wordsOf visibility.confidentialityFilter = [] := by
  unfold Visibility.confidentialityFilter
  split
  next => rfl
  next user projects _ => cases user <;> cases projects <;> rfl

/-- The words that are marked in a document are those of the query, in every scope. -/
theorem wordsOf_scopeFilter (question : Question) (scope : Scope) :
    wordsOf (question.scopeFilter scope) = queryWords question.query := by
  have trimmed : queryWords (String.ofList (Text.trim question.query.toList)) =
      queryWords question.query := by
    rw [queryWords, String.toList_ofList, Text.words_trim]
    rfl
  have silent {α : Type} (kept : Option α) (f : α → Filter)
      (wordless : ∀ value, wordsOf (f value) = []) : (kept.map f).toList.flatMap wordsOf = [] := by
    cases kept with
    | none => rfl
    | some value => simp [wordless]
  have projects := silent scope.projectField _ (wordsOf_projectFilter question.visibility)
  have states := silent question.wantedState? (fun state => .equals "state" (.str state)) fun _ => rfl
  have flags := silent question.narrowing.confidential
    (fun value => .equals "confidential" (.bool value)) fun _ => rfl
  rw [Question.scopeFilter, wordsOf, wordsOfAll_eq]
  simp only [List.flatMap_append, projects]
  -- every part of the filter but the query is silent, whether the scope has it or not
  split <;> split <;> split <;>
    simp [wordsOf, trimmed, states, flags, wordsOf_confidentialityFilter]

/-- A field of a document with marks around the words, if it is a text that holds any. -/
def markedField? (words : List (List Char)) (source : Json) (field : String) : Option String :=
  match source.lookup field with
  | some (.str text) =>
    (Highlighted.ofWords? words text.toList).map fun found => String.ofList found.withMarks
  | _ => none

theorem markedFields_eq (words : List (List Char)) (source : Json) (fields : List String) :
    markedFields words source fields = fields.foldl (fun marked field =>
      match markedField? words source field with
      | some text => Entries.insert field [text] marked
      | none => marked) [] := by
  rw [markedFields]
  congr 1
  funext marked field
  unfold markedField?
  cases source.lookup field with
  | none => rfl
  | some value =>
    cases value with
    | str text =>
      dsimp only
      cases Highlighted.ofWords? words text.toList <;> rfl
    | _ => rfl

theorem find?_markedFields (words : List (List Char)) (source : Json) (fields : List String)
    (field : String) : Entries.find? (markedFields words source fields) field =
      if field ∈ fields then (markedField? words source field).map fun marked => [marked]
      else none := by
  have gathered (marked : List (String × List String)) :
      Entries.find? (fields.foldl (fun marked field =>
        match markedField? words source field with
        | some text => Entries.insert field [text] marked
        | none => marked) marked) field =
      (if field ∈ fields then (markedField? words source field).map fun marked => [marked]
        else none).or (Entries.find? marked field) := by
    induction fields generalizing marked with
    | nil => rfl
    | cons other rest ih =>
      rw [List.foldl_cons, ih]
      by_cases same : other = field
      · subst same
        cases made : markedField? words source other with
        | none => simp
        | some text => by_cases later : other ∈ rest <;> simp [Entries.find?_insert, later]
      · cases made : markedField? words source other with
        | none => simp [Ne.symm same]
        | some text => simp [Entries.find?_insert, same, Ne.symm same]
  rw [markedFields_eq, gathered, show Entries.find? [] field = none from rfl, Option.or_none]

theorem marked?_hit (question : Question) (scope : Scope) (document : StoredDocument)
    (field : String) :
    (question.hit scope document).marked? field = if field ∈ scope.highlightFields then
      (markedField? (queryWords question.query) document.source field).map fun marked => [marked]
    else none := by
  have marked : (question.hit scope document).highlight =
      markedFields (queryWords question.query) document.source scope.highlightFields := by
    rw [← wordsOf_scopeFilter question scope]
    cases fields : scope.highlightFields with
    | nil => simp [Question.hit, toHit, Question.request, fields, markedFields]
    | cons => simp [Question.hit, toHit, Question.request, fields]
  rw [Hit.marked?, marked, find?_markedFields]

end MemoryCluster

namespace Snippet

/-- The snippet of a content for a query. Its last line is the first one in which a word of the
query occurs, or the first one of all, and up to two lines stand before it. -/
structure EndsOnMatch (query : String) (content : List Char) (snippet : Snippet) : Prop where
  matched : ∀ number, snippet.matchLine = some number ↔ IsLeast (Text.mentioning query content) number
  start : snippet.startLine = max 1 (snippet.matchLine.getD 1 - 2)
  data : snippet.data = String.ofList (((Text.wholeLines content).take
    (snippet.matchLine.getD 1)).drop (snippet.startLine - 1)).flatten

theorem window_eq (lines : List (List Char)) (last : Nat) :
    window lines last = (lines.take (last + 1)).drop (last - leadingLines) := by
  rw [window, List.drop_take]

theorem endsOnMatch {scope : Scope} (file : scope.isBlob) {question : Question}
    {document : StoredDocument} {content : String}
    (known : document.source.lookup "blob.content" = some (.str content))
    (free : ¬ startMark <:+: content.toList) {snippet : Snippet}
    (read : ofHit (question.hit scope document) none = .ok snippet) :
    snippet.EndsOnMatch question.query content.toList := by
  obtain ⟨blob, here, text⟩ := Json.lookup_content known
  have fields : scope.highlightFields = ["blob.content"] := by
    cases scope <;> first | rfl | cases file
  have marked : (question.hit scope document).marked? "blob.content" =
      (Highlighted.ofWords? (queryWords question.query) content.toList).map fun found =>
        [String.ofList found.withMarks] := by
    rw [MemoryCluster.marked?_hit, fields, if_pos (List.mem_singleton_self _),
      MemoryCluster.markedField?, known]
    exact Option.map_map _ _ _
  have source : (question.hit scope document).source = document.source := rfl
  rw [ofHit, source, here] at read
  simp only [marked, text] at read
  obtain rfl := Except.ok.inj read
  cases made : Highlighted.ofWords? (queryWords question.query) content.toList with
  | none =>
    -- without a mark the first line is shown
    have nothing := Text.mentioning_eq_empty made
    constructor
    · intro number
      simp [nothing, IsLeast]
    · simp [leadingLines]
    · simp [leadingLines, window_eq]
  | some found =>
    obtain ⟨feeds, before, inside, least⟩ := Text.isLeast_mentioning made free
    have last : min feeds ((Text.wholeLines content.toList).length - 1) = feeds := by omega
    constructor
    · intro number
      simp only [Option.map_some, Option.bind_some, List.head?_cons, String.toList_ofList, before,
        Option.getD_some, last, Option.some.injEq]
      exact ⟨fun same => same ▸ least, fun other => least.unique other⟩
    · simp only [Option.map_some, Option.bind_some, List.head?_cons, String.toList_ofList, before,
        Option.getD_some, last, leadingLines]
      omega
    · simp [before, last, window_eq]

end Snippet

/-! ### Pages of snippets -/

theorem ResultItem.forall₂_ofHits {scope : Scope} {hits : List Hit} {items : List ResultItem}
    (read : ofHits scope hits = .ok items) :
    List.Forall₂ (fun hit item => ofHit scope hit = .ok item) hits items := by
  induction hits generalizing items with
  | nil =>
    obtain rfl := Except.ok.inj read
    exact List.Forall₂.nil
  | cons hit rest ih =>
    rw [ofHits] at read
    cases first : ofHit scope hit with
    | error report => rw [first] at read; cases read
    | ok item =>
      cases others : ofHits scope rest with
      | error report => rw [first, others] at read; cases read
      | ok later =>
        rw [first, others] at read
        obtain rfl := Except.ok.inj read
        exact List.Forall₂.cons first (ih others)

/-- The documents that a page of a scope stands for. A blank question has none, and neither has a
page that no backend reaches. -/
def Question.onPage (question : Question) (documents : List StoredDocument) (scope : Scope)
    (request : PageRequest) : List StoredDocument :=
  if question.isBlank || !Results.inWindow request then []
  else (((MemoryCluster.holding documents).matching (question.request scope 0 0)).drop
    request.offset).take request.perPage

section
variable {question : Question} {request : PageRequest}

theorem Question.onPage_reached (asked : ¬ question.isBlank) (reached : Results.inWindow request)
    (documents : List StoredDocument) (scope : Scope) :
    question.onPage documents scope request =
      (((MemoryCluster.holding documents).matching (question.request scope 0 0)).drop
        request.offset).take request.perPage := if_neg (by simp [asked, reached])

theorem Question.onPage_blank (blank : question.isBlank) (documents : List StoredDocument)
    (scope : Scope) : question.onPage documents scope request = [] := if_pos (by simp [blank])

theorem Question.onPage_far (far : ¬ Results.inWindow request) (documents : List StoredDocument)
    (scope : Scope) : question.onPage documents scope request = [] := if_pos (by simp [far])

end

namespace Results

variable {question : Question} {documents : List StoredDocument} {now : Results × MemoryCluster}

theorem request_page {backend : Backend σ} {results : Results} {state : σ} {scope : Scope}
    {request : PageRequest} {shown : Page ResultItem}
    (told : (results.page backend scope request state).1 = .ok shown) : shown.request = request := by
  have mapped {α : Type} {answer : Outcome α} {f : α → Page ResultItem}
      (always : ∀ value, (f value).request = request) (told : answer.map f = .ok shown) :
      shown.request = request := by
    cases answer with
    | error report => cases told
    | ok value =>
      obtain rfl := Except.ok.inj told
      exact always value
  unfold Results.page at told
  dsimp only at told
  split at told
  next =>
    obtain rfl := Except.ok.inj told
    rfl
  split at told
  next =>
    split at told
    next => cases told
    next => exact mapped (fun _ => rfl) told
  next => exact mapped (fun _ => rfl) told

/-- An answer is that of the cluster, whether it was remembered or not. -/
theorem Recites.answer_eq (recites : Recites question documents now) {scope : Scope}
    {request : PageRequest} {found : SearchAnswer}
    (told : (now.1.answer MemoryCluster.backend scope request now.2).1 = .ok found) :
    found = MemoryCluster.found documents
      (question.request scope request.offset request.perPage) := by
  unfold answer at told
  dsimp only at told
  split at told
  next known remembered =>
    obtain rfl := Except.ok.inj told
    exact recites.pages scope request known remembered
  next =>
    have correct := (honest_memory documents).answered
      (now.1.question.request scope request.offset request.perPage) now.2
    generalize MemoryCluster.backend.search _ now.2 = reply at told correct
    obtain ⟨reply, after⟩ := reply
    cases reply with
    | error report => cases told
    | ok answer =>
      obtain rfl := Except.ok.inj told
      exact recites.asks ▸ correct answer recites.good rfl

/-- The items of a page are read from the hits of its documents, in their order. -/
theorem Recites.page_items (recites : Recites question documents now) {scope : Scope}
    {request : PageRequest} {shown : Page ResultItem}
    (told : (now.1.page MemoryCluster.backend scope request now.2).1 = .ok shown) :
    List.Forall₂ (fun document item => ResultItem.ofHit scope (question.hit scope document) =
      .ok item) (question.onPage documents scope request) shown.items := by
  have asks := recites.asks
  by_cases blank : question.isBlank
  · rw [Results.page, asks, if_pos blank] at told
    obtain rfl := Except.ok.inj told
    rw [Question.onPage_blank blank]
    exact List.Forall₂.nil
  by_cases reached : inWindow request
  · rw [page_reached _ _ _ _ (asks ▸ blank) reached] at told
    rw [Question.onPage_reached blank reached]
    cases answered : (now.1.answer MemoryCluster.backend scope request now.2).1 with
    | error report => rw [answered] at told; cases told
    | ok found =>
      obtain rfl := Recites.answer_eq recites answered
      rw [answered, pageOf] at told
      cases read : ResultItem.ofHits scope (MemoryCluster.found documents
          (question.request scope request.offset request.perPage)).hits with
      | error report => rw [read] at told; cases told
      | ok items =>
        rw [read] at told
        obtain rfl := Except.ok.inj told
        exact List.forall₂_map_left_iff.1 (ResultItem.forall₂_ofHits read)
  · rw [Results.page, asks, if_neg blank, if_neg reached] at told
    rw [Question.onPage_far reached]
    cases counted : (now.1.count MemoryCluster.backend scope now.2).1 with
    | error report => simp only [counted, Except.map] at told; cases told
    | ok total =>
      simp only [counted, Except.map] at told
      obtain rfl := Except.ok.inj told
      exact List.Forall₂.nil

theorem Recites.exists_page (recites : Recites question documents now)
    (here : now.2.unavailable = false) (scope : Scope) (request : PageRequest) :
    ∃ shown, (now.1.page MemoryCluster.backend scope request now.2).1 = .ok shown := by
  have asks := recites.asks
  by_cases blank : question.isBlank
  · exact ⟨_, by rw [Results.page, asks, if_pos blank]⟩
  by_cases reached : inWindow request
  · have answered := Recites.answered recites here scope request
    let results := (MemoryCluster.holding documents).matching (question.request scope 0 0)
    have found : ∀ document ∈ (results.drop request.offset).take request.perPage,
        question.finds scope document := fun document inside =>
      MemoryCluster.mem_matching (List.mem_of_mem_drop (List.mem_of_mem_take inside))
    obtain ⟨items, read⟩ := ResultItem.ofHits_found (question.request scope 0 0) found
    refine ⟨⟨items, request, results.length⟩, ?_⟩
    rw [page_reached _ _ _ _ (asks ▸ blank) reached, answered, pageOf]
    exact congrArg (Except.map _) read
  · have counted : ∃ total, (now.1.count MemoryCluster.backend scope now.2).1 = .ok total := by
      unfold count
      split
      next => exact ⟨_, rfl⟩
      split
      next => exact ⟨_, rfl⟩
      next => simp [MemoryCluster.backend, MemoryCluster.count, here]
    obtain ⟨total, counted⟩ := counted
    refine ⟨⟨[], request, total⟩, ?_⟩
    rw [Results.page, asks, if_neg blank, if_neg reached]
    simp only [counted]
    rfl

/-- Whatever was asked before, each file on a page is shown by a snippet that ends where its content
first mentions the query, if the content itself does not hold the mark. -/
theorem page_ends_on_matches {scope : Scope} (file : scope.isBlob) (question : Question)
    (cluster : MemoryCluster) (before : List Event) (request : PageRequest) :
    let now := (run before (ask question, cluster)).2
    let answer := (now.1.page MemoryCluster.backend scope request now.2).1
    (now.2.unavailable = false → ∃ shown, answer = .ok shown) ∧
      ∀ shown, answer = .ok shown →
        List.Forall₂ (fun document item => ∀ content,
          document.source.lookup "blob.content" = some (.str content) →
          ¬ startMark <:+: content.toList →
          ∃ snippet, item = .snippet snippet ∧
            snippet.EndsOnMatch question.query content.toList)
          (question.onPage cluster.documents scope request) shown.items := by
  intro now answer
  have recites : Recites question cluster.documents now :=
    Recites.run (recites_ask question cluster) before
  refine ⟨fun here => Recites.exists_page recites here scope request, fun shown told => ?_⟩
  refine (Recites.page_items recites told).imp fun document item read content known free => ?_
  rw [ResultItem.ofHit, if_pos file] at read
  cases made : Snippet.ofHit (question.hit scope document) none with
  | error report => rw [made] at read; cases read
  | ok snippet =>
    rw [made] at read
    exact ⟨snippet, (Except.ok.inj read).symm, Snippet.endsOnMatch file known free made⟩

private def minutesText : String := "Agenda\n\nPaint the wall\nRed?\nA red door.\n"

private def minutes : StoredDocument :=
  ⟨"main", "4_minutes.md", none, .obj [("blob", .obj [("content", .str minutesText),
    ("path", .str "minutes.md")]), ("type", .str "blob")]⟩

private def askDoor : Question :=
  ⟨"main", "door RED", ⟨.all, .everything⟩, ⟨none, none, none⟩, 20⟩

private def doorDesk : Results × MemoryCluster :=
  (run [.call (.count .blobs)] (ask askDoor, .holding [minutes])).2

/-- The fourth line is the first one with a word of the query, though not with both. -/
theorem page_ends_on_matches_minutes :
    (Scope.blobs.isBlob ∧ doorDesk.2.unavailable = false ∧
      minutes.source.lookup "blob.content" = some (.str minutesText) ∧
      ¬ startMark <:+: minutesText.toList) ∧
    ∃ shown snippet,
      (doorDesk.1.page MemoryCluster.backend .blobs (.of 1 20) doorDesk.2).1 = .ok shown ∧
      shown.items = [.snippet snippet] ∧ snippet.matchLine = some 4 ∧ snippet.startLine = 2 ∧
      snippet.data = "\nPaint the wall\nRed?\n" := by
  have here : doorDesk.2.unavailable = false := by decide +kernel
  have known : minutes.source.lookup "blob.content" = some (.str minutesText) := by rfl
  have free : ¬ startMark <:+: minutesText.toList := by decide +kernel
  have file : Scope.blobs.isBlob := rfl
  obtain ⟨answered, snippets⟩ := page_ends_on_matches file askDoor
    (.holding [minutes]) [.call (.count .blobs)] (.of 1 20)
  obtain ⟨shown, told⟩ := answered here
  have one : askDoor.onPage [minutes] .blobs (.of 1 20) = [minutes] := by rfl
  have items := snippets shown told
  rw [MemoryCluster.holding, one] at items
  obtain ⟨item, rest, first, others, same⟩ := List.forall₂_cons_left_iff.1 items
  obtain rfl := List.forall₂_nil_left_iff.1 others
  obtain ⟨snippet, rfl, ends⟩ := first minutesText known free
  have fourth : IsLeast (Text.mentioning askDoor.query minutesText.toList) 4 := by
    refine ⟨⟨3, "Red?\n".toList, rfl, rfl, "RED".toList, by decide, by decide⟩, ?_⟩
    rintro _ ⟨i, line, rfl, stands, mentions⟩
    by_contra early
    have earlier : ∀ i < 3, ∀ line ∈ (Text.wholeLines minutesText.toList)[i]?,
        ∀ word ∈ Text.words askDoor.query.toList, ¬ Text.fold word <:+: Text.fold line := by
      decide +kernel
    obtain ⟨word, member, occurs⟩ := mentions
    exact earlier i (by omega) line stands word member occurs
  have line := (ends.matched 4).2 fourth
  have start := ends.start
  have data := ends.data
  rw [line] at start data
  rw [start] at data
  exact ⟨⟨file, here, known, free⟩, shown, snippet, told, same, line, start,
    data.trans (by decide +kernel)⟩

end Results

end SearchRelay
