import SearchRelay.Proofs.Search.LastPage
import SearchRelay.Proofs.Search.Marking
import SearchRelay.Proofs.Search.Markup

/-!
The fields that markup shows. Of each document on a page it shows the first field in which a word of
the query occurs, as a whole, with the first tag where the first word begins. A document that was
found by another field has no markup.
-/

namespace SearchRelay

/-! ### The markup of marked words -/

namespace Highlighted

/-- Runs without text leave no markup. -/
theorem flatMap_runMarkup_solid (runs : List Run) :
    (solid runs).flatMap runMarkup = runs.flatMap runMarkup := by
  induction runs with
  | nil => rfl
  | cons run rest ih =>
    rw [solid_cons, List.flatMap_cons]
    split
    next empty => simp [ih, runMarkup, empty, escape]
    next => rw [List.flatMap_cons, ih]

theorem toMarkup_parse {words : List (List Char)} {text : List Char} {found : Highlighted}
    (made : ofWords? words text = some found) (starts : ¬ startMark <:+: text)
    (ends : ¬ endMark <:+: text) : (parse found.withMarks).toMarkup = found.toMarkup := by
  have matched := matches_ofWords? made
  have same := runsOf_withMarks matched.tidy.turns (matched.unmistakable starts ends)
  calc (parse found.withMarks).toMarkup
    _ = (solid (runsOf found.withMarks)).flatMap runMarkup := (flatMap_runMarkup_solid _).symm
    _ = (solid found.runs).flatMap runMarkup := congrArg (List.flatMap runMarkup) same
    _ = found.toMarkup := flatMap_runMarkup_solid _

theorem runMarkup_of_not_marked {run : Run} (plain : run.marked = false) :
    runMarkup run = escape run.text := by simp [runMarkup, plain]

theorem flatMap_runMarkup_plain {runs : List Run} (plain : ∀ run ∈ runs, run.marked = false) :
    runs.flatMap runMarkup = escape (textOf runs) := by
  rw [List.flatMap_congr fun run known => runMarkup_of_not_marked (plain run known), escape, textOf,
    List.flatMap_assoc]
  rfl

end Highlighted

/-- The markup of a text with words in it: without the tags and with the entities decoded it is the
text, and its first tag stands where the first word begins. -/
structure Markup.Renders (words : List (List Char)) (text markup : List Char) : Prop where
  whole : decode 0 (dropTags 0 markup) = text
  first : ∃ lead part rest,
    markup = lead ++ Highlighted.openTag ++ part ++ Highlighted.closeTag ++ rest ∧
    '<' ∉ lead ∧ '<' ∉ part ∧ decode 0 lead ++ decode 0 part <+: text ∧
    IsLeast (Text.places words text) (decode 0 lead).length

theorem Markup.renders_of_ofWords? {words : List (List Char)} {text : List Char}
    {found : Highlighted} (made : Highlighted.ofWords? words text = some found)
    (starts : ¬ startMark <:+: text) (ends : ¬ endMark <:+: text) :
    Renders words text (Highlighted.parse found.withMarks).toMarkup := by
  have matched := Highlighted.matches_ofWords? made
  constructor
  case whole =>
    obtain ⟨-, -, -, decoded, -⟩ := toMarkup_safe found.withMarks
    obtain ⟨plain, -⟩ :=
      Highlighted.parse_withMarks matched.tidy.turns (matched.unmistakable starts ends)
    exact decoded.trans (plain.trans matched.whole)
  case first =>
    obtain ⟨lead, run, rest, split, isMatch, clear, least⟩ := Highlighted.ofWords?_first made
    have free (part : List Char) : '<' ∉ Highlighted.escape part := fun inside =>
      ((harmless_escape part).plain _ inside).1 rfl
    have tags : Highlighted.runMarkup run =
        Highlighted.openTag ++ Highlighted.escape run.text ++ Highlighted.closeTag := if_pos isMatch
    refine ⟨Highlighted.escape (Highlighted.textOf lead), Highlighted.escape run.text,
      rest.flatMap Highlighted.runMarkup, ?_, free _, free _, ?_, ?_⟩
    · rw [Highlighted.toMarkup_parse made starts ends, Highlighted.toMarkup, split,
        List.flatMap_append, List.flatMap_cons, Highlighted.flatMap_runMarkup_plain clear, tags]
      simp only [List.append_assoc]
    · rw [decode_escape_self, decode_escape_self, ← matched.whole, split,
        Highlighted.textOf_append, Highlighted.textOf_cons, ← List.append_assoc]
      exact List.prefix_append _ _
    · rwa [decode_escape_self]

/-! ### The first field with a word -/

/-- A text that a field of a document holds, and in which a word of the query occurs. -/
def Json.Quotes (query : String) (source : Json) (field text : String) : Prop :=
  source.lookup field = some (.str text) ∧ Text.Mentions query text.toList

/-- The text of the first field with marks in which a word of the query occurs. -/
def Scope.QuotesFirst (scope : Scope) (query : String) (source : Json) (text : String) : Prop :=
  ∃ before field after, scope.highlightFields = before ++ field :: after ∧
    source.Quotes query field text ∧
    ∀ other ∈ before, ∀ earlier, ¬ source.Quotes query other earlier

namespace MemoryCluster

section
variable {query : String} {source : Json} {field : String}

theorem markedField?_eq_none : markedField? (queryWords query) source field = none ↔
    ∀ text, ¬ source.Quotes query field text := by
  unfold markedField? Json.Quotes
  split
  next text known => simp [known, Text.unmarked_iff]
  next other => exact iff_of_true rfl fun text quotes => other text quotes.1

theorem markedField?_eq_some {marked : String} :
    markedField? (queryWords query) source field = some marked ↔
      ∃ text found, source.Quotes query field text ∧
        Highlighted.ofWords? (queryWords query) text.toList = some found ∧
        marked = String.ofList found.withMarks := by
  constructor
  · intro made
    have quoted : ¬ ∀ text, ¬ source.Quotes query field text := fun unquoted => by
      rw [markedField?_eq_none.2 unquoted] at made
      cases made
    push Not at quoted
    obtain ⟨text, known, mentions⟩ := quoted
    rw [markedField?, known] at made
    obtain ⟨found, marks, rfl⟩ := Option.map_eq_some_iff.1 made
    exact ⟨text, found, ⟨known, mentions⟩, marks, rfl⟩
  · rintro ⟨text, found, ⟨known, -⟩, made, rfl⟩
    rw [markedField?, known]
    exact congrArg (Option.map _) made

end

end MemoryCluster

namespace Results

section
variable (question : Question) (scope : Scope) (document : StoredDocument)

theorem markedText?_hit : markedText? scope (question.hit scope document) =
    scope.highlightFields.findSome?
      (MemoryCluster.markedField? (queryWords question.query) document.source) := by
  rw [markedText?, ← List.head?_filterMap, ← List.head?_filterMap]
  refine congrArg List.head? (List.filterMap_congr fun field known => ?_)
  rw [MemoryCluster.marked?_hit, if_pos known]
  cases MemoryCluster.markedField? (queryWords question.query) document.source field <;> rfl

theorem markedText?_eq_none : markedText? scope (question.hit scope document) = none ↔
    ∀ field ∈ scope.highlightFields, ∀ text,
      ¬ document.source.Quotes question.query field text := by
  rw [markedText?_hit, List.findSome?_eq_none_iff]
  exact forall₂_congr fun field _ => MemoryCluster.markedField?_eq_none

variable {question scope document}

/-- What is marked in a hit is the first field of its document with a word of the query. -/
theorem quotesFirst_of_marked {marked : String}
    (made : markedText? scope (question.hit scope document) = some marked) :
    ∃ text found, scope.QuotesFirst question.query document.source text ∧
      Highlighted.ofWords? (queryWords question.query) text.toList = some found ∧
      marked = String.ofList found.withMarks := by
  rw [markedText?_hit] at made
  obtain ⟨before, field, after, split, here, earlier⟩ := List.findSome?_eq_some_iff.1 made
  obtain ⟨text, found, quotes, marks, rfl⟩ := MemoryCluster.markedField?_eq_some.1 here
  exact ⟨text, found, ⟨before, field, after, split, quotes,
    fun other known => MemoryCluster.markedField?_eq_none.1 (earlier other known)⟩, marks, rfl⟩

end

/-! ### Entries of markup -/

/-- The number that a document is shown under. -/
def number? (document : StoredDocument) : Option Nat :=
  Snippet.wordMember? document.source "id"

theorem perm_setMarkup {id : Nat} (text : String) {markup : List (Nat × String)}
    (new : id ∉ markup.map Prod.fst) : (setMarkup id text markup).Perm ((id, text) :: markup) := by
  fun_induction setMarkup id text markup with
  | case1 => exact List.Perm.refl _
  | case2 => exact absurd List.mem_cons_self new
  | case3 => exact List.Perm.refl _
  | case4 other text' rest _ _ ih =>
    have later := ih fun inside => new (List.mem_cons_of_mem _ inside)
    exact (later.cons _).trans (List.Perm.swap _ _ _)

theorem perm_foldl_setMarkup {marks markup : List (Nat × String)}
    (distinct : ((marks ++ markup).map Prod.fst).Nodup) :
    (marks.foldl (fun markup mark => setMarkup mark.1 mark.2 markup) markup).Perm
      (marks ++ markup) := by
  induction marks generalizing markup with
  | nil => exact List.Perm.refl _
  | cons mark rest ih =>
    have moved : ((mark :: rest) ++ markup).Perm (rest ++ mark :: markup) := List.perm_middle.symm
    have other := (moved.map Prod.fst).nodup_iff.1 distinct
    have new : mark.1 ∉ markup.map Prod.fst := by
      rw [List.map_append] at other
      exact (List.nodup_cons.1 other.of_append_right).1
    have set := perm_setMarkup mark.2 new
    refine (ih ?_).trans ((set.append_left rest).trans moved.symm)
    exact ((set.append_left rest).map Prod.fst).nodup_iff.2 other

section
variable {question : Question} {scope : Scope} {page : List StoredDocument}

theorem markOf?_hit {document : StoredDocument} {id : Nat} {markup : String} :
    markOf? scope (question.hit scope document) = some (id, markup) ↔ number? document = some id ∧
      ∃ marked, markedText? scope (question.hit scope document) = some marked ∧
        markup = String.ofList (Highlighted.parse marked.toList).toMarkup := by
  have source : (question.hit scope document).source = document.source := rfl
  unfold markOf? number?
  rw [source]
  cases Snippet.wordMember? document.source "id" <;>
    cases markedText? scope (question.hit scope document) <;> simp [eq_comm]

theorem keys_sublist (question : Question) (scope : Scope) (page : List StoredDocument) :
    ((page.filterMap fun document => markOf? scope (question.hit scope document)).map
      Prod.fst).Sublist (page.filterMap number?) := by
  induction page with
  | nil => exact List.Sublist.refl _
  | cons document rest ih =>
    rw [List.filterMap_cons, List.filterMap_cons]
    cases made : markOf? scope (question.hit scope document) with
    | none =>
      cases number? document with
      | none => exact ih
      | some id => exact ih.cons id
    | some mark =>
      rw [(markOf?_hit.1 made).1]
      exact ih.cons_cons mark.1

/-- Documents with different numbers do not take each other's place. -/
theorem perm_markupOf (question : Question) (scope : Scope)
    (distinct : (page.filterMap number?).Nodup) :
    (markupOf scope (page.map (question.hit scope))).Perm
      (page.filterMap fun document => markOf? scope (question.hit scope document)) := by
  have keys := (keys_sublist question scope page).nodup distinct
  rw [markupOf_eq, List.filterMap_map]
  rw [← List.append_nil (page.filterMap _)] at keys ⊢
  simpa using perm_foldl_setMarkup keys

theorem eq_of_number? (distinct : (page.filterMap number?).Nodup) {left right : StoredDocument}
    (first : left ∈ page) (second : right ∈ page) {id : Nat} (one : number? left = some id)
    (other : number? right = some id) : left = right := by
  have apart := List.pairwise_filterMap.1 distinct
  have symmetric : Std.Symm fun left right : StoredDocument =>
      ∀ id, number? left = some id → ∀ other, number? right = some other → id ≠ other :=
    ⟨fun _ _ differ id known other same => (differ other same id known).symm⟩
  by_contra different
  exact apart.forall first second different id one id other rfl

end

/-- The markup of a page. It has an entry for each number under which a document with a word of the
query in a field with marks is shown, and the entry is the markup of the first such field. -/
structure ShowsTexts (query : String) (scope : Scope) (page : List StoredDocument)
    (marks : List (Nat × String)) : Prop where
  distinct : (marks.map Prod.fst).Nodup
  listed : ∀ id, id ∈ marks.map Prod.fst ↔ ∃ document ∈ page, number? document = some id ∧
    ∃ field ∈ scope.highlightFields, ∃ text, document.source.Quotes query field text
  shown : ∀ document ∈ page, ∀ id markup, number? document = some id → (id, markup) ∈ marks →
    ∃ text, scope.QuotesFirst query document.source text ∧
      Markup.Renders (queryWords query) text.toList markup.toList

/-- The fields of a document that are shown with marks hold no marks themselves. -/
def Markless (scope : Scope) (document : StoredDocument) : Prop :=
  ∀ field ∈ scope.highlightFields, ∀ text, document.source.lookup field = some (.str text) →
    ¬ startMark <:+: text.toList ∧ ¬ endMark <:+: text.toList

theorem showsTexts_markupOf (question : Question) (scope : Scope) {page : List StoredDocument}
    (distinct : (page.filterMap number?).Nodup)
    (free : ∀ document ∈ page, Markless scope document) :
    ShowsTexts question.query scope page (markupOf scope (page.map (question.hit scope))) := by
  have same := perm_markupOf question scope distinct
  have member (mark : Nat × String) : mark ∈ markupOf scope (page.map (question.hit scope)) ↔
      ∃ document ∈ page, markOf? scope (question.hit scope document) = some mark :=
    same.mem_iff.trans List.mem_filterMap
  constructor
  case distinct =>
    exact (same.map Prod.fst).nodup_iff.2 ((keys_sublist question scope page).nodup distinct)
  case listed =>
    intro id
    constructor
    · intro inside
      obtain ⟨mark, known, rfl⟩ := List.mem_map.1 inside
      obtain ⟨document, here, made⟩ := (member mark).1 known
      obtain ⟨number, marked, found, -⟩ := markOf?_hit.1 made
      obtain ⟨text, -, ⟨before, field, after, split, quotes, -⟩, -⟩ := quotesFirst_of_marked found
      exact ⟨document, here, number, field, split ▸ by simp, text, quotes⟩
    · rintro ⟨document, here, number, field, known, text, quotes⟩
      cases found : markedText? scope (question.hit scope document) with
      | none =>
        have unquoted := (markedText?_eq_none question scope document).1 found
        exact absurd quotes (unquoted field known text)
      | some marked =>
        have made := markOf?_hit.2 ⟨number, marked, found, rfl⟩
        exact List.mem_map_of_mem ((member _).2 ⟨document, here, made⟩)
  case shown =>
    intro document here id markup number inside
    obtain ⟨other, there, made⟩ := (member _).1 inside
    obtain ⟨same, marked, found, rfl⟩ := markOf?_hit.1 made
    obtain rfl := eq_of_number? distinct here there number same
    obtain ⟨text, highlighted, first, marks, rfl⟩ := quotesFirst_of_marked found
    obtain ⟨before, field, after, split, quotes, earlier⟩ := first
    obtain ⟨starts, ends⟩ := free document here field (split ▸ by simp) text quotes.1
    refine ⟨text, ⟨before, field, after, split, quotes, earlier⟩, ?_⟩
    rw [String.toList_ofList, String.toList_ofList]
    exact Markup.renders_of_ofWords? marks starts ends

/-! ### The page asked for last -/

/-- The last page of a scope that was asked for in a session, or the first one of all. -/
def askedLast (question : Question) (scope : Scope) (events : List Event) : PageRequest :=
  (events.filterMap (Event.asked? scope)).getLast?.getD (.of 1 question.perPage)

theorem shown_askedLast {question : Question} (asked : ¬ question.isBlank) (scope : Scope)
    (cluster : MemoryCluster) {events : List Event}
    (reached : inWindow (askedLast question scope events)) :
    (run events (ask question, cluster)).2.1.shown scope = askedLast question scope events := by
  refine (@shown_run (ask question, cluster) asked scope events).trans ?_
  unfold askedLast at reached ⊢
  rcases List.eq_nil_or_concat (events.filterMap (Event.asked? scope)) with nothing | ⟨_, last, parts⟩
  · rw [nothing]
    rfl
  · rw [parts] at reached ⊢
    replace reached : inWindow last := by simpa using reached
    simp [reached]

/-- Whatever was asked before, markup shows the texts of the documents on the page asked for last,
if the page can be reached, its documents have different numbers and their texts hold no marks. -/
theorem markup_shows_texts (question : Question) (asked : ¬ question.isBlank)
    (cluster : MemoryCluster) (scope : Scope) (marked : scope.supportsHighlight)
    (before : List Event) :
    let now := (run before (ask question, cluster)).2
    let request := askedLast question scope before
    let page := question.onPage cluster.documents scope request
    now.2.unavailable = false → inWindow request → (page.filterMap number?).Nodup →
      (∀ document ∈ page, Markless scope document) →
      ∃ marks, (now.1.markup MemoryCluster.backend scope now.2).1 = .ok (some marks) ∧
        ShowsTexts question.query scope page marks := by
  intro now request page here reached distinct free
  have recites : Recites question cluster.documents now :=
    Recites.run (recites_ask question cluster) before
  have shown : now.1.shown scope = request := shown_askedLast asked scope cluster reached
  refine ⟨_, Recites.markup recites here asked marked (shown ▸ reached), ?_⟩
  rw [shown]
  exact showsTexts_markupOf question scope distinct free

private def pottery : MemoryCluster :=
  .holding [
    ⟨"main", "project_7", none, .obj [("description", .str "A <b>Pot</b> & a cup"),
      ("id", .ofNat 7), ("name", .str "Tea"), ("path", .str "tea"), ("type", .str "project")]⟩,
    ⟨"main", "project_8", none, .obj [("id", .ofNat 8), ("name", .str "Plain"),
      ("path", .str "pot/plain"), ("type", .str "project")]⟩,
    ⟨"main", "project_9", none, .obj [("name", .str "Pot"), ("path", .str "pot"),
      ("type", .str "project")]⟩]

private def askPot : Question :=
  ⟨"main", "pot", ⟨.all, .everything⟩, ⟨none, none, none⟩, 20⟩

/-- Three projects are found, one by a field without marks and one that has no number. The page was
asked for while the cluster was away. -/
theorem markup_shows_texts_pottery :
    let before : List Event := [.switch true, .call (.page .projects (.of 1 3)), .switch false]
    let now := (run before (ask askPot, pottery)).2
    let request := askedLast askPot .projects before
    let page := askPot.onPage pottery.documents .projects request
    (¬ askPot.isBlank ∧ Scope.projects.supportsHighlight ∧ now.2.unavailable = false ∧
      inWindow request ∧ (page.filterMap number?).Nodup ∧
      ∀ document ∈ page, Markless .projects document) ∧
    ∃ marks, (now.1.markup MemoryCluster.backend .projects now.2).1 = .ok (some marks) ∧
      ShowsTexts askPot.query .projects page marks ∧
      marks = [(7, "A &lt;b&gt;<span class=\"gl-text-gray-900 gl-font-weight-bold\">Pot</span>" ++
        "&lt;/b&gt; &amp; a cup")] := by
  intro before now request page
  have asked : ¬ askPot.isBlank := by decide
  have here : now.2.unavailable = false := by decide +kernel
  have reached : inWindow request := by decide +kernel
  have all : page = pottery.documents := by rfl
  have distinct : (page.filterMap number?).Nodup := by decide +kernel
  have free : ∀ document ∈ page, Markless .projects document := by
    -- marks that are not there without regard to case are not there at all
    have texts : ∀ document ∈ pottery.documents, ∀ field ∈ Scope.projects.highlightFields,
        (document.source.lookup field).all fun value =>
          ¬ Text.fold startMark <:+: Filter.searchable value ∧
            ¬ Text.fold endMark <:+: Filter.searchable value := by decide +kernel
    intro document inside field member text known
    have plain := texts document (all ▸ inside) field member
    rw [known, Option.all_some, decide_eq_true_iff] at plain
    exact plain.imp (mt Text.infix_fold) (mt Text.infix_fold)
  obtain ⟨marks, told, shows⟩ :=
    markup_shows_texts askPot asked pottery .projects rfl before here reached distinct free
  refine ⟨⟨asked, rfl, here, reached, distinct, free⟩, marks, told, shows, ?_⟩
  have read : (now.1.markup MemoryCluster.backend .projects now.2).1.toOption = some (some
      [(7, "A &lt;b&gt;<span class=\"gl-text-gray-900 gl-font-weight-bold\">Pot</span>" ++
        "&lt;/b&gt; &amp; a cup")]) := by decide +kernel
  rw [told] at read
  exact Option.some.inj (Option.some.inj read)

end Results

end SearchRelay
