import SearchRelay.Proofs.Backend.Ledger
import SearchRelay.Proofs.Search.Truth

/-!
Pages are parts of one list. A page is remembered as the backend gave it, so at every moment of a
session a page that can be reached holds the results at its positions, and its neighbours can be
told from the number of them all.
-/

namespace SearchRelay

namespace PageRequest

/-- The part of the results that stands on a page. -/
def slice {α : Type} (request : PageRequest) (results : List α) : List α :=
  (results.take (request.page * request.perPage)).drop ((request.page - 1) * request.perPage)

theorem perPage_pos (page perPage : Nat) : 0 < (of page perPage).perPage := by
  unfold of maxPerPage
  dsimp only
  omega

theorem page_pos (page perPage : Nat) : 0 < (of page perPage).page := by
  unfold of
  dsimp only
  omega

theorem offset_of_inWindow {request : PageRequest} (reached : Results.inWindow request) :
    request.offset = (request.page - 1) * request.perPage := by
  have window : request.offset + request.perPage ≤ resultWindow := of_decide_eq_true reached
  have large : resultWindow < Text.maxWord := by decide
  unfold offset at window ⊢
  omega

theorem slice_eq {α : Type} {request : PageRequest} (first : 0 < request.page) (results : List α) :
    request.slice results =
      (results.drop ((request.page - 1) * request.perPage)).take request.perPage := by
  have size : request.page * request.perPage - (request.page - 1) * request.perPage =
      request.perPage := by
    rw [← Nat.sub_mul, Nat.sub_sub_self first, Nat.one_mul]
  rw [slice, List.drop_take, size]

theorem mem_of_mem_slice {α : Type} {request : PageRequest} {results : List α} {item : α}
    (inside : item ∈ request.slice results) : item ∈ results :=
  List.mem_of_mem_take (List.mem_of_mem_drop inside)

theorem mem_slice {α : Type} {request : PageRequest} {results : List α} {item : α} :
    item ∈ request.slice results ↔
      ∃ i, (request.page - 1) * request.perPage ≤ i ∧ i < request.page * request.perPage ∧
        results[i]? = some item := by
  rw [slice, List.mem_iff_getElem?]
  simp only [List.getElem?_drop, List.getElem?_take]
  constructor
  · intro ⟨i, here⟩
    split at here
    next before => exact ⟨_, Nat.le_add_right _ i, before, here⟩
    next => cases here
  · intro ⟨i, low, high, here⟩
    refine ⟨i - (request.page - 1) * request.perPage, ?_⟩
    rw [Nat.add_sub_cancel' low, if_pos high, here]

/-- Pages of one size share no result and skip none. -/
theorem existsUnique_slice {α : Type} {results : List α} (apart : results.Nodup) {size : Nat}
    (positive : 0 < size) {item : α} (inside : item ∈ results) :
    ∃! page, 0 < page ∧ item ∈ slice ⟨page, size⟩ results := by
  obtain ⟨i, here⟩ := List.mem_iff_getElem?.1 inside
  refine ⟨i / size + 1, ⟨Nat.succ_pos _, mem_slice.2 ⟨i, ?_, ?_, here⟩⟩, ?_⟩
  · exact Nat.div_mul_le_self i size
  · exact (Nat.div_lt_iff_lt_mul positive).1 (Nat.lt_succ_self _)
  · intro page ⟨first, there⟩
    obtain ⟨j, low, high, again⟩ := mem_slice.1 there
    have bound : i < results.length := (List.getElem?_eq_some_iff.1 here).1
    obtain rfl : i = j := (List.getElem?_inj bound apart).1 (here.trans again.symm)
    have quotient : i / size = page - 1 :=
      Nat.div_eq_of_lt_le low (by rwa [Nat.sub_add_cancel first])
    omega

end PageRequest

namespace Page

variable {α : Type} {shown : Page α}

theorem lt_totalPages (positive : 0 < shown.request.perPage) (page : Nat) :
    page < shown.totalPages ↔ page * shown.request.perPage < shown.total := by
  have size : max shown.request.perPage 1 = shown.request.perPage := by omega
  rw [totalPages, size, ← Nat.add_one_le_iff, Nat.le_div_iff_mul_le positive, Nat.add_one_mul]
  omega

theorem outOfRange_iff (positive : 0 < shown.request.perPage) :
    shown.outOfRange ↔ 1 < shown.request.page ∧
      shown.total ≤ (shown.request.page - 1) * shown.request.perPage := by
  have last := shown.lt_totalPages positive (shown.request.page - 1)
  rw [outOfRange, decide_eq_true_iff]
  omega

theorem next?_eq (positive : 0 < shown.request.perPage) :
    shown.next? = if shown.request.page * shown.request.perPage < shown.total then
      some (shown.request.page + 1) else none :=
  if_congr (shown.lt_totalPages positive shown.request.page) rfl rfl

end Page

namespace MemoryCluster

def holding (documents : List StoredDocument) : MemoryCluster := { empty with documents := documents }

/-- The answer to a request from a cluster that holds these documents. -/
def found (documents : List StoredDocument) (request : SearchRequest) : SearchAnswer :=
  let results := (holding documents).matching request
  ⟨results.length, ((results.drop request.skip).take request.size).map (toHit request)⟩

theorem matching_perm {cluster : MemoryCluster} {question : Question} {scope : Scope}
    {skip size : Nat} : (cluster.matching (question.request scope skip size)).Perm
      (cluster.documents.filter (question.finds scope)) := by
  unfold matching
  dsimp only [Question.request]
  cases question.narrowing.sort with
  | none => exact List.Perm.refl _
  | some sort => exact List.mergeSort_perm _ _

theorem search_found {cluster : MemoryCluster} (here : cluster.unavailable = false)
    (request : SearchRequest) :
    (cluster.search request).1 = .ok (found cluster.documents request) := by
  rw [search, here]
  rfl

end MemoryCluster

namespace Ledger

variable {ledger : Ledger}

/-- The entries of a table that a question finds in a scope, each document once, by the sort and
then by their numbers. However the table is read, they are found in this order. -/
structure Ranks (ledger : Ledger) (question : Question) (scope : Scope) (ranked : List Numbered) :
    Prop where
  entries : ranked.Perm (ledger.entries.filter fun entry => question.finds scope entry.document)
  apart : (ranked.map fun entry => entry.document.key).Nodup
  ordered : ranked.Pairwise (Numbered.Before question.narrowing.sort)
  settled : ∀ read, read.Perm ledger.entries → ∀ skip size,
    Ledger.matching read (question.request scope skip size) = ranked

theorem matching_perm (read : List Numbered) (request : SearchRequest) :
    (Ledger.matching read request).Perm (read.filter (Numbered.answers request)) := by
  have found := List.mergeSort_perm (read.filter (Numbered.answers request))
    fun left right => left.number ≤ right.number
  unfold Ledger.matching sorted
  cases request.sort with
  | none => exact found
  | some sort => exact (List.mergeSort_perm _ _).trans found

/-- The documents of these entries are what the cluster finds. -/
theorem Lists.ranks {cluster : MemoryCluster} (lists : ledger.Lists cluster.documents)
    (question : Question) (scope : Scope) :
    ∃ ranked, ledger.Ranks question scope ranked ∧
      (ranked.map Numbered.document).Perm (cluster.documents.filter (question.finds scope)) ∧
      ranked.map Numbered.document = cluster.matching (question.request scope 0 0) := by
  obtain ⟨ranked, ordered, same, found⟩ := lists.matching (question.request scope 0 0)
  have members : (ranked.map Numbered.document).Perm
      (cluster.documents.filter (question.finds scope)) := found ▸ MemoryCluster.matching_perm
  refine ⟨ranked, ⟨?_, ?_, ordered, fun read seen _ _ => same read seen⟩, members, found⟩
  · rw [← same ledger.entries (List.Perm.refl _)]
    exact matching_perm _ _
  · have keys := (members.map StoredDocument.key).nodup_iff.2
      (lists.apart.sublist (List.filter_sublist.map _))
    rwa [List.map_map] at keys

end Ledger

namespace Results

/-- In such states a backend gives only right answers, and it stays in them. -/
structure Honest (backend : Backend σ) (good : σ → Prop)
    (right : SearchRequest → SearchAnswer → Prop) : Prop where
  search : ∀ request state, good state → good (backend.search request state).2
  count : ∀ request state, good state → good (backend.count request state).2
  answered : ∀ request state answer, good state →
    (backend.search request state).1 = .ok answer → right request answer

/-- The remembered pages are right answers. -/
structure Recalls (good : σ → Prop) (right : SearchRequest → SearchAnswer → Prop)
    (question : Question) (now : Results × σ) : Prop where
  asks : now.1.question = question
  good : good now.2
  pages : ∀ scope page answer, now.1.knownPage? scope page = some answer →
    right (question.request scope page.offset page.perPage) answer

section
variable {backend : Backend σ} {good : σ → Prop} {right : SearchRequest → SearchAnswer → Prop}
  {question : Question} {results : Results} {state : σ}

theorem Recalls.rememberCount (recalls : Recalls good right question (results, state))
    (scope : Scope) (count : Nat) :
    Recalls good right question (results.rememberCount scope count, state) := by
  refine ⟨(question_rememberCount _ _ _).trans recalls.asks, recalls.good, ?_⟩
  intro other page answer known
  rw [knownPage?_rememberCount] at known
  exact recalls.pages other page answer known

theorem Recalls.rememberPage (recalls : Recalls good right question (results, state))
    {scope : Scope} {page : PageRequest} {answer : SearchAnswer}
    (correct : right (question.request scope page.offset page.perPage) answer) :
    Recalls good right question (results.rememberPage scope page answer, state) := by
  refine ⟨(question_rememberCount _ _ _).trans recalls.asks, recalls.good, ?_⟩
  intro other request found known
  rw [knownPage?_rememberPage] at known
  split at known
  next same =>
    obtain ⟨rfl, rfl⟩ := same
    exact Option.some.inj known ▸ correct
  next => exact recalls.pages other request found known

theorem Recalls.moved (recalls : Recalls good right question (results, state)) {after : σ}
    (kept : good after) : Recalls good right question (results, after) :=
  ⟨recalls.asks, kept, recalls.pages⟩

variable (honest : Honest backend good right)
  (recalls : Recalls good right question (results, state))
include honest recalls

theorem Recalls.answer (scope : Scope) (page : PageRequest) :
    Recalls good right question (results.answer backend scope page state).2 := by
  have asked : Recalls good right question
      ({ results with last := (scope, page) :: results.last }, state) :=
    ⟨recalls.asks, recalls.good, recalls.pages⟩
  obtain rfl : results.question = question := recalls.asks
  have kept := honest.search (results.question.request scope page.offset page.perPage) state
    recalls.good
  obtain ⟨_, _, done⟩ | ⟨_, ⟨_, _, done⟩ | ⟨found, answered, done⟩⟩ :=
    answer_cases backend results state scope page
  · exact done ▸ asked
  · exact done ▸ asked.moved kept
  · have correct := honest.answered _ state found recalls.good answered
    exact done ▸ (asked.moved kept).rememberPage correct

theorem Recalls.count (scope : Scope) :
    Recalls good right question (results.count backend scope state).2 := by
  by_cases blank : results.question.isBlank
  · rwa [count_blank backend blank]
  have kept := honest.count (results.question.request scope 0 0) state recalls.good
  obtain ⟨_, _, done⟩ | ⟨_, ⟨_, _, done⟩ | ⟨found, _, done⟩⟩ :=
    count_cases backend results state scope blank
  · exact done ▸ recalls
  · exact done ▸ recalls.moved kept
  · exact done ▸ (recalls.moved kept).rememberCount scope found

theorem Recalls.call (call : Call) :
    Recalls good right question (results.call backend state call).2 := by
  apply call_keeps backend (Recalls good right question)
  · exact fun _ _ scope page recalls => recalls.answer honest scope page
  · exact fun _ _ scope recalls => recalls.count honest scope
  · exact recalls

end

/-! ### A session in front of a cluster -/

theorem honest_memory (documents : List StoredDocument) :
    Honest MemoryCluster.backend (fun cluster => cluster.documents = documents)
      fun request answer => answer = MemoryCluster.found documents request := by
  constructor
  · intro request cluster same
    obtain ⟨_, kept⟩ := cluster.search_frame request
    simp only [MemoryCluster.backend, kept, same]
  · intro request cluster same
    obtain ⟨_, kept⟩ := cluster.count_frame request
    simp only [MemoryCluster.backend, kept, same]
  · intro request cluster answer same answered
    cases here : cluster.unavailable with
    | true => simp [MemoryCluster.backend, MemoryCluster.search, here] at answered
    | false =>
      rw [MemoryCluster.backend, MemoryCluster.search_found here, same] at answered
      exact (Except.ok.inj answered).symm

/-- What is remembered of a question in front of a cluster that holds these documents. -/
abbrev Recites (question : Question) (documents : List StoredDocument)
    (now : Results × MemoryCluster) : Prop :=
  Recalls (fun cluster : MemoryCluster => cluster.documents = documents)
    (fun request answer => answer = MemoryCluster.found documents request) question now

variable {question : Question} {documents : List StoredDocument} {now : Results × MemoryCluster}

theorem Recites.event (recites : Recites question documents now) (first : Event) :
    Recites question documents (event now first).2 := by
  cases first with
  | switch away => exact recites.moved recites.good
  | call call => exact Recalls.call (honest_memory documents) recites call

theorem Recites.run (recites : Recites question documents now) (events : List Event) :
    Recites question documents (run events now).2 := by
  induction events generalizing now with
  | nil => exact recites
  | cons first rest ih => exact ih (Recites.event recites first)

theorem recites_ask (question : Question) (cluster : MemoryCluster) :
    Recites question cluster.documents (ask question, cluster) := ⟨rfl, rfl, nofun⟩

theorem Recites.answered (recites : Recites question documents now)
    (here : now.2.unavailable = false) (scope : Scope) (page : PageRequest) :
    (now.1.answer MemoryCluster.backend scope page now.2).1 =
      .ok (MemoryCluster.found documents (question.request scope page.offset page.perPage)) := by
  unfold answer
  dsimp only
  split
  next known found => rw [recites.pages scope page known found]
  next =>
    have reply := MemoryCluster.search_found here
      (now.1.question.request scope page.offset page.perPage)
    rw [recites.asks, recites.good] at reply
    simp only [MemoryCluster.backend, recites.asks]
    generalize now.2.search _ = searched at reply ⊢
    obtain ⟨searched, after⟩ := searched
    obtain rfl : searched = _ := reply
    rfl

end Results

/-! ### Pages of a list -/

/-- How a document is shown among the results of a question. -/
def Question.hit (question : Question) (scope : Scope) (document : StoredDocument) : Hit :=
  MemoryCluster.toHit (question.request scope 0 0) document

/-- A page of results in their order, with the right neighbours. -/
structure Page.IsPart (question : Question) (scope : Scope) (results : List StoredDocument)
    (shown : Page ResultItem) : Prop where
  items : ResultItem.ofHits scope ((shown.request.slice results).map (question.hit scope)) =
    .ok shown.items
  total : shown.total = results.length
  next : shown.next? =
    if shown.request.page * shown.request.perPage < results.length then
      some (shown.request.page + 1) else none
  outOfRange : shown.outOfRange ↔ 1 < shown.request.page ∧
    results.length ≤ (shown.request.page - 1) * shown.request.perPage
  beyond : shown.outOfRange → shown.items = []

section
variable {question : Question} {scope : Scope} {request : PageRequest}

theorem Page.isPart (positive : 0 < request.perPage) {results : List StoredDocument}
    {items : List ResultItem}
    (parsed : ResultItem.ofHits scope ((request.slice results).map (question.hit scope)) =
      .ok items) :
    IsPart question scope results ⟨items, request, results.length⟩ := by
  let shown : Page ResultItem := ⟨items, request, results.length⟩
  have range : shown.outOfRange ↔ 1 < request.page ∧
      results.length ≤ (request.page - 1) * request.perPage := shown.outOfRange_iff positive
  refine ⟨parsed, rfl, shown.next?_eq positive, range, ?_⟩
  intro beyond
  have nothing : request.slice results = [] := by
    apply List.drop_eq_nil_of_le
    exact Nat.le_trans (List.length_take_le' _ results) (range.1 beyond).2
  rw [nothing] at parsed
  exact (Except.ok.inj parsed).symm

theorem MemoryCluster.found_slice (documents : List StoredDocument) (first : 0 < request.page)
    (reached : Results.inWindow request) :
    let results := (holding documents).matching (question.request scope 0 0)
    found documents (question.request scope request.offset request.perPage) =
      ⟨results.length, (request.slice results).map (question.hit scope)⟩ := by
  intro results
  have skipped : found documents (question.request scope request.offset request.perPage) =
      ⟨results.length,
        ((results.drop request.offset).take request.perPage).map (question.hit scope)⟩ := rfl
  rw [skipped, PageRequest.slice_eq first, PageRequest.offset_of_inWindow reached]

end

namespace Results

variable {question : Question} {documents : List StoredDocument} {now : Results × MemoryCluster}

/-- A page that can be reached is shown, with the results at its positions. -/
theorem Recites.page (recites : Recites question documents now) (asked : ¬ question.isBlank)
    (here : now.2.unavailable = false) (scope : Scope) {page perPage : Nat}
    (reached : inWindow (.of page perPage)) :
    ∃ shown, (now.1.page MemoryCluster.backend scope (.of page perPage) now.2).1 = .ok shown ∧
      shown.request = .of page perPage ∧
      shown.IsPart question scope
        ((MemoryCluster.holding documents).matching (question.request scope 0 0)) := by
  let results := (MemoryCluster.holding documents).matching (question.request scope 0 0)
  have answered := Recites.answered recites here scope (.of page perPage)
  rw [MemoryCluster.found_slice documents (PageRequest.page_pos page perPage) reached] at answered
  obtain ⟨items, parsed⟩ : ∃ items, ResultItem.ofHits scope
      (((PageRequest.of page perPage).slice results).map (question.hit scope)) = .ok items := by
    apply ResultItem.ofHits_found
    exact fun document inside => MemoryCluster.mem_matching (PageRequest.mem_of_mem_slice inside)
  refine ⟨_, ?_, rfl, Page.isPart (PageRequest.perPage_pos page perPage) parsed⟩
  rw [page_reached _ _ _ _ (recites.asks ▸ asked) reached, answered, pageOf, parsed]
  rfl

/-- What is known of a question, and the cluster, when it went through some changes before the
question was asked. -/
def session (changes : List Change) (question : Question) (events : List Event) :
    Results × MemoryCluster :=
  (run events (ask question, (Change.run changes (MemoryCluster.empty, Ledger.empty)).1)).2

/-- Whatever the cluster went through, and whatever was asked before, the pages of a scope are the
parts of one list: what matches, each document once, by the sort and then in the order of first
insertion. The order in which the table behind the cluster is read makes no difference. -/
theorem pages_are_slices (changes : List Change) (question : Question)
    (asked : ¬ question.isBlank) (scope : Scope) :
    let reached := Change.run changes (MemoryCluster.empty, Ledger.empty)
    ∃ ranked : List Numbered,
      (ranked.map Numbered.document).Perm (reached.1.documents.filter (question.finds scope)) ∧
      (ranked.map fun entry => entry.document.key).Nodup ∧
      ranked.Pairwise (Numbered.Before question.narrowing.sort) ∧
      (∀ read, read.Perm reached.2.entries → ∀ skip size,
        Ledger.matching read (question.request scope skip size) = ranked) ∧
      (∀ size, 0 < size → ∀ entry ∈ ranked,
        ∃! page, 0 < page ∧ entry ∈ PageRequest.slice ⟨page, size⟩ ranked) ∧
      ∀ (before : List Event) (page perPage : Nat),
        let now := session changes question before
        inWindow (.of page perPage) → now.2.unavailable = false →
        ∃ shown, (now.1.page MemoryCluster.backend scope (.of page perPage) now.2).1 = .ok shown ∧
          shown.request = .of page perPage ∧
          shown.IsPart question scope (ranked.map Numbered.document) := by
  intro reached
  have lists : reached.2.Lists reached.1.documents := Ledger.lists_empty.run changes
  obtain ⟨ranked, ranks, members, found⟩ := lists.ranks question scope
  refine ⟨ranked, members, ranks.apart, ranks.ordered, ranks.settled, ?_, ?_⟩
  · exact fun size positive entry inside =>
      PageRequest.existsUnique_slice ranks.apart.of_map positive inside
  · intro before page perPage now inside here
    have recites : Recites question reached.1.documents now :=
      Recites.run (recites_ask question reached.1) before
    rw [found]
    exact Recites.page recites asked here scope inside

private def relayIssue (id : Nat) (created : String) : StoredDocument :=
  ⟨"main", (Kind.issue).searchId id, none, .obj [("created_at", .str created), ("id", .ofNat id),
    ("title", .str "relay"), ("type", .str "issue")]⟩

/-- Three issues, of which a body takes one away before the last comes in. -/
private def relayChanges : List Change :=
  [.put (relayIssue 1 "2024-02-01"), .put (relayIssue 2 "2024-01-01"),
    .bulk "\x7b\"delete\":\x7b\"_index\":\"main\",\"_id\":\"issue_2\"\x7d\x7d\n",
    .put (relayIssue 3 "2024-02-01"), .put (relayIssue 2 "2024-03-01")]

private def askRelay : Question :=
  ⟨"main", "relay", ⟨.all, .everything⟩, ⟨none, none, some ⟨"created_at", .descending⟩⟩, 20⟩

/-- After their number was asked for, the second page of two holds the last of the three issues. -/
theorem pages_are_slices_relay :
    ∃ shown, ((session relayChanges askRelay [.call (.count .issues)]).1.page MemoryCluster.backend
        .issues (.of 2 2) (session relayChanges askRelay [.call (.count .issues)]).2).1 = .ok shown ∧
      shown.total = 3 ∧ shown.next? = none ∧ ¬ shown.outOfRange := by
  obtain ⟨ranked, members, -, -, -, -, paged⟩ :=
    pages_are_slices relayChanges askRelay (by decide) .issues
  have three : (ranked.map Numbered.document).length = 3 := by
    rw [members.length_eq]
    decide +kernel
  obtain ⟨shown, answered, request, part⟩ :=
    paged [.call (.count .issues)] 2 2 (by decide +kernel) (by decide +kernel)
  have next := part.next
  have range := part.outOfRange
  rw [request, three] at next range
  refine ⟨shown, answered, part.total.trans three, next, ?_⟩
  rw [range]
  decide

end Results

end SearchRelay
