import SearchRelay.Proofs.Search.Snippets

/-!
The page that markup is shown for. Of the pages of a scope that were asked for it is the last one
that a backend can reach. A page beyond the window is shown without items and leaves the page before
it in this place, so markup keeps to the items shown last unless such a page was the last and the
page before it bears marks.
-/

namespace SearchRelay

namespace Results

/-! ### Markup -/

/-- The markup of a hit under the number of its document, if it has both. -/
def markOf? (scope : Scope) (hit : Hit) : Option (Nat × String) :=
  match Snippet.wordMember? hit.source "id", markedText? scope hit with
  | some id, some text => some (id, String.ofList (Highlighted.parse text.toList).toMarkup)
  | _, _ => none

theorem markupOf_eq (scope : Scope) (hits : List Hit) :
    markupOf scope hits =
      (hits.filterMap (markOf? scope)).foldl (fun markup mark => setMarkup mark.1 mark.2 markup)
        [] := by
  rw [List.foldl_filterMap, markupOf]
  congr 1
  funext markup hit
  unfold markOf?
  cases Snippet.wordMember? hit.source "id" <;> cases markedText? scope hit <;> rfl

theorem mem_setMarkup {id : Nat} {text : String} {markup : List (Nat × String)}
    {entry : Nat × String} (inside : entry ∈ setMarkup id text markup) :
    entry = (id, text) ∨ entry ∈ markup := by
  fun_induction setMarkup id text markup with
  | case1 => exact Or.inl (List.mem_singleton.1 inside)
  | case2 => exact (List.mem_cons.1 inside).imp_right (List.mem_cons_of_mem _)
  | case3 => exact List.mem_cons.1 inside
  | case4 other text rest _ _ ih =>
    rcases List.mem_cons.1 inside with rfl | later
    · exact Or.inr List.mem_cons_self
    · exact (ih later).imp_right (List.mem_cons_of_mem _)

theorem mem_foldl_setMarkup {marks markup : List (Nat × String)} {entry : Nat × String}
    (inside : entry ∈ marks.foldl (fun markup mark => setMarkup mark.1 mark.2 markup) markup) :
    entry ∈ marks ∨ entry ∈ markup := by
  induction marks generalizing markup with
  | nil => exact Or.inr inside
  | cons mark rest ih =>
    rcases ih inside with later | now
    · exact Or.inl (List.mem_cons_of_mem _ later)
    · rcases mem_setMarkup now with rfl | before
      · exact Or.inl List.mem_cons_self
      · exact Or.inr before

theorem mem_markupOf {scope : Scope} {hits : List Hit} {entry : Nat × String}
    (inside : entry ∈ markupOf scope hits) : ∃ hit ∈ hits, markOf? scope hit = some entry := by
  rw [markupOf_eq] at inside
  exact List.mem_filterMap.1 ((mem_foldl_setMarkup inside).resolve_right List.not_mem_nil)

theorem markupOf_eq_nil {scope : Scope} {hits : List Hit} :
    markupOf scope hits = [] ↔ ∀ hit ∈ hits, markOf? scope hit = none := by
  rw [markupOf_eq, ← List.filterMap_eq_nil_iff]
  rcases List.eq_nil_or_concat (hits.filterMap (markOf? scope)) with nothing | ⟨marks, mark, parts⟩
  · simp [nothing]
  · have set : ∀ markup, setMarkup mark.1 mark.2 markup ≠ [] := by
      intro markup
      fun_cases setMarkup mark.1 mark.2 markup <;> exact List.cons_ne_nil _ _
    simp [parts, set]

/-! ### The page reached last -/

/-- The page of a scope that a call asks for. -/
def Call.asked? (scope : Scope) : Call → Option PageRequest
  | .page other request => if other = scope then some request else none
  | _ => none

/-- The page of a scope that something in a session asks for. -/
def Event.asked? (scope : Scope) : Event → Option PageRequest
  | .call made => made.asked? scope
  | .switch _ => none

/-- The last page of a scope that calls ask for and a backend can reach, or the first one of all. -/
def reachedLast (question : Question) (scope : Scope) (calls : List Call) : PageRequest :=
  ((calls.filterMap (Call.asked? scope)).filter inWindow).getLast?.getD (.of 1 question.perPage)

theorem inWindow_first (perPage : Nat) : inWindow (.of 1 perPage) := by
  have small : (PageRequest.of 1 perPage).perPage ≤ maxPerPage := Nat.min_le_right _ _
  have start : (PageRequest.of 1 perPage).offset = 0 := by simp [PageRequest.offset, PageRequest.of]
  have room : maxPerPage ≤ resultWindow := by decide
  rw [inWindow, start, decide_eq_true_iff]
  omega

theorem inWindow_reachedLast (question : Question) (scope : Scope) (calls : List Call) :
    inWindow (reachedLast question scope calls) := by
  unfold reachedLast
  cases last : ((calls.filterMap (Call.asked? scope)).filter inWindow).getLast? with
  | none => exact inWindow_first question.perPage
  | some request => exact (List.mem_filter.1 (List.mem_of_getLast? last)).2

/-- A page that can be reached takes the place of the one that markup is shown for. -/
theorem shown_call_eq {results : Results} (backend : Backend σ) (state : σ)
    (asked : ¬ results.question.isBlank) (scope : Scope) (call : Call) :
    (results.call backend state call).2.1.shown scope =
      ((call.asked? scope).filter inWindow).getD (results.shown scope) := by
  cases here : (call.asked? scope).filter inWindow with
  | none =>
    apply shown_call
    rintro request rfl reached
    simp [Call.asked?, reached] at here
  | some request =>
    obtain ⟨asks, reached⟩ := Option.filter_eq_some_iff.1 here
    obtain rfl : call = .page scope request := by
      cases call with
      | page other request => simpa [Call.asked?] using asks
      | count | counts | formattedCount | markup => cases asks
    unfold Results.call
    dsimp only
    rw [page_reached backend results state scope asked reached, Option.getD_some]
    exact (shown_answer results backend state scope scope request).trans (if_pos rfl)

/-- The page that markup is shown for is the last one asked for that can be reached. While the
cluster is away it is asked for all the same. -/
theorem shown_run {now : Results × MemoryCluster} (asked : ¬ now.1.question.isBlank)
    (scope : Scope) (events : List Event) :
    (run events now).2.1.shown scope =
      ((events.filterMap (Event.asked? scope)).filter inWindow).getLast?.getD
        (now.1.shown scope) := by
  induction events generalizing now with
  | nil => rfl
  | cons first rest ih =>
    cases first with
    | switch unavailable => exact ih asked
    | call call =>
      have kept := question_call MemoryCluster.backend now.1 now.2 call
      have moved := shown_call_eq MemoryCluster.backend now.2 asked scope call
      have later := @ih (now.1.call MemoryCluster.backend now.2 call).2 (kept ▸ asked)
      refine later.trans ?_
      rw [moved, List.filterMap_cons, Event.asked?]
      cases call.asked? scope with
      | none => rfl
      | some request =>
        rw [List.filter_cons]
        split
        next reached =>
          rw [List.getLast?_cons]
          simp [Option.filter, reached]
        -- a page that cannot be reached leaves the one before it where it is
        next far => simp [Option.filter, far]

/-! ### The page shown last -/

/-- The page of a scope that a call was answered with. -/
def Call.shown? (scope : Scope) : Call × Outcome Answer → Option (Page ResultItem)
  | (.page other _, .ok (.page shown)) => if other = scope then some shown else none
  | _ => none

/-- The pages of a scope that calls are answered with, in their order. -/
def shownPages (scope : Scope) (calls : List Call) (now : Results × MemoryCluster) :
    List (Page ResultItem) :=
  (calls.zip (run (calls.map .call) now).1).filterMap (Call.shown? scope)

/-- The page of a scope that a session was shown last. When none was asked for, it is the first. -/
def shownLast? (question : Question) (cluster : MemoryCluster) (scope : Scope)
    (calls : List Call) : Option (Page ResultItem) :=
  (shownPages scope calls (ask question, cluster)).getLast?.or
    ((ask question).page MemoryCluster.backend scope (.of 1 question.perPage) cluster).1.toOption

/-- The items of a page are those of its documents. -/
def Reads (question : Question) (documents : List StoredDocument) (scope : Scope)
    (shown : Page ResultItem) : Prop :=
  List.Forall₂ (fun document item => ResultItem.ofHit scope (question.hit scope document) = .ok item)
    (question.onPage documents scope shown.request) shown.items

theorem unavailable_call (results : Results) (cluster : MemoryCluster) (call : Call) :
    (results.call MemoryCluster.backend cluster call).2.2.unavailable = cluster.unavailable := by
  have honest : Honest MemoryCluster.backend
      (fun now => now.unavailable = cluster.unavailable) fun _ _ => True := by
    refine ⟨fun request now same => ?_, fun request now same => ?_, fun _ _ _ _ _ => trivial⟩
    · obtain ⟨_, kept⟩ := now.search_frame request
      simp only [MemoryCluster.backend, kept, same]
    · obtain ⟨_, kept⟩ := now.count_frame request
      simp only [MemoryCluster.backend, kept, same]
  have start : Recalls (fun now => now.unavailable = cluster.unavailable) (fun _ _ => True)
      results.question (results, cluster) := ⟨rfl, rfl, fun _ _ _ _ => trivial⟩
  exact (Recalls.call honest start call).good

theorem unavailable_run (calls : List Call) (now : Results × MemoryCluster) :
    (run (calls.map .call) now).2.2.unavailable = now.2.unavailable := by
  induction calls generalizing now with
  | nil => rfl
  | cons call rest ih => exact (ih _).trans (unavailable_call now.1 now.2 call)

theorem shownPages_cons (scope : Scope) (call : Call) (rest : List Call)
    (now : Results × MemoryCluster) :
    shownPages scope (call :: rest) now =
      (Call.shown? scope (call, (now.1.call MemoryCluster.backend now.2 call).1)).toList ++
        shownPages scope rest (event now (.call call)).2 := by
  have zipped : (call :: rest).zip (run ((call :: rest).map .call) now).1 =
      (call, (now.1.call MemoryCluster.backend now.2 call).1) ::
        rest.zip (run (rest.map .call) (event now (.call call)).2).1 := rfl
  rw [shownPages, zipped, List.filterMap_cons]
  cases Call.shown? scope (call, _) <;> rfl

section
variable {question : Question} {documents : List StoredDocument} {now : Results × MemoryCluster}

/-- A call is answered with the page that it asks for. -/
theorem reads_shown (recites : Recites question documents now)
    (here : now.2.unavailable = false) (scope : Scope) (call : Call) :
    let shown := Call.shown? scope (call, (now.1.call MemoryCluster.backend now.2 call).1)
    shown.map Page.request = call.asked? scope ∧
      ∀ page ∈ shown, Reads question documents scope page := by
  cases call with
  | count | counts | formattedCount | markup => exact ⟨rfl, nofun⟩
  | page other request =>
    obtain ⟨shown, told⟩ := Recites.exists_page recites here other request
    have answer : (now.1.call MemoryCluster.backend now.2 (.page other request)).1 =
        .ok (.page shown) := by
      unfold Results.call
      dsimp only
      rw [told]
      rfl
    have asks := request_page told
    have items := Recites.page_items recites told
    rw [answer]
    by_cases same : other = scope
    · subst same
      simp only [Call.shown?, Call.asked?, if_true, Option.map_some, asks, Option.mem_some_iff,
        forall_eq']
      refine ⟨trivial, ?_⟩
      rwa [Reads, asks]
    · simp [Call.shown?, Call.asked?, same]

theorem reads_shownPages (recites : Recites question documents now)
    (here : now.2.unavailable = false) (scope : Scope) (calls : List Call) :
    (shownPages scope calls now).map Page.request = calls.filterMap (Call.asked? scope) ∧
      ∀ shown ∈ shownPages scope calls now, Reads question documents scope shown := by
  induction calls generalizing now with
  | nil => exact ⟨rfl, nofun⟩
  | cons call rest ih =>
    have kept := unavailable_call now.1 now.2 call
    obtain ⟨request, first⟩ := reads_shown recites here scope call
    obtain ⟨requests, later⟩ := ih (Recites.event recites (.call call)) (kept.trans here)
    rw [shownPages_cons, List.map_append, requests, List.filterMap_cons, ← request]
    cases shown : Call.shown? scope (call, (now.1.call MemoryCluster.backend now.2 call).1) with
    | none => exact ⟨rfl, later⟩
    | some page => exact ⟨rfl, List.forall_mem_cons.2 ⟨first page shown, later⟩⟩

end

/-- A session is always shown a last page. If it can be reached, it is the one reached last. -/
theorem exists_shownLast (question : Question) (cluster : MemoryCluster)
    (here : cluster.unavailable = false) (scope : Scope) (calls : List Call) :
    ∃ shown, shownLast? question cluster scope calls = some shown ∧
      Reads question cluster.documents scope shown ∧
      (inWindow shown.request → shown.request = reachedLast question scope calls) := by
  have start := recites_ask question cluster
  obtain ⟨requests, reads⟩ := reads_shownPages start here scope calls
  unfold shownLast? reachedLast
  rw [← requests]
  rcases List.eq_nil_or_concat (shownPages scope calls (ask question, cluster)) with
    nothing | ⟨pages, shown, parts⟩
  · obtain ⟨shown, told⟩ := Recites.exists_page start here scope (.of 1 question.perPage)
    have asks := request_page told
    have items := Recites.page_items start told
    refine ⟨shown, ?_, ?_, fun _ => ?_⟩
    · rw [nothing, told]
      rfl
    · rwa [Reads, asks]
    · rw [asks, nothing]
      rfl
  · rw [parts] at reads ⊢
    refine ⟨shown, by simp, reads shown (by simp), fun reached => ?_⟩
    simp [reached]

/-! ### Markup and items -/

/-- Every entry of the markup is one of a document among the items. -/
def KeepsTo (marks : List (Nat × String)) (items : List ResultItem) : Prop :=
  ∀ entry ∈ marks, ∃ found, ResultItem.document found ∈ items ∧ found.id = some entry.1

theorem keepsTo_nil {marks : List (Nat × String)} : KeepsTo marks [] ↔ marks = [] := by
  simp [KeepsTo, List.eq_nil_iff_forall_not_mem]

theorem id_of_markOf? {scope : Scope} {hit : Hit} {entry : Nat × String}
    (marked : markOf? scope hit = some entry) :
    Snippet.wordMember? hit.source "id" = some entry.1 := by
  unfold markOf? at marked
  split at marked
  next id text known _ =>
    obtain rfl := Option.some.inj marked
    exact known
  next => cases marked

theorem exists_related {α β : Type} {related : α → β → Prop} {left : List α} {right : List β}
    (pairs : List.Forall₂ related left right) {a : α} (inside : a ∈ left) :
    ∃ b ∈ right, related a b := by
  induction pairs with
  | nil => cases inside
  | cons first _ ih =>
    rcases List.mem_cons.1 inside with rfl | later
    · exact ⟨_, List.mem_cons_self, first⟩
    · obtain ⟨b, member, holds⟩ := ih later
      exact ⟨b, List.mem_cons_of_mem _ member, holds⟩

theorem not_isBlob_of_supportsHighlight {scope : Scope} (marked : scope.supportsHighlight) :
    ¬ scope.isBlob := by
  cases scope with
  | blobs | wikiBlobs => cases marked
  | _ => exact Bool.false_ne_true

theorem Reads.keepsTo {question : Question} {documents : List StoredDocument} {scope : Scope}
    (marked : scope.supportsHighlight) {shown : Page ResultItem}
    (reads : Reads question documents scope shown) :
    KeepsTo (markupOf scope ((question.onPage documents scope shown.request).map
      (question.hit scope))) shown.items := by
  intro entry inside
  obtain ⟨hit, member, mark⟩ := mem_markupOf inside
  obtain ⟨document, here, rfl⟩ := List.mem_map.1 member
  obtain ⟨item, held, read⟩ := exists_related reads here
  rw [ResultItem.ofHit, if_neg (not_isBlob_of_supportsHighlight marked)] at read
  obtain rfl := Except.ok.inj read
  exact ⟨_, held, id_of_markOf? mark⟩

/-- The markup is that of the documents on the page it is shown for. -/
theorem Recites.markup {question : Question} {documents : List StoredDocument}
    {now : Results × MemoryCluster} (recites : Recites question documents now)
    (here : now.2.unavailable = false) (asked : ¬ question.isBlank) {scope : Scope}
    (marked : scope.supportsHighlight) (reached : inWindow (now.1.shown scope)) :
    (now.1.markup MemoryCluster.backend scope now.2).1 =
      .ok (some (markupOf scope ((question.onPage documents scope (now.1.shown scope)).map
        (question.hit scope)))) := by
  have answered := Recites.answered recites here scope (now.1.shown scope)
  have page : (now.1.lastPage? scope).getD (.of 1 now.1.question.perPage) = now.1.shown scope := rfl
  rw [Question.onPage_reached asked reached]
  unfold Results.markup
  rw [page]
  simp only [marked, Bool.not_true, Bool.false_eq_true, if_false, recites.asks, asked, reached,
    if_true, answered]
  rfl

theorem markup_eq {question : Question} (asked : ¬ question.isBlank) {cluster : MemoryCluster}
    (here : cluster.unavailable = false) {scope : Scope} (marked : scope.supportsHighlight)
    (calls : List Call) :
    let now := (run (calls.map .call) (ask question, cluster)).2
    (now.1.markup MemoryCluster.backend scope now.2).1 =
      .ok (some (markupOf scope ((question.onPage cluster.documents scope
        (reachedLast question scope calls)).map (question.hit scope)))) := by
  intro now
  have recites : Recites question cluster.documents now :=
    Recites.run (recites_ask question cluster) _
  have still : now.2.unavailable = false := (unavailable_run calls _).trans here
  have page : now.1.shown scope = reachedLast question scope calls := by
    refine (shown_run asked scope (calls.map .call)).trans ?_
    rw [List.filterMap_map]
    rfl
  rw [← page]
  apply Recites.markup recites still asked marked
  rw [page]
  exact inWindow_reachedLast question scope calls

/-- Markup keeps to the items shown last if and only if they stand on a page that can be reached,
or the page reached last bears no marks. -/
theorem markup_keepsTo_iff (question : Question) (asked : ¬ question.isBlank)
    (cluster : MemoryCluster) (here : cluster.unavailable = false) (scope : Scope)
    (marked : scope.supportsHighlight) (calls : List Call) :
    let now := (run (calls.map .call) (ask question, cluster)).2
    ∃ marks shown, (now.1.markup MemoryCluster.backend scope now.2).1 = .ok (some marks) ∧
      shownLast? question cluster scope calls = some shown ∧
      (KeepsTo marks shown.items ↔ inWindow shown.request ∨
        ∀ document ∈ question.onPage cluster.documents scope (reachedLast question scope calls),
          markOf? scope (question.hit scope document) = none) := by
  intro now
  obtain ⟨shown, last, reads, same⟩ := exists_shownLast question cluster here scope calls
  refine ⟨_, shown, markup_eq asked here marked calls, last, ?_⟩
  by_cases reached : inWindow shown.request
  · rw [← same reached]
    exact iff_of_true (reads.keepsTo marked) (Or.inl reached)
  · have empty : shown.items = [] := by
      rw [Reads, Question.onPage_far reached] at reads
      exact List.forall₂_nil_left_iff.1 reads
    rw [empty, keepsTo_nil, markupOf_eq_nil, List.forall_mem_map]
    simp [reached]

private def lampIssues : MemoryCluster :=
  .holding [⟨"main", "issue_1", none,
    .obj [("id", .ofNat 1), ("title", .str "lamp"), ("type", .str "issue")]⟩]

private def askLamp : Question :=
  ⟨"main", "lamp", ⟨.all, .everything⟩, ⟨none, none, none⟩, 20⟩

/-- After a page that cannot be reached another one is asked for, and markup keeps to it. -/
theorem markup_keepsTo_iff_return :
    let calls : List Call := [.page .issues (.of 1000 20), .count .issues, .page .issues (.of 1 20)]
    let now := (run (calls.map .call) (ask askLamp, lampIssues)).2
    (¬ askLamp.isBlank ∧ lampIssues.unavailable = false ∧ Scope.issues.supportsHighlight) ∧
    ∃ marks shown, (now.1.markup MemoryCluster.backend .issues now.2).1 = .ok (some marks) ∧
      shownLast? askLamp lampIssues .issues calls = some shown ∧ marks.length = 1 ∧
      KeepsTo marks shown.items := by
  intro calls now
  have asked : ¬ askLamp.isBlank := by decide
  obtain ⟨marks, shown, told, last, keeps⟩ :=
    markup_keepsTo_iff askLamp asked lampIssues rfl .issues rfl calls
  have one : (now.1.markup MemoryCluster.backend .issues now.2).1.toOption.map
      (fun marks => marks.map List.length) = some (some 1) := by decide +kernel
  have first : (shownLast? askLamp lampIssues .issues calls).map (fun shown => shown.request) =
      some (.of 1 20) := by decide +kernel
  rw [told] at one
  rw [last] at first
  refine ⟨⟨asked, rfl, rfl⟩, marks, shown, told, last, ?_, keeps.2 (Or.inl ?_)⟩
  · simpa [Except.toOption] using one
  · rw [show shown.request = .of 1 20 from Option.some.inj first]
    decide

/-- A page that cannot be reached is shown without items, and markup is still that of the page
before it. -/
theorem markup_outlives_page :
    let calls : List Call := [.page .issues (.of 1 20), .page .issues (.of 1000 20)]
    let now := (run (calls.map .call) (ask askLamp, lampIssues)).2
    ∃ marks shown, (now.1.markup MemoryCluster.backend .issues now.2).1 = .ok (some marks) ∧
      shownLast? askLamp lampIssues .issues calls = some shown ∧ shown.items = [] ∧
      ¬ KeepsTo marks shown.items := by
  intro calls now
  have marked : (now.1.markup MemoryCluster.backend .issues now.2).1.toOption.map
      (fun marks => marks.map List.length) = some (some 1) := by decide +kernel
  have empty : (shownLast? askLamp lampIssues .issues calls).map (fun shown => shown.items.length) =
      some 0 := by decide +kernel
  cases told : (now.1.markup MemoryCluster.backend .issues now.2).1 with
  | error report => rw [told] at marked; cases marked
  | ok marks =>
    cases marks with
    | none => rw [told] at marked; cases marked
    | some marks =>
      cases last : shownLast? askLamp lampIssues .issues calls with
      | none => rw [last] at empty; cases empty
      | some shown =>
        rw [last] at empty
        rw [told] at marked
        have nothing : shown.items = [] := List.length_eq_zero_iff.1 (Option.some.inj empty)
        refine ⟨marks, shown, rfl, rfl, nothing, ?_⟩
        rw [nothing, keepsTo_nil]
        rintro rfl
        cases marked

end Results

end SearchRelay
