import SearchRelay.Backend.Memory
import SearchRelay.Search.Results

/-!
Sessions: calls on one query, one after the other, while the cluster comes and goes. Two sessions
that remember the same, in front of clusters that answer the same, go the same way.
-/

namespace SearchRelay

namespace MemoryCluster

/-- What searches read of a document. Where it is routed is not part of it. -/
def core (document : StoredDocument) : String × String × Json :=
  (document.index, document.id, document.source)

variable {request : SearchRequest} {left right : MemoryCluster}

/-- An answer can be told from what a request matches. -/
theorem search_of_cores (away : left.unavailable = right.unavailable)
    (cores : (left.matching request).map core = (right.matching request).map core) :
    (left.search request).1 = (right.search request).1 := by
  have total : (left.matching request).length = (right.matching request).length := by
    simpa only [List.length_map] using congrArg List.length cores
  have hits (documents : List StoredDocument) : documents.map (toHit request) =
      (documents.map core).map fun document =>
        toHit request ⟨document.1, document.2.1, none, document.2.2⟩ := by
    rw [List.map_map]
    rfl
  unfold search
  rw [away]
  split
  next => rfl
  next => simp only [hits, total, List.map_take, List.map_drop, cores]

theorem count_of_cores (away : left.unavailable = right.unavailable)
    (cores : (left.matching request).map core = (right.matching request).map core) :
    (left.count request).1 = (right.count request).1 := by
  have total : (left.matching request).length = (right.matching request).length := by
    simpa only [List.length_map] using congrArg List.length cores
  unfold count
  rw [away, total]
  split
  next => rfl
  next => rfl

theorem search_frame (request : SearchRequest) (cluster : MemoryCluster) :
    ∃ searches, (cluster.search request).2 = { cluster with searches := searches } := by
  unfold search
  split
  next => exact ⟨cluster.searches, rfl⟩
  next => exact ⟨cluster.searches + 1, rfl⟩

theorem count_frame (request : SearchRequest) (cluster : MemoryCluster) :
    ∃ counts, (cluster.count request).2 = { cluster with counts := counts } := by
  unfold count
  split
  next => exact ⟨cluster.counts, rfl⟩
  next => exact ⟨cluster.counts + 1, rfl⟩

end MemoryCluster

namespace Results

/-- A call on the results of a query. -/
inductive Call where
  | page (scope : Scope) (request : PageRequest)
  | count (scope : Scope)
  | counts (scopes : List Scope)
  | formattedCount (name : String)
  | markup (scope : Scope)

inductive Answer where
  | page (shown : Page ResultItem)
  | count (found : Nat)
  | counts (found : List (Scope × Nat))
  | formattedCount (found : Option String)
  | markup (found : Option (List (Nat × String)))

def call (backend : Backend σ) (results : Results) (state : σ) :
    Call → Outcome Answer × Results × σ
  | .page scope request =>
    let (answer, after) := results.page backend scope request state
    (answer.map .page, after)
  | .count scope =>
    let (answer, after) := results.count backend scope state
    (answer.map .count, after)
  | .counts scopes =>
    let (answer, after) := results.countAll backend scopes state
    (answer.map .counts, after)
  | .formattedCount name =>
    let (answer, after) := results.formattedCount backend name state
    (answer.map .formattedCount, after)
  | .markup scope =>
    let (answer, after) := results.markup backend scope state
    (answer.map .markup, after)

/-- Something that happens in a session: a call, or the cluster goes or comes back. -/
inductive Event where
  | call (call : Call)
  | switch (unavailable : Bool)

def event (now : Results × MemoryCluster) : Event → List (Outcome Answer) × Results × MemoryCluster
  | .call call =>
    let (answer, after) := now.1.call MemoryCluster.backend now.2 call
    ([answer], after)
  | .switch unavailable => ([], now.1, { now.2 with unavailable := unavailable })

/-- A session: the answers to its calls, and what is known in the end. -/
def run : List Event → Results × MemoryCluster → List (Outcome Answer) × Results × MemoryCluster
  | [], now => ([], now)
  | first :: rest, now =>
    let (answers, next) := event now first
    let (later, last) := run rest next
    (answers ++ later, last)

/-! ### What is remembered -/

/-- The page of a scope that markup is shown for. -/
def shown (results : Results) (scope : Scope) : PageRequest :=
  (results.lastPage? scope).getD (PageRequest.of 1 results.question.perPage)

theorem knownCount?_rememberCount (results : Results) (scope other : Scope) (count : Nat) :
    (results.rememberCount scope count).knownCount? other =
      if scope = other then some ((results.knownCount? scope).getD count)
      else results.knownCount? other := by
  unfold rememberCount
  split
  next known =>
    obtain ⟨old, same⟩ := Option.isSome_iff_exists.1 known
    by_cases equal : scope = other
    · rw [if_pos equal, ← equal, same, Option.getD_some]
    · rw [if_neg equal]
  next unknown =>
    have nothing : results.knownCount? scope = none := by simpa using unknown
    by_cases equal : scope = other
    · subst equal
      rw [if_pos rfl, nothing, Option.getD_none]
      simp [knownCount?]
    · simp [knownCount?, equal]

theorem knownPage?_rememberPage (results : Results) (scope other : Scope)
    (page request : PageRequest) (answer : SearchAnswer) :
    (results.rememberPage scope page answer).knownPage? other request =
      if scope = other ∧ page = request then some answer else results.knownPage? other request := by
  have pages : (results.rememberCount scope answer.total).pages = results.pages := by
    unfold rememberCount
    split <;> rfl
  by_cases equal : scope = other ∧ page = request
  · simp [knownPage?, rememberPage, equal]
  · simp [knownPage?, rememberPage, pages, equal]

theorem knownPage?_rememberCount (results : Results) (scope other : Scope) (request : PageRequest)
    (count : Nat) :
    (results.rememberCount scope count).knownPage? other request =
      results.knownPage? other request := by
  unfold rememberCount
  split <;> rfl

theorem shown_rememberCount (results : Results) (scope other : Scope) (count : Nat) :
    (results.rememberCount scope count).shown other = results.shown other := by
  unfold rememberCount
  split <;> rfl

theorem question_rememberCount (results : Results) (scope : Scope) (count : Nat) :
    (results.rememberCount scope count).question = results.question := by
  unfold rememberCount
  split <;> rfl

/-- The hits of a page as a page of results. -/
def pageOf (scope : Scope) (request : PageRequest) : Outcome SearchAnswer → Outcome (Page ResultItem)
  | .error report => .error report
  | .ok found =>
    (ResultItem.ofHits scope found.hits).map fun items => ⟨items, request, found.total⟩

/-! ### What calls are made of -/

inductive Need where
  | page (scope : Scope) (request : PageRequest)
  | total (scope : Scope)

/-- The answers that a call is made of. -/
def needs (results : Results) (call : Call) : List Need :=
  if results.question.isBlank then []
  else
    match call with
    | .page scope request => [if inWindow request then .page scope request else .total scope]
    | .count scope => [.total scope]
    | .counts scopes => scopes.map .total
    | .formattedCount name => (Scope.ofName? name).toList.map .total
    | .markup scope =>
      if scope.supportsHighlight && inWindow (results.shown scope) then
        [.page scope (results.shown scope)]
      else []

section
variable (backend : Backend σ) {results : Results} (blank : results.question.isBlank) (state : σ)
include blank

theorem count_blank (scope : Scope) :
    results.count backend scope state = (.ok 0, results, state) := by
  rw [count, if_pos blank]

theorem countAll_blank (scopes : List Scope) :
    results.countAll backend scopes state =
      (.ok (scopes.map fun scope => (scope, 0)), results, state) := by
  induction scopes with
  | nil => rfl
  | cons scope rest ih => simp only [countAll, count_blank backend blank, ih, List.map_cons]

/-- A call about a blank query leaves everything as it is. -/
theorem call_still (call : Call) : (results.call backend state call).2 = (results, state) := by
  cases call with
  | page scope request => rw [Results.call, page, if_pos blank]
  | count scope => rw [Results.call, count_blank backend blank]
  | counts scopes => rw [Results.call, countAll_blank backend blank]
  | formattedCount name =>
    rw [Results.call, formattedCount]
    cases Scope.ofName? name with
    | none => rfl
    | some scope => simp only [count_blank backend blank]
  | markup scope =>
    rw [Results.call, markup, if_pos blank]
    cases scope.supportsHighlight with
    | false => rfl
    | true => rfl

end

section
variable (backend : Backend σ) (results : Results) (state : σ) (scope : Scope)

/-- What the hits of a page can come from: from memory, from the backend, or from nowhere. -/
theorem answer_cases (page : PageRequest) :
    let asked := { results with last := (scope, page) :: results.last }
    let reply :=
      backend.search (results.question.request scope page.offset page.perPage) state
    let done := results.answer backend scope page state
    (∃ known, results.knownPage? scope page = some known ∧ done = (.ok known, asked, state)) ∨
      results.knownPage? scope page = none ∧
        ((∃ report, reply.1 = .error report ∧ done = (.error report, asked, reply.2)) ∨
          ∃ found, reply.1 = .ok found ∧
            done = (.ok found, asked.rememberPage scope page found, reply.2)) := by
  intro asked reply done
  unfold done Results.answer
  dsimp only
  cases known : results.knownPage? scope page with
  | some found =>
    have here : asked.knownPage? scope page = some found := known
    exact Or.inl ⟨found, rfl, by rw [here]⟩
  | none =>
    have unknown : asked.knownPage? scope page = none := known
    refine Or.inr ⟨rfl, ?_⟩
    rw [unknown]
    unfold reply
    generalize backend.search _ state = replied
    obtain ⟨answer, after⟩ := replied
    cases answer with
    | error report => exact Or.inl ⟨report, rfl, rfl⟩
    | ok found => exact Or.inr ⟨found, rfl, rfl⟩

/-- What a count can come from, if the query is not blank. -/
theorem count_cases (asked : ¬ results.question.isBlank) :
    let reply := backend.count (results.question.request scope 0 0) state
    let done := results.count backend scope state
    (∃ known, results.knownCount? scope = some known ∧ done = (.ok known, results, state)) ∨
      results.knownCount? scope = none ∧
        ((∃ report, reply.1 = .error report ∧ done = (.error report, results, reply.2)) ∨
          ∃ found, reply.1 = .ok found ∧
            done = (.ok found, results.rememberCount scope found, reply.2)) := by
  intro reply done
  unfold done Results.count
  rw [if_neg asked]
  cases known : results.knownCount? scope with
  | some found => exact Or.inl ⟨found, rfl, rfl⟩
  | none =>
    refine Or.inr ⟨rfl, ?_⟩
    unfold reply
    dsimp only
    generalize backend.count _ state = replied
    obtain ⟨answer, after⟩ := replied
    cases answer with
    | error report => exact Or.inl ⟨report, rfl, rfl⟩
    | ok found => exact Or.inr ⟨found, rfl, rfl⟩

end

section
variable (backend : Backend σ) (keeps : Results × σ → Prop) {results : Results} {state : σ}

theorem countAll_keeps (scopes : List Scope)
    (count : ∀ results state, ∀ scope ∈ scopes,
      keeps (results, state) → keeps (results.count backend scope state).2)
    (kept : keeps (results, state)) : keeps (results.countAll backend scopes state).2 := by
  induction scopes generalizing results state with
  | nil => exact kept
  | cons scope rest ih =>
    have first := count results state scope List.mem_cons_self kept
    unfold countAll
    generalize results.count backend scope state = counted at first ⊢
    obtain ⟨answer, next, after⟩ := counted
    cases answer with
    | error report => exact first
    | ok found =>
      have later := ih (fun results state other member =>
        count results state other (List.mem_cons_of_mem scope member)) first
      dsimp only
      generalize next.countAll backend rest after = rested at later ⊢
      obtain ⟨answer, last, final⟩ := rested
      cases answer with
      | error report => exact later
      | ok counts => exact later

/-- What the pages and counts that a call needs keep is kept by the call. -/
theorem needed_keeps {call : Call}
    (answer : ∀ next state scope page, .page scope page ∈ results.needs call →
      keeps (next, state) → keeps (next.answer backend scope page state).2)
    (count : ∀ next state scope, .total scope ∈ results.needs call →
      keeps (next, state) → keeps (next.count backend scope state).2)
    (kept : keeps (results, state)) : keeps (results.call backend state call).2 := by
  by_cases blank : results.question.isBlank
  · rwa [call_still backend blank]
  cases call with
  | count scope => exact count results state scope (by simp [needs, blank]) kept
  | counts scopes =>
    refine countAll_keeps backend keeps scopes (fun next state scope member => ?_) kept
    exact count next state scope (by simpa [needs, blank] using member)
  | page scope request =>
    unfold Results.call page
    dsimp only
    rw [if_neg blank]
    split
    next reached => exact answer results state scope request (by simp [needs, blank, reached]) kept
    next beyond => exact count results state scope (by simp [needs, blank, beyond]) kept
  | formattedCount name =>
    unfold Results.call formattedCount
    dsimp only
    split
    next => exact kept
    next scope known => exact count results state scope (by simp [needs, blank, known]) kept
  | markup scope =>
    unfold Results.call markup
    dsimp only
    rw [if_neg blank]
    split
    next => exact kept
    next marked =>
      split
      next reached =>
        have here : inWindow (results.shown scope) := reached
        refine answer results state scope (results.shown scope) ?_ kept
        simp only [Bool.not_eq_true', Bool.not_eq_false] at marked
        simp [needs, blank, marked, here]
      next => exact kept

/-- What pages and counts keep is kept by every call. -/
theorem call_keeps
    (answer : ∀ results state scope page,
      keeps (results, state) → keeps (results.answer backend scope page state).2)
    (count : ∀ results state scope,
      keeps (results, state) → keeps (results.count backend scope state).2)
    (kept : keeps (results, state)) (call : Call) : keeps (results.call backend state call).2 :=
  needed_keeps backend keeps (fun next state scope page _ => answer next state scope page)
    (fun next state scope _ => count next state scope) kept

end

section
variable (backend : Backend σ) (results : Results) (state : σ)

theorem page_reached (scope : Scope) {request : PageRequest}
    (asked : ¬ results.question.isBlank) (reached : inWindow request) :
    results.page backend scope request state =
      (pageOf scope request (results.answer backend scope request state).1,
        (results.answer backend scope request state).2) := by
  rw [page, if_neg asked, if_pos reached]
  rfl

/-! ### The question stays -/

theorem question_count (scope : Scope) :
    (results.count backend scope state).2.1.question = results.question := by
  by_cases blank : results.question.isBlank
  · rw [count_blank backend blank]
  obtain ⟨_, _, done⟩ | ⟨_, ⟨_, _, done⟩ | ⟨found, _, done⟩⟩ :=
    count_cases backend results state scope blank
  · rw [done]
  · rw [done]
  · rw [done]
    exact question_rememberCount results scope found

theorem question_answer (scope : Scope) (page : PageRequest) :
    (results.answer backend scope page state).2.1.question = results.question := by
  obtain ⟨_, _, done⟩ | ⟨_, ⟨_, _, done⟩ | ⟨found, _, done⟩⟩ :=
    answer_cases backend results state scope page
  · rw [done]
  · rw [done]
  · rw [done]
    exact question_rememberCount _ scope found.total

theorem question_call (call : Call) :
    (results.call backend state call).2.1.question = results.question := by
  apply call_keeps backend (fun now => now.1.question = results.question)
  · intro now after scope page same
    exact (question_answer backend now after scope page).trans same
  · intro now after scope same
    exact (question_count backend now after scope).trans same
  · rfl

end

/-! ### Sessions side by side -/

/-- Two results remember the same, but for the pages that were asked for last in some scopes. -/
structure Alike (free : Scope → Prop) (left right : Results) : Prop where
  question : left.question = right.question
  counts : ∀ scope, left.knownCount? scope = right.knownCount? scope
  pages : ∀ scope page, left.knownPage? scope page = right.knownPage? scope page
  shown : ∀ scope, ¬ free scope → left.shown scope = right.shown scope

/-- Related states of two backends answer the requests of a question in the same way. -/
structure Agree (question : Question) (related : σ → τ → Prop) (left : Backend σ)
    (right : Backend τ) : Prop where
  search : ∀ scope skip size {a b}, related a b →
    let request := question.request scope skip size
    (left.search request a).1 = (right.search request b).1 ∧
      related (left.search request a).2 (right.search request b).2
  count : ∀ scope {a b}, related a b →
    let request := question.request scope 0 0
    (left.count request a).1 = (right.count request b).1 ∧
      related (left.count request a).2 (right.count request b).2

/-- Clusters agree when what a question matches in them can be told from something that searches
leave alone: a relation between the documents. -/
theorem agree_of_cores {question : Question}
    (near : List StoredDocument → List StoredDocument → Prop)
    (cores : ∀ left right : MemoryCluster, near left.documents right.documents →
      ∀ scope skip size, (left.matching (question.request scope skip size)).map MemoryCluster.core =
        (right.matching (question.request scope skip size)).map MemoryCluster.core) :
    Agree question (fun left right => left.unavailable = right.unavailable ∧
      near left.documents right.documents) MemoryCluster.backend MemoryCluster.backend := by
  constructor
  · intro scope skip size left right ⟨away, same⟩
    obtain ⟨_, leftKept⟩ := MemoryCluster.search_frame (question.request scope skip size) left
    obtain ⟨_, rightKept⟩ := MemoryCluster.search_frame (question.request scope skip size) right
    refine ⟨MemoryCluster.search_of_cores away (cores left right same scope skip size), ?_⟩
    simp only [MemoryCluster.backend, leftKept, rightKept]
    exact ⟨away, same⟩
  · intro scope left right ⟨away, same⟩
    obtain ⟨_, leftKept⟩ := MemoryCluster.count_frame (question.request scope 0 0) left
    obtain ⟨_, rightKept⟩ := MemoryCluster.count_frame (question.request scope 0 0) right
    refine ⟨MemoryCluster.count_of_cores away (cores left right same scope 0 0), ?_⟩
    simp only [MemoryCluster.backend, leftKept, rightKept]
    exact ⟨away, same⟩

structure Together (free : Scope → Prop) (related : σ → τ → Prop) (left : α × Results × σ)
    (right : α × Results × τ) : Prop where
  same : left.1 = right.1
  alike : Alike free left.2.1 right.2.1
  related : related left.2.2 right.2.2

variable {question : Question} {free : Scope → Prop} {related : σ → τ → Prop}
  {left : Backend σ} {right : Backend τ} {a b : Results} {s : σ} {t : τ}

theorem Alike.weaken (alike : Alike free a b) {other : Scope → Prop}
    (more : ∀ scope, free scope → other scope) : Alike other a b :=
  ⟨alike.question, alike.counts, alike.pages,
    fun scope fixed => alike.shown scope fun loose => fixed (more scope loose)⟩

theorem Alike.rememberCount (alike : Alike free a b) (scope : Scope) (count : Nat) :
    Alike free (a.rememberCount scope count) (b.rememberCount scope count) := by
  refine ⟨?_, ?_, ?_, ?_⟩
  · simp only [question_rememberCount, alike.question]
  · intro other
    simp only [knownCount?_rememberCount, alike.counts]
  · intro other page
    simp only [knownPage?_rememberCount, alike.pages]
  · intro other fixed
    simp only [shown_rememberCount, alike.shown other fixed]

theorem Alike.rememberPage (alike : Alike free a b) (scope : Scope) (page : PageRequest)
    (answer : SearchAnswer) :
    Alike free (a.rememberPage scope page answer) (b.rememberPage scope page answer) := by
  have counted := alike.rememberCount scope answer.total
  refine ⟨counted.question, counted.counts, ?_, counted.shown⟩
  intro other request
  simp only [knownPage?_rememberPage, alike.pages]

/-- When both ask for a page of a scope, the scope is no longer an exception. -/
theorem Alike.ask (alike : Alike free a b) (scope : Scope) (page : PageRequest) :
    Alike (fun other => free other ∧ other ≠ scope) { a with last := (scope, page) :: a.last }
      { b with last := (scope, page) :: b.last } := by
  refine ⟨alike.question, alike.counts, alike.pages, ?_⟩
  intro other fixed
  by_cases equal : scope = other
  · simp [Results.shown, lastPage?, equal]
  · have before := alike.shown other fun loose => fixed ⟨loose, Ne.symm equal⟩
    simpa [Results.shown, lastPage?, equal] using before

theorem Agree.answer (agree : Agree b.question related left right) (alike : Alike free a b)
    (near : related s t) (scope : Scope) (page : PageRequest) :
    Together (fun other => free other ∧ other ≠ scope) related (a.answer left scope page s)
      (b.answer right scope page t) := by
  have asked := alike.ask scope page
  have known := asked.pages scope page
  obtain ⟨question, counts, pages, last⟩ := a
  obtain rfl : question = b.question := alike.question
  obtain ⟨same, after⟩ := agree.search scope page.offset page.perPage near
  unfold Results.answer
  dsimp only at known same after ⊢
  rw [known]
  cases Results.knownPage? { b with last := (scope, page) :: b.last } scope page with
  | some found => exact ⟨rfl, asked, near⟩
  | none =>
    generalize left.search _ s = first at same after ⊢
    generalize right.search _ t = second at same after ⊢
    obtain ⟨answer, s'⟩ := first
    obtain ⟨_, t'⟩ := second
    obtain rfl := same
    cases answer with
    | error report => exact ⟨rfl, asked, after⟩
    | ok found => exact ⟨rfl, asked.rememberPage scope page found, after⟩

theorem Agree.counted (agree : Agree b.question related left right) (alike : Alike free a b)
    (near : related s t) (scope : Scope) :
    Together free related (a.count left scope s) (b.count right scope t) := by
  have known := alike.counts scope
  obtain ⟨question, counts, pages, last⟩ := a
  obtain rfl : question = b.question := alike.question
  obtain ⟨same, after⟩ := agree.count scope near
  unfold Results.count
  dsimp only at known same after ⊢
  rw [known]
  by_cases blank : b.question.isBlank
  · rw [if_pos blank, if_pos blank]
    exact ⟨rfl, alike, near⟩
  rw [if_neg blank, if_neg blank]
  cases b.knownCount? scope with
  | some found => exact ⟨rfl, alike, near⟩
  | none =>
    generalize left.count _ s = first at same after ⊢
    generalize right.count _ t = second at same after ⊢
    obtain ⟨answer, s'⟩ := first
    obtain ⟨_, t'⟩ := second
    obtain rfl := same
    cases answer with
    | error report => exact ⟨rfl, alike, after⟩
    | ok found => exact ⟨rfl, alike.rememberCount scope found, after⟩

theorem Together.map {left : α × Results × σ} {right : α × Results × τ}
    (together : Together free related left right) (f : α → β) :
    Together free related (f left.1, left.2) (f right.1, right.2) :=
  ⟨congrArg f together.same, together.alike, together.related⟩

theorem Together.weaken {left : α × Results × σ} {right : α × Results × τ}
    (together : Together free related left right) {other : Scope → Prop}
    (more : ∀ scope, free scope → other scope) : Together other related left right :=
  ⟨together.same, together.alike.weaken more, together.related⟩

theorem Agree.page (agree : Agree b.question related left right) (alike : Alike free a b)
    (near : related s t) (scope : Scope) (request : PageRequest) :
    Together free related (a.page left scope request s) (b.page right scope request t) := by
  have answered := (agree.answer alike near scope request).weaken fun _ => And.left
  have counted := agree.counted alike near scope
  by_cases blank : b.question.isBlank
  · rw [Results.page, Results.page, alike.question, if_pos blank, if_pos blank]
    exact ⟨rfl, alike, near⟩
  by_cases reached : inWindow request
  · rw [page_reached left a s scope (alike.question ▸ blank) reached,
      page_reached right b t scope blank reached]
    exact answered.map _
  · rw [Results.page, Results.page, alike.question, if_neg blank, if_neg blank, if_neg reached,
      if_neg reached]
    exact counted.map _

/-- A page that the backend can reach leaves no doubt which page of its scope was the last. -/
theorem Agree.page_settles (agree : Agree b.question related left right) (alike : Alike free a b)
    (near : related s t) (scope : Scope) {request : PageRequest}
    (asked : ¬ b.question.isBlank) (reached : inWindow request) :
    Together (fun other => free other ∧ other ≠ scope) related (a.page left scope request s)
      (b.page right scope request t) := by
  rw [page_reached left a s scope (alike.question ▸ asked) reached,
    page_reached right b t scope asked reached]
  exact (agree.answer alike near scope request).map _

theorem Agree.countAll (agree : Agree b.question related left right) (alike : Alike free a b)
    (near : related s t) (scopes : List Scope) :
    Together free related (a.countAll left scopes s) (b.countAll right scopes t) := by
  induction scopes generalizing a b s t with
  | nil => exact ⟨rfl, alike, near⟩
  | cons scope rest ih =>
    obtain ⟨same, next, after⟩ := agree.counted alike near scope
    have kept := question_count right b t scope
    unfold Results.countAll
    generalize a.count left scope s = first at same next after ⊢
    generalize b.count right scope t = second at same next after kept ⊢
    obtain ⟨answer, a', s'⟩ := first
    obtain ⟨_, b', t'⟩ := second
    obtain rfl := same
    cases answer with
    | error report => exact ⟨rfl, next, after⟩
    | ok found =>
      obtain ⟨same, last, final⟩ := ih (kept ▸ agree) next after
      dsimp only at same last final ⊢
      generalize a'.countAll left rest s' = first at same last final ⊢
      generalize b'.countAll right rest t' = second at same last final ⊢
      obtain ⟨answer, a'', s''⟩ := first
      obtain ⟨_, b'', t''⟩ := second
      obtain rfl := same
      cases answer with
      | error report => exact ⟨rfl, last, final⟩
      | ok counts => exact ⟨rfl, last, final⟩

theorem Agree.markup (agree : Agree b.question related left right) (alike : Alike free a b)
    (near : related s t) {scope : Scope} (fixed : ¬ b.question.isBlank → ¬ free scope) :
    Together free related (a.markup left scope s) (b.markup right scope t) := by
  unfold Results.markup
  rw [alike.question]
  split
  next => exact ⟨rfl, alike, near⟩
  split
  next => exact ⟨rfl, alike, near⟩
  next asked =>
    have page : (a.lastPage? scope).getD (PageRequest.of 1 b.question.perPage) =
        (b.lastPage? scope).getD (PageRequest.of 1 b.question.perPage) := by
      have shown := alike.shown scope (fixed asked)
      unfold Results.shown at shown
      rwa [alike.question] at shown
    dsimp only
    rw [page]
    split
    next => exact ((agree.answer alike near scope _).weaken fun _ => And.left).map _
    next => exact ⟨rfl, alike, near⟩

theorem Agree.formattedCount (agree : Agree b.question related left right) (alike : Alike free a b)
    (near : related s t) (name : String) :
    Together free related (a.formattedCount left name s) (b.formattedCount right name t) := by
  unfold Results.formattedCount
  split
  next => exact ⟨rfl, alike, near⟩
  next scope _ => exact (agree.counted alike near scope).map _

/-- A call goes the same way, unless it shows the page of a scope that makes the difference. -/
theorem Agree.call (agree : Agree b.question related left right) (alike : Alike free a b)
    (near : related s t) {call : Call}
    (fixed : ¬ b.question.isBlank → ∀ scope, call = .markup scope → ¬ free scope) :
    Together free related (a.call left s call) (b.call right t call) := by
  cases call with
  | page scope request => exact (agree.page alike near scope request).map _
  | count scope => exact (agree.counted alike near scope).map _
  | counts scopes => exact (agree.countAll alike near scopes).map _
  | formattedCount name => exact (agree.formattedCount alike near name).map _
  | markup scope => exact (agree.markup alike near fun asked => fixed asked scope rfl).map _

/-- In none of these scopes is markup asked for before a page of the scope that can be reached. So
no answer depends on which page was the last one there before. -/
def Forgets (free : Scope → Prop) : List Event → Prop
  | [] => True
  | .call (.markup scope) :: rest => ¬ free scope ∧ Forgets free rest
  | .call (.page scope request) :: rest =>
    Forgets (fun other => free other ∧ ¬ (other = scope ∧ inWindow request)) rest
  | _ :: rest => Forgets free rest

theorem forgets_nothing {free : Scope → Prop} (empty : ∀ scope, ¬ free scope)
    (events : List Event) : Forgets free events := by
  induction events generalizing free with
  | nil => trivial
  | cons event rest ih =>
    cases event with
    | switch away => exact ih empty
    | call call =>
      cases call with
      | markup scope => exact ⟨empty scope, ih empty⟩
      | page scope request => exact ih fun scope member => empty scope member.1
      | count _ | counts _ | formattedCount _ => exact ih empty

/-- One event goes the same way on both sides, and what follows may still forget what is left to
forget. -/
theorem Agree.event {related : MemoryCluster → MemoryCluster → Prop} {s t : MemoryCluster}
    (agree : Agree b.question related MemoryCluster.backend MemoryCluster.backend)
    (switch : ∀ {s t} away, related s t →
      related { s with unavailable := away } { t with unavailable := away })
    (alike : Alike free a b) (near : related s t) {event : Event} {rest : List Event}
    (calm : ¬ b.question.isBlank → Forgets free (event :: rest)) :
    ∃ other, Together other related (Results.event (a, s) event) (Results.event (b, t) event) ∧
      (¬ b.question.isBlank → Forgets other rest) := by
  have called {call : Call} {other : Scope → Prop}
      (together : Together other related (a.call MemoryCluster.backend s call)
        (b.call MemoryCluster.backend t call)) :
      Together other related (Results.event (a, s) (.call call)) (Results.event (b, t) (.call call)) :=
    together.map fun answer => [answer]
  cases event with
  | switch away => exact ⟨free, ⟨rfl, alike, switch away near⟩, calm⟩
  | call call =>
    cases call with
    | count scope => exact ⟨free, called (agree.call alike near fun _ _ => nofun), calm⟩
    | counts scopes => exact ⟨free, called (agree.call alike near fun _ _ => nofun), calm⟩
    | formattedCount name => exact ⟨free, called (agree.call alike near fun _ _ => nofun), calm⟩
    | markup scope =>
      refine ⟨free, called (agree.call alike near ?_), fun asked => (calm asked).2⟩
      rintro asked _ ⟨⟩
      exact (calm asked).1
    | page scope request =>
      by_cases settled : ¬ b.question.isBlank ∧ inWindow request
      · have together := (agree.page_settles alike near scope settled.1 settled.2).map
          (Except.map Answer.page)
        refine ⟨_, called (together.weaken ?_), calm⟩
        exact fun other left => ⟨left.1, fun both => left.2 both.1⟩
      · refine ⟨free, called (agree.call alike near fun _ _ => nofun), ?_⟩
        intro asked
        have same : (fun other => free other ∧ ¬ (other = scope ∧ inWindow request)) = free := by
          funext other
          apply propext
          exact ⟨And.left, fun member => ⟨member, fun both => settled ⟨asked, both.2⟩⟩⟩
        exact same ▸ calm asked

theorem Agree.run {related : MemoryCluster → MemoryCluster → Prop} {s t : MemoryCluster}
    (agree : Agree b.question related MemoryCluster.backend MemoryCluster.backend)
    (switch : ∀ {s t} away, related s t →
      related { s with unavailable := away } { t with unavailable := away })
    (alike : Alike free a b) (near : related s t) {events : List Event}
    (calm : ¬ b.question.isBlank → Forgets free events) :
    (Results.run events (a, s)).1 = (Results.run events (b, t)).1 := by
  induction events generalizing free a b s t with
  | nil => rfl
  | cons event rest ih =>
    obtain ⟨other, ⟨same, next, after⟩, later⟩ := agree.event switch alike near calm
    have kept : (Results.event (b, t) event).2.1.question = b.question := by
      cases event with
      | call call => exact question_call MemoryCluster.backend b t call
      | switch away => rfl
    have rested := ih (kept ▸ agree) next after (kept ▸ later)
    simp only [Results.run, same]
    exact congrArg _ rested

end Results

end SearchRelay
