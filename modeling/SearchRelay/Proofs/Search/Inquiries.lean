import SearchRelay.Proofs.Search.Truth

/-!
Nothing is asked twice. Whatever becomes of the cluster between the calls on one query, a request
is only sent for an answer that is not known yet, and what was answered once stays known. So the
answered requests of a session are all about different things.
-/

namespace SearchRelay

/-- A request that was sent on behalf of a query, and whether it was answered. -/
inductive Inquiry where
  | search (request : SearchRequest) (answered : Bool)
  | count (request : SearchRequest) (answered : Bool)

def Inquiry.answered : Inquiry → Bool
  | .search _ answered => answered
  | .count _ answered => answered

namespace Backend

/-- A backend that keeps the inquiries it got, the first one first. -/
def watched (backend : Backend σ) : Backend (σ × List Inquiry) where
  bulk := fun body (state, log) =>
    let (answer, state) := backend.bulk body state
    (answer, state, log)
  search := fun request (state, log) =>
    let (answer, state) := backend.search request state
    (answer, state, log ++ [.search request answer.isOk])
  count := fun request (state, log) =>
    let (answer, state) := backend.count request state
    (answer, state, log ++ [.count request answer.isOk])

end Backend

theorem Scope.documentType_injective {scope other : Scope}
    (same : scope.documentType = other.documentType) : scope = other := by
  have all : ∀ scope ∈ all, ∀ other ∈ all,
      scope.documentType = other.documentType → scope = other := by decide
  exact all scope scope.mem_all other other.mem_all same

/-- The scope can be told from a request. -/
theorem Question.scope_of_request {question : Question} {scope other : Scope} {skip size : Nat}
    (same : question.request scope skip size = question.request other skip size) :
    scope = other := by
  have first (scope : Scope) : ∃ others, question.scopeFilter scope =
      .allOf (.equals "type" (.str scope.documentType) :: others) := ⟨_, rfl⟩
  obtain ⟨_, left⟩ := first scope
  obtain ⟨_, right⟩ := first other
  have filters : question.scopeFilter scope = question.scopeFilter other :=
    congrArg SearchRequest.filter same
  rw [left, right, Filter.allOf.injEq, List.cons.injEq, Filter.equals.injEq,
    Json.str.injEq] at filters
  exact Scope.documentType_injective filters.1.2

namespace Results

/-! ### Sessions in front of a changing cluster -/

/-- A call, or anything that becomes of the cluster between two calls. -/
inductive Turn (σ : Type) where
  | call (call : Call)
  | become (state : σ)

/-- A call of a session: the answers that it was made of, the requests that it sent and how it
ended. -/
structure Entry where
  call : Call
  needs : List Need
  inquiries : List Inquiry
  answer : Outcome Answer

def entry (backend : Backend σ) (now : Results × σ) (call : Call) : Entry where
  call := call
  needs := now.1.needs call
  inquiries := (now.1.call backend.watched (now.2, []) call).2.2.2
  answer := (now.1.call backend now.2 call).1

/-- The calls of a session, the first one first. -/
def transcript (backend : Backend σ) : List (Turn σ) → Results × σ → List Entry
  | [], _ => []
  | .become state :: rest, now => transcript backend rest (now.1, state)
  | .call call :: rest, now =>
    entry backend now call :: transcript backend rest (now.1.call backend now.2 call).2

/-- The inquiry is the one by which this answer is asked for. -/
def Need.AskedBy (question : Question) : Need → Inquiry → Prop
  | .page scope wanted, .search request _ =>
    request = question.request scope wanted.offset wanted.perPage
  | .total scope, .count request _ => request = question.request scope 0 0
  | _, _ => False

/-- Each inquiry with the answers that its call was made of. -/
def Entry.asked (entry : Entry) : List (List Need × Inquiry) :=
  entry.inquiries.map fun inquiry => (entry.needs, inquiry)

/-- If the earlier inquiry was answered, the later one asks for nothing that the answer covers. -/
def Spares (question : Question) (earlier later : List Need × Inquiry) : Prop :=
  earlier.2.answered → ∀ given ∈ earlier.1, given.AskedBy question earlier.2 →
    ∀ need ∈ later.1, need.AskedBy question later.2 → ¬ given.Covers need

/-- The answer gives these numbers of results. The total of a page that can be reached is none of
them: it comes with the page. -/
def Answer.Tells (value : Scope → Nat) : Call → Answer → Prop
  | .page scope request, .page shown => inWindow request ∨ shown.total = value scope
  | .count scope, .count found => found = value scope
  | .counts scopes, .counts found => found = scopes.map fun scope => (scope, value scope)
  | .formattedCount name, .formattedCount found =>
    found = (Scope.ofName? name).map fun scope => Text.grouped (value scope)
  | .markup _, .markup _ => True
  | _, _ => False

/-! ### Knowing more -/

/-- Nothing that was known is forgotten, and no total changes. -/
structure Grows (before after : Results) : Prop where
  question : after.question = before.question
  counts : ∀ scope count, before.knownCount? scope = some count →
    after.knownCount? scope = some count
  pages : ∀ scope page, before.Knows (.page scope page) → after.Knows (.page scope page)
  linked : before.Linked → after.Linked

section
variable {before after last : Results}

theorem Grows.refl (results : Results) : results.Grows results :=
  ⟨rfl, fun _ _ => id, fun _ _ => id, id⟩

theorem Grows.trans (first : before.Grows after) (second : after.Grows last) : before.Grows last :=
  ⟨second.question.trans first.question,
    fun scope count known => second.counts scope count (first.counts scope count known),
    fun scope page knows => second.pages scope page (first.pages scope page knows),
    fun linked => second.linked (first.linked linked)⟩

theorem Grows.knows (grows : before.Grows after) {need : Need} (knows : before.Knows need) :
    after.Knows need := by
  cases need with
  | page scope page => exact grows.pages scope page knows
  | total scope =>
    obtain ⟨count, known⟩ := Option.isSome_iff_exists.1 knows
    exact Option.isSome_iff_exists.2 ⟨count, grows.counts scope count known⟩

theorem grows_rememberCount (results : Results) (scope : Scope) (count : Nat) :
    results.Grows (results.rememberCount scope count) := by
  refine ⟨question_rememberCount results scope count, ?_, ?_, ?_⟩
  · intro other found known
    rw [knownCount?_rememberCount]
    split
    next same => rw [same, known, Option.getD_some]
    next => exact known
  · exact fun other page knows => knows.rememberCount scope count
  · intro linked other page knows
    rw [Knows, knownPage?_rememberCount] at knows
    exact (linked other page knows).rememberCount scope count

theorem grows_rememberPage (results : Results) (scope : Scope) (page : PageRequest)
    (answer : SearchAnswer) : results.Grows (results.rememberPage scope page answer) := by
  have counted := grows_rememberCount results scope answer.total
  refine ⟨counted.question, counted.counts, ?_, ?_⟩
  · exact fun other request knows => knows.rememberPage scope page answer
  · intro linked other request knows
    rw [Knows, knownPage?_rememberPage] at knows
    split at knows
    next same => exact same.1 ▸ knows_rememberCount scope answer.total
    next => exact Knows.rememberCount (linked other request knows) scope answer.total

end

section
variable (backend : Backend σ) (results : Results) (state : σ) (scope : Scope)

theorem grows_last (page : PageRequest) :
    results.Grows { results with last := (scope, page) :: results.last } :=
  ⟨rfl, fun _ _ => id, fun _ _ => id, id⟩

theorem answer_grows (page : PageRequest) :
    results.Grows (results.answer backend scope page state).2.1 := by
  have asked := grows_last results scope page
  obtain ⟨_, _, done⟩ | ⟨_, ⟨_, _, done⟩ | ⟨found, _, done⟩⟩ :=
    answer_cases backend results state scope page
  · exact done ▸ asked
  · exact done ▸ asked
  · exact done ▸ asked.trans (grows_rememberPage _ scope page found)

theorem count_grows : results.Grows (results.count backend scope state).2.1 := by
  by_cases blank : results.question.isBlank
  · exact count_blank backend blank state scope ▸ Grows.refl results
  obtain ⟨_, _, done⟩ | ⟨_, ⟨_, _, done⟩ | ⟨found, _, done⟩⟩ :=
    count_cases backend results state scope blank
  · exact done ▸ Grows.refl results
  · exact done ▸ Grows.refl results
  · exact done ▸ grows_rememberCount results scope found

theorem countAll_grows (scopes : List Scope) :
    results.Grows (results.countAll backend scopes state).2.1 := by
  apply countAll_keeps backend fun now => results.Grows now.1
  · exact fun next state scope _ grows => grows.trans (count_grows backend next state scope)
  · exact Grows.refl results

theorem call_grows (call : Call) : results.Grows (results.call backend state call).2.1 := by
  apply call_keeps backend fun now => results.Grows now.1
  · exact fun next state scope page grows =>
      grows.trans (answer_grows backend next state scope page)
  · exact fun next state scope grows => grows.trans (count_grows backend next state scope)
  · exact Grows.refl results

end

/-! ### The inquiries of one call -/

section
variable {question : Question} {results : Results} {call : Call}

/-- A call that needs a page needs nothing else. -/
theorem needs_of_page {scope : Scope} {page : PageRequest}
    (member : .page scope page ∈ results.needs call) :
    results.needs call = [.page scope page] ∧ inWindow page := by
  by_cases blank : results.question.isBlank
  · simp [needs, blank] at member
  unfold needs at member ⊢
  rw [if_neg blank] at member ⊢
  cases call with
  | count scope => simp at member
  | counts scopes => simp at member
  | formattedCount name => simp at member
  | page other request =>
    by_cases reached : inWindow request
    · simp only [reached, if_true, List.mem_singleton, Need.page.injEq] at member ⊢
      obtain ⟨rfl, rfl⟩ := member
      exact ⟨rfl, reached⟩
    · simp [reached] at member
  | markup other =>
    dsimp only at member ⊢
    split at member
    next shown =>
      simp only [List.mem_singleton, Need.page.injEq] at member
      obtain ⟨rfl, rfl⟩ := member
      rw [if_pos shown]
      exact ⟨rfl, (Bool.and_eq_true_iff.1 shown).2⟩
    next => cases member

/-- An inquiry of a call asks for one of its answers only. -/
theorem needs_askedBy {given need : Need} {inquiry : Inquiry} (first : given ∈ results.needs call)
    (second : need ∈ results.needs call) (left : given.AskedBy question inquiry)
    (right : need.AskedBy question inquiry) : need = given := by
  cases given with
  | page scope page =>
    rw [(needs_of_page first).1] at second
    exact List.mem_singleton.1 second
  | total scope =>
    cases need with
    | page other page =>
      rw [(needs_of_page second).1] at first
      exact (List.mem_singleton.1 first).symm
    | total other =>
      cases inquiry with
      | search request answered => exact left.elim
      | count request answered =>
        have same : question.request other 0 0 = question.request scope 0 0 := right.symm.trans left
        exact congrArg Need.total (Question.scope_of_request same)

/-- How far a call has come: it has asked for some of the answers that it needs, each of which was
not known before. -/
structure Asks (origin : Results) (call : Call) (now : Results × σ × List Inquiry) : Prop where
  grows : origin.Grows now.1
  asked : ∀ inquiry ∈ now.2.2, ∃ need ∈ origin.needs call, need.AskedBy origin.question inquiry
  fresh : ∀ inquiry ∈ now.2.2, ∀ need ∈ origin.needs call,
    need.AskedBy origin.question inquiry → ¬ origin.Knows need
  learnt : ∀ inquiry ∈ now.2.2, inquiry.answered → ∀ need ∈ origin.needs call,
    need.AskedBy origin.question inquiry → now.1.Knows need
  apart : (now.2.2.map fun inquiry => (origin.needs call, inquiry)).Pairwise
    (Spares origin.question)

variable {origin after : Results} {state later : σ} {log : List Inquiry}

theorem Asks.nothing (origin : Results) (call : Call) (state : σ) :
    Asks origin call (origin, state, []) :=
  ⟨.refl origin, nofun, nofun, nofun, .nil⟩

theorem Asks.grow (asks : Asks origin call (results, state, log)) (grows : results.Grows after) :
    Asks origin call (after, later, log) :=
  ⟨asks.grows.trans grows, asks.asked, asks.fresh,
    fun inquiry member answered need needed about =>
      grows.knows (asks.learnt inquiry member answered need needed about), asks.apart⟩

theorem Asks.send (asks : Asks origin call (results, state, log)) (linked : origin.Linked)
    {need : Need} {inquiry : Inquiry} (needed : need ∈ origin.needs call)
    (about : need.AskedBy origin.question inquiry) (unknown : ¬ results.Knows need)
    (grows : results.Grows after) (learns : inquiry.answered → after.Knows need) :
    Asks origin call (after, later, log ++ [inquiry]) := by
  have same {other : Need} (member : other ∈ origin.needs call)
      (asked : other.AskedBy origin.question inquiry) : other = need :=
    needs_askedBy needed member about asked
  have grown : Asks origin call (after, later, log) := asks.grow grows
  refine ⟨grown.grows, ?_, ?_, ?_, ?_⟩
  · exact List.forall_mem_append.2
      ⟨asks.asked, List.forall_mem_singleton.2 ⟨need, needed, about⟩⟩
  · refine List.forall_mem_append.2 ⟨asks.fresh, List.forall_mem_singleton.2 ?_⟩
    intro other member asked knows
    exact unknown (same member asked ▸ asks.grows.knows knows)
  · refine List.forall_mem_append.2 ⟨grown.learnt, List.forall_mem_singleton.2 ?_⟩
    intro answered other member asked
    exact same member asked ▸ learns answered
  · rw [List.map_append, List.pairwise_append]
    refine ⟨asks.apart, List.pairwise_singleton _ _, ?_⟩
    intro earlier before last here answered given first asked other member askedLast covers
    obtain ⟨old, inside, rfl⟩ := List.mem_map.1 before
    obtain rfl := List.mem_singleton.1 here
    -- what the earlier inquiry brought is known, and with it all that it covers
    have known := asks.learnt old inside answered given first asked
    have covered := (asks.grows.linked linked).covers known covers
    exact unknown (same member askedLast ▸ covered)

theorem Asks.answer {backend : Backend σ} (asks : Asks origin call (results, state, log))
    (linked : origin.Linked) {scope : Scope} {page : PageRequest}
    (needed : .page scope page ∈ origin.needs call) :
    Asks origin call (results.answer backend.watched scope page (state, log)).2 := by
  have asked := grows_last results scope page
  obtain ⟨_, _, done⟩ | ⟨unknown, reply⟩ :=
    answer_cases backend.watched results (state, log) scope page
  · exact done ▸ asks.grow asked
  have new : ¬ results.Knows (.page scope page) := by simp [Knows, unknown]
  have about (answered : Bool) : (Need.page scope page).AskedBy origin.question
      (.search (results.question.request scope page.offset page.perPage) answered) := by
    rw [asks.grows.question]
    rfl
  obtain ⟨report, failed, done⟩ | ⟨found, answered, done⟩ := reply
  · rw [done]
    have refused := congrArg Except.isOk failed
    exact asks.send linked needed (about _) new asked fun answered =>
      absurd (refused.symm.trans answered) Bool.false_ne_true
  · rw [done]
    have learnt := asked.trans (grows_rememberPage _ scope page found)
    exact asks.send linked needed (about _) new learnt fun _ => knows_rememberPage scope page found

theorem Asks.count {backend : Backend σ} (asks : Asks origin call (results, state, log))
    (linked : origin.Linked) {scope : Scope} (needed : .total scope ∈ origin.needs call) :
    Asks origin call (results.count backend.watched scope (state, log)).2 := by
  by_cases blank : results.question.isBlank
  · rw [count_blank backend.watched blank]
    exact asks
  obtain ⟨_, _, done⟩ | ⟨unknown, reply⟩ :=
    count_cases backend.watched results (state, log) scope blank
  · exact done ▸ asks
  have new : ¬ results.Knows (.total scope) := by simp [Knows, unknown]
  have about (answered : Bool) : (Need.total scope).AskedBy origin.question
      (.count (results.question.request scope 0 0) answered) := by
    rw [asks.grows.question]
    rfl
  obtain ⟨report, failed, done⟩ | ⟨found, answered, done⟩ := reply
  · rw [done]
    have refused := congrArg Except.isOk failed
    exact asks.send linked needed (about _) new (.refl results) fun answered =>
      absurd (refused.symm.trans answered) Bool.false_ne_true
  · rw [done]
    exact asks.send linked needed (about _) new (grows_rememberCount results scope found)
      fun _ => knows_rememberCount scope found

theorem call_asks (backend : Backend σ) (linked : origin.Linked) (call : Call) (state : σ) :
    Asks origin call (origin.call backend.watched (state, []) call).2 := by
  apply needed_keeps backend.watched (Asks origin call)
  · exact fun _ (_, _) _ _ needed asks => asks.answer linked needed
  · exact fun _ (_, _) _ needed asks => asks.count linked needed
  · exact Asks.nothing origin call state

end

/-! ### The answer of one call -/

/-- The totals that the results would tell now. -/
def told (results : Results) (scope : Scope) : Nat :=
  if results.question.isBlank then 0 else (results.knownCount? scope).getD 0

/-- What a call needs is known once it is answered, and the answer is what will be told from then
on. -/
def Settles (needs : List Need) (tells : (Scope → Nat) → α → Prop)
    (ended : Outcome α × Results × σ) : Prop :=
  ∀ value, ended.1 = .ok value → (∀ need ∈ needs, ended.2.1.Knows need) ∧
    ∀ last, ended.2.1.Grows last → tells last.told value

section
variable {results last : Results}

theorem told_of_knownCount? (asked : ¬ results.question.isBlank) (grows : results.Grows last)
    {scope : Scope} {count : Nat} (known : results.knownCount? scope = some count) :
    last.told scope = count := by
  rw [told, grows.question, if_neg asked, grows.counts scope count known, Option.getD_some]

theorem Settles.map {needs : List Need} {tells : (Scope → Nat) → α → Prop}
    {ended : Outcome α × Results × σ} (settles : Settles needs tells ended) {f : α → β}
    {other : (Scope → Nat) → β → Prop} (kept : ∀ value found, tells value found →
      other value (f found)) : Settles needs other (ended.1.map f, ended.2) := by
  intro value same
  cases answer : ended.1 with
  | error report =>
    rw [answer] at same
    cases same
  | ok found =>
    rw [answer] at same
    obtain rfl := Except.ok.inj same
    obtain ⟨known, tells⟩ := settles found answer
    exact ⟨known, fun last grows => kept _ _ (tells last grows)⟩

variable (backend : Backend σ) (state : σ)

theorem answer_settles (scope : Scope) (page : PageRequest) :
    Settles [.page scope page] (fun _ _ => True) (results.answer backend scope page state) := by
  intro value same
  refine ⟨List.forall_mem_singleton.2 ?_, fun _ _ => trivial⟩
  obtain ⟨known, here, done⟩ | ⟨_, ⟨report, _, done⟩ | ⟨found, _, done⟩⟩ :=
    answer_cases backend results state scope page
  · rw [done]
    exact Option.isSome_iff_exists.2 ⟨known, here⟩
  · rw [done] at same
    cases same
  · rw [done]
    exact knows_rememberPage scope page found

theorem count_settles (asked : ¬ results.question.isBlank) (scope : Scope) :
    Settles [.total scope] (fun value found => found = value scope)
      (results.count backend scope state) := by
  have remembered {after : Results} (stays : after.question = results.question) {found : Nat}
      (known : after.knownCount? scope = some found) :
      (∀ need ∈ [Need.total scope], after.Knows need) ∧
        ∀ last, after.Grows last → found = last.told scope :=
    ⟨List.forall_mem_singleton.2 (Option.isSome_iff_exists.2 ⟨found, known⟩),
      fun _ grows => (told_of_knownCount? (stays ▸ asked) grows known).symm⟩
  intro value same
  obtain ⟨known, here, done⟩ | ⟨unknown, ⟨report, _, done⟩ | ⟨found, _, done⟩⟩ :=
    count_cases backend results state scope asked
  · rw [done] at same ⊢
    obtain rfl := Except.ok.inj same
    exact remembered rfl here
  · rw [done] at same
    cases same
  · rw [done] at same ⊢
    obtain rfl := Except.ok.inj same
    refine remembered (question_rememberCount results scope found) ?_
    rw [knownCount?_rememberCount, if_pos rfl, unknown, Option.getD_none]

theorem countAll_settles (asked : ¬ results.question.isBlank) (scopes : List Scope) :
    Settles (scopes.map .total)
      (fun value found => found = scopes.map fun scope => (scope, value scope))
      (results.countAll backend scopes state) := by
  induction scopes generalizing results state with
  | nil =>
    intro value same
    exact ⟨List.forall_mem_nil _, fun _ _ => (Except.ok.inj same).symm⟩
  | cons scope rest ih =>
    have first := count_settles backend state asked scope
    have question := question_count backend results state scope
    unfold countAll
    generalize results.count backend scope state = counted at first question ⊢
    obtain ⟨answer, next, after⟩ := counted
    cases answer with
    | error report => exact fun _ same => by cases same
    | ok found =>
      obtain ⟨known, tells⟩ := first found rfl
      have later := @ih next after (question ▸ asked)
      have grown := countAll_grows backend next after rest
      dsimp only
      generalize next.countAll backend rest after = rested at later grown ⊢
      obtain ⟨answer, last, final⟩ := rested
      cases answer with
      | error report => exact fun _ same => by cases same
      | ok counts =>
        intro value same
        obtain rfl := Except.ok.inj same
        obtain ⟨others, more⟩ := later counts rfl
        refine ⟨List.forall_mem_cons.2 ⟨?_, others⟩, fun final grows => ?_⟩
        · exact grown.knows (known _ List.mem_cons_self)
        · have here : found = final.told scope := tells final (grown.trans grows)
          have there : counts = rest.map fun scope => (scope, final.told scope) := more final grows
          dsimp only
          rw [List.map_cons, ← here, ← there]

/-- What is true of documents is what is told of them. -/
theorem Answer.Truthful.tells {question : Question} {documents : List StoredDocument} {call : Call}
    {answer : Answer} (truthful : answer.Truthful question documents call) :
    answer.Tells (question.number documents) call := by
  cases call <;> cases answer <;>
    first | exact truthful.elim | exact truthful | exact Or.inr truthful

theorem page_settles (asked : ¬ results.question.isBlank) (scope : Scope) (request : PageRequest) :
    Settles [if inWindow request then .page scope request else .total scope]
      (fun value shown => inWindow request ∨ shown.total = value scope)
      (results.page backend scope request state) := by
  by_cases reached : inWindow request
  · rw [if_pos reached, page_reached backend results state scope asked reached]
    intro shown same
    refine ⟨?_, fun _ _ => Or.inl reached⟩
    cases found : (results.answer backend scope request state).1 with
    | error report =>
      rw [found] at same
      cases same
    | ok answer => exact (answer_settles backend state scope request answer found).1
  · rw [if_neg reached, page, if_neg asked, if_neg reached]
    exact (count_settles backend state asked scope).map fun _ _ => Or.inr

theorem formattedCount_settles (asked : ¬ results.question.isBlank) (name : String) :
    Settles ((Scope.ofName? name).toList.map .total)
      (fun value found => found = (Scope.ofName? name).map fun scope => Text.grouped (value scope))
      (results.formattedCount backend name state) := by
  unfold formattedCount
  cases Scope.ofName? name with
  | none =>
    intro value same
    exact ⟨nofun, fun _ _ => (Except.ok.inj same).symm⟩
  | some scope =>
    refine (count_settles backend state asked scope).map ?_
    intro value found same
    rw [same, Option.map_some]

theorem markup_settles (asked : ¬ results.question.isBlank) (scope : Scope) :
    Settles (results.needs (.markup scope)) (fun _ _ => True)
      (results.markup backend scope state) := by
  have still {marked : Option (List (Nat × String))} :
      Settles [] (fun _ _ => True) (.ok marked, results, state) :=
    fun _ _ => ⟨nofun, fun _ _ => trivial⟩
  rw [needs, if_neg asked]
  unfold markup
  dsimp only
  cases scope.supportsHighlight with
  | false => exact still
  | true =>
    have answered := @answer_settles _ results backend state scope (results.shown scope)
    rw [Bool.true_and]
    unfold Results.shown at answered ⊢
    simp only [Bool.not_true, Bool.false_eq_true, if_false, asked]
    split
    next => exact answered.map fun _ _ => id
    next => exact still

/-- However a call ends, an answer says what is told from then on, and what it needs is known. -/
theorem call_settles (call : Call) :
    Settles (results.needs call) (fun value answer => answer.Tells value call)
      (results.call backend state call) := by
  by_cases blank : results.question.isBlank
  · obtain ⟨answer, same, truthful⟩ := call_blank [] backend blank state call
    unfold needs
    rw [same, if_pos blank]
    intro value equal
    obtain rfl := Except.ok.inj equal
    refine ⟨nofun, fun last grows => ?_⟩
    have nothing : last.told = results.question.number [] := by
      funext scope
      rw [told, grows.question, if_pos blank, Question.number_blank blank]
    exact nothing ▸ truthful.tells
  cases call with
  | page scope request =>
    rw [needs, if_neg blank]
    exact (page_settles backend state blank scope request).map fun _ _ => id
  | count scope =>
    rw [needs, if_neg blank]
    exact (count_settles backend state blank scope).map fun _ _ => id
  | counts scopes =>
    rw [needs, if_neg blank]
    exact (countAll_settles backend state blank scopes).map fun _ _ => id
  | formattedCount name =>
    rw [needs, if_neg blank]
    exact (formattedCount_settles backend state blank name).map fun _ _ => id
  | markup scope => exact (markup_settles backend state blank scope).map fun _ _ => id

end

/-! ### A whole session -/

section
variable (backend : Backend σ)

theorem agree_watched (question : Question) :
    Agree question (fun (left : σ × List Inquiry) right => left.1 = right)
      backend.watched backend := by
  constructor
  · rintro scope skip size ⟨state, log⟩ _ rfl
    exact ⟨rfl, rfl⟩
  · rintro scope ⟨state, log⟩ _ rfl
    exact ⟨rfl, rfl⟩

/-- To be watched makes no difference to what is known. -/
theorem knows_watched (results : Results) (state : σ) (call : Call) (need : Need) :
    (results.call backend.watched (state, []) call).2.1.Knows need ↔
      (results.call backend state call).2.1.Knows need := by
  have same : Alike (fun _ => False) results results :=
    ⟨rfl, fun _ => rfl, fun _ _ => rfl, fun _ _ => rfl⟩
  have alike : Alike (fun _ => False) (results.call backend.watched (state, []) call).2.1
      (results.call backend state call).2.1 :=
    ((agree_watched backend results.question).call same rfl fun _ _ _ => id).alike
  cases need with
  | page scope page => rw [Knows, alike.pages, Knows]
  | total scope => rw [Knows, alike.counts, Knows]

variable {backend} {now : Results × σ} {turns : List (Turn σ)}

theorem mem_transcript {entry : Entry} (member : entry ∈ transcript backend turns now) :
    ∃ past call, now.1.Grows past.1 ∧ entry = Results.entry backend past call := by
  induction turns generalizing now with
  | nil => cases member
  | cons turn rest ih =>
    cases turn with
    | become state => exact @ih (now.1, state) member
    | call call =>
      rcases List.mem_cons.1 member with here | later
      · exact ⟨now, call, .refl now.1, here⟩
      · obtain ⟨past, other, grows, same⟩ := ih later
        exact ⟨past, other, (call_grows backend now.1 now.2 call).trans grows, same⟩

/-- A blank query asks nothing, and another one asks for what its calls are made of. -/
theorem transcript_asks (linked : now.1.Linked) {entry : Entry}
    (member : entry ∈ transcript backend turns now) {inquiry : Inquiry}
    (sent : inquiry ∈ entry.inquiries) :
    ¬ now.1.question.isBlank ∧ (∃ need ∈ entry.needs, need.AskedBy now.1.question inquiry) ∧
      ∀ request answered, inquiry = .search request answered →
        request.skip + request.size ≤ resultWindow := by
  obtain ⟨past, call, grows, rfl⟩ := mem_transcript member
  have asks := call_asks backend (grows.linked linked) call past.2
  obtain ⟨need, needed, about⟩ := asks.asked inquiry sent
  rw [← grows.question]
  refine ⟨fun blank => ?_, ⟨need, needed, about⟩, ?_⟩
  · have nothing : past.1.needs call = [] := if_pos blank
    rw [nothing] at needed
    cases needed
  · rintro request answered rfl
    cases need with
    | total scope => exact about.elim
    | page scope page =>
      obtain rfl : request = past.1.question.request scope page.offset page.perPage := about
      exact of_decide_eq_true (needs_of_page needed).2

/-- What is covered by something known is not asked for any more. -/
theorem not_askedBy_of_knows (linked : now.1.Linked) {given need : Need}
    (knows : now.1.Knows given) (covers : given.Covers need) {entry : Entry}
    (member : entry ∈ transcript backend turns now) (needed : need ∈ entry.needs)
    {inquiry : Inquiry} (sent : inquiry ∈ entry.inquiries) :
    ¬ need.AskedBy now.1.question inquiry := by
  obtain ⟨past, call, grows, rfl⟩ := mem_transcript member
  intro asked
  have asks := call_asks backend (grows.linked linked) call past.2
  refine asks.fresh inquiry sent need needed (grows.question ▸ asked) ?_
  exact (grows.linked linked).covers (grows.knows knows) covers

theorem transcript_spares (linked : now.1.Linked) :
    ((transcript backend turns now).flatMap Entry.asked).Pairwise (Spares now.1.question) := by
  induction turns generalizing now with
  | nil => exact .nil
  | cons turn rest ih =>
    cases turn with
    | become state => exact @ih (now.1, state) linked
    | call call =>
      have grows := call_grows backend now.1 now.2 call
      have asks := call_asks backend linked call now.2
      rw [transcript, List.flatMap_cons, List.pairwise_append]
      refine ⟨asks.apart, grows.question ▸ ih (grows.linked linked), ?_⟩
      intro earlier before last after answered given first asked need member askedLast covers
      obtain ⟨inquiry, sent, rfl⟩ := List.mem_map.1 before
      obtain ⟨entry, later, inside⟩ := List.mem_flatMap.1 after
      obtain ⟨other, sentLater, rfl⟩ := List.mem_map.1 inside
      -- what was answered in this call is known when the later ones begin
      have known := (knows_watched backend now.1 now.2 call given).1
        (asks.learnt inquiry sent answered given first asked)
      exact not_askedBy_of_knows (grows.linked linked) known covers later member sentLater
        (grows.question.symm ▸ askedLast)

theorem transcript_settled (linked : now.1.Linked) :
    (transcript backend turns now).Pairwise fun earlier later =>
      (∃ answer, earlier.answer = .ok answer) → ∀ given ∈ earlier.needs, ∀ need ∈ later.needs,
        given.Covers need → ∀ inquiry ∈ later.inquiries, ¬ need.AskedBy now.1.question inquiry := by
  induction turns generalizing now with
  | nil => exact .nil
  | cons turn rest ih =>
    cases turn with
    | become state => exact @ih (now.1, state) linked
    | call call =>
      have grows := call_grows backend now.1 now.2 call
      refine .cons ?_ (grows.question ▸ ih (grows.linked linked))
      intro later member ⟨answer, answered⟩ given first need needed covers inquiry sent
      have known := (call_settles backend now.2 call answer answered).1 given first
      exact grows.question ▸
        not_askedBy_of_knows (grows.linked linked) known covers member needed sent

theorem transcript_told : ∃ last, now.1.Grows last ∧ ∀ entry ∈ transcript backend turns now,
    ∀ answer, entry.answer = .ok answer → answer.Tells last.told entry.call := by
  induction turns generalizing now with
  | nil => exact ⟨now.1, .refl now.1, nofun⟩
  | cons turn rest ih =>
    cases turn with
    | become state => exact @ih (now.1, state)
    | call call =>
      obtain ⟨last, grows, tells⟩ := @ih (now.1.call backend now.2 call).2
      refine ⟨last, (call_grows backend now.1 now.2 call).trans grows, ?_⟩
      refine List.forall_mem_cons.2 ⟨fun answer answered => ?_, tells⟩
      exact (call_settles backend now.2 call answer answered).2 last grows

end

/-- However the cluster changes between the calls on a query, every request asks for something that
its call is made of, within the window of results. Once an answer has come, nothing that it covers
is asked for again: a page is searched for until it is found, and the results of a scope are counted
until a count or a page has brought their number, which then stays. -/
theorem nothing_asked_twice (backend : Backend σ) (question : Question) (state : σ)
    (turns : List (Turn σ)) :
    let entries := transcript backend turns (ask question, state)
    (∀ entry ∈ entries, ∀ inquiry ∈ entry.inquiries,
        ∃ need ∈ entry.needs, need.AskedBy question inquiry) ∧
      (∀ entry ∈ entries, ∀ request answered, .search request answered ∈ entry.inquiries →
        request.skip + request.size ≤ resultWindow) ∧
      (question.isBlank → ∀ entry ∈ entries, entry.inquiries = []) ∧
      (entries.flatMap Entry.asked).Pairwise (Spares question) ∧
      (entries.Pairwise fun earlier later =>
        (∃ answer, earlier.answer = .ok answer) → ∀ given ∈ earlier.needs, ∀ need ∈ later.needs,
          given.Covers need → ∀ inquiry ∈ later.inquiries, ¬ need.AskedBy question inquiry) ∧
      ∃ value : Scope → Nat, ∀ entry ∈ entries, ∀ answer, entry.answer = .ok answer →
        answer.Tells value entry.call := by
  intro entries
  have linked : (ask question).Linked := fun _ _ knows => by cases knows
  have asks {entry : Entry} (member : entry ∈ entries) {inquiry : Inquiry}
      (sent : inquiry ∈ entry.inquiries) :=
    @transcript_asks _ backend (ask question, state) turns linked entry member inquiry sent
  obtain ⟨last, -, tells⟩ := @transcript_told _ backend (ask question, state) turns
  refine ⟨?_, ?_, ?_, @transcript_spares _ backend (ask question, state) turns linked,
    @transcript_settled _ backend (ask question, state) turns linked, last.told, tells⟩
  · exact fun entry member inquiry sent => (asks member sent).2.1
  · exact fun entry member request answered sent => (asks member sent).2.2 request answered rfl
  · intro blank entry member
    apply List.eq_nil_iff_forall_not_mem.2
    exact fun inquiry sent => (asks member sent).1 blank

private def awayThenHere : List (Turn MemoryCluster) :=
  [.call (.count .issues), .become .empty, .call (.counts [.issues, .issues]),
    .call (.page .issues (.of 1 20)), .call (.page .issues (.of 1 20))]

example :
    (transcript MemoryCluster.backend awayThenHere
      (ask ⟨"main", "red", ⟨.all, .everything⟩, ⟨none, none, none⟩, 20⟩,
        { MemoryCluster.empty with unavailable := true })).map
      (fun entry => entry.inquiries.map Inquiry.answered) = [[false], [true], [true], []] := by
  decide +kernel

end Results

end SearchRelay
