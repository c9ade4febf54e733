import SearchRelay.Proofs.Query.Filter
import SearchRelay.Proofs.Search.Session

/-!
What a session is told is true, or it is told of a failure. Totals are those of the documents that
match, whichever call asks for them, and a call fails only for want of an answer that no earlier
call has brought.
-/

namespace SearchRelay

namespace Question

/-- A document is a result of the question in a scope. -/
def finds (question : Question) (scope : Scope) (document : StoredDocument) : Bool :=
  document.index == question.index && (question.scopeFilter scope).accepts document.source

def number (question : Question) (documents : List StoredDocument) (scope : Scope) : Nat :=
  (documents.filter (question.finds scope)).length

end Question

namespace Question

variable {question : Question} {documents : List StoredDocument}

theorem number_blank (blank : question.isBlank) (scope : Scope) :
    question.number documents scope = 0 := by
  apply List.length_eq_zero_iff.2
  apply List.filter_eq_nil_iff.2
  intro document _ accepted
  have all := Filter.acceptsAll_iff.1 (Bool.and_eq_true_iff.1 accepted).2
  have words := all (.words scope.textFields
    (String.ofList (Text.trim question.query.toList))) (by simp)
  simp [Filter.accepts, queryWords_blank blank] at words

theorem blob_of_finds {scope : Scope} (file : scope.isBlob) {document : StoredDocument}
    (found : question.finds scope document) : (document.source.lookup "blob").isSome := by
  have all := Filter.acceptsAll_iff.1 (Bool.and_eq_true_iff.1 found).2
  obtain ⟨field, member, known⟩ := Filter.exists_field (all (.words scope.textFields
    (String.ofList (Text.trim question.query.toList))) (by simp))
  refine Json.lookup_blob document.source ?_ known
  cases scope <;> simp_all [Scope.isBlob, Scope.textFields]

end Question

namespace MemoryCluster

variable {cluster : MemoryCluster} {question : Question}

theorem mem_matching {scope : Scope} {skip size : Nat} {document : StoredDocument}
    (member : document ∈ cluster.matching (question.request scope skip size)) :
    question.finds scope document := by
  unfold matching at member
  split at member
  next => exact (List.mem_filter.1 member).2
  next => exact (List.mem_filter.1 (List.mem_mergeSort.1 member)).2

theorem length_matching (scope : Scope) (skip size : Nat) :
    (cluster.matching (question.request scope skip size)).length =
      question.number cluster.documents scope := by
  unfold matching
  split
  next => rfl
  next => exact List.length_mergeSort _

end MemoryCluster

namespace ResultItem

theorem ofHits_found {question : Question} {scope : Scope} (request : SearchRequest)
    {documents : List StoredDocument} (found : ∀ document ∈ documents, question.finds scope document) :
    ∃ items, ofHits scope (documents.map (MemoryCluster.toHit request)) = .ok items := by
  induction documents with
  | nil => exact ⟨[], rfl⟩
  | cons document rest ih =>
    obtain ⟨first, others⟩ := List.forall_mem_cons.1 found
    obtain ⟨items, shown⟩ := ih others
    have item : ∃ item, ofHit scope (MemoryCluster.toHit request document) = .ok item := by
      unfold ofHit
      split
      next file =>
        obtain ⟨blob, known⟩ := Option.isSome_iff_exists.1 (Question.blob_of_finds file first)
        rw [Snippet.ofHit]
        simp only [MemoryCluster.toHit, known]
        exact ⟨_, rfl⟩
      next => exact ⟨_, rfl⟩
    obtain ⟨item, first⟩ := item
    refine ⟨item :: items, ?_⟩
    rw [List.map_cons, ofHits, first]
    simp only [shown]

end ResultItem

namespace Results

/-! ### What a call has to know -/

def Knows (results : Results) : Need → Prop
  | .page scope request => (results.knownPage? scope request).isSome
  | .total scope => (results.knownCount? scope).isSome

/-- A page brings the total of its scope with it. -/
def Need.Covers : Need → Need → Prop
  | .page scope request, .page other wanted => scope = other ∧ request = wanted
  | .page scope _, .total other => scope = other
  | .total scope, .total other => scope = other
  | .total _, .page _ _ => False

/-- Whoever knows a page of a scope knows the total of the scope. -/
def Linked (results : Results) : Prop :=
  ∀ scope page, results.Knows (.page scope page) → results.Knows (.total scope)

theorem Linked.covers {results : Results} (linked : results.Linked) {given need : Need}
    (knows : results.Knows given) (covers : given.Covers need) : results.Knows need := by
  cases given with
  | total scope =>
    cases need with
    | total other => exact (show scope = other from covers) ▸ knows
    | page other wanted => exact covers.elim
  | page scope page =>
    cases need with
    | total other => exact (show scope = other from covers) ▸ linked scope page knows
    | page other wanted =>
      obtain ⟨rfl, rfl⟩ := covers
      exact knows

/-- The totals in an answer to a call are the numbers of the documents that match. -/
def Answer.Truthful (question : Question) (documents : List StoredDocument) :
    Call → Answer → Prop
  | .page scope _, .page shown => shown.total = question.number documents scope
  | .count scope, .count found => found = question.number documents scope
  | .counts scopes, .counts found =>
    found = scopes.map fun scope => (scope, question.number documents scope)
  | .formattedCount name, .formattedCount found =>
    found = (Scope.ofName? name).map fun scope =>
      Text.grouped (question.number documents scope)
  | .markup _, .markup _ => True
  | _, _ => False

/-! ### One call -/

/-- A remembered page has the right total and can be shown. -/
structure Shows (question : Question) (documents : List StoredDocument) (scope : Scope)
    (answer : SearchAnswer) : Prop where
  total : answer.total = question.number documents scope
  items : ∃ items, ResultItem.ofHits scope answer.hits = .ok items

/-- Everything that is remembered is true of the documents. -/
structure Sound (documents : List StoredDocument) (results : Results) : Prop where
  counts : ∀ scope count, results.knownCount? scope = some count →
    count = results.question.number documents scope
  pages : ∀ scope page answer, results.knownPage? scope page = some answer →
    Shows results.question documents scope answer ∧ results.Knows (.total scope)

/-- How a call ends that needs some answers: the documents are the same, nothing is forgotten and
everything remembered is true. While the cluster is gone nothing is learnt. A call that answers
knows what it needs, and one that fails is in want of something. -/
structure Ends (needs : List Need) (right : α → Prop) (before : Results × MemoryCluster)
    (after : Outcome α × Results × MemoryCluster) : Prop where
  documents : after.2.2.documents = before.2.documents
  unavailable : after.2.2.unavailable = before.2.unavailable
  sound : after.2.1.Sound before.2.documents
  keeps : ∀ need, before.1.Knows need → after.2.1.Knows need
  quiet : before.2.unavailable →
    after.2.1.counts = before.1.counts ∧ after.2.1.pages = before.1.pages
  answered : ∀ value, after.1 = .ok value → right value ∧ ∀ need ∈ needs, after.2.1.Knows need
  failed : ∀ report, after.1 = .error report →
    before.2.unavailable ∧ ∃ need ∈ needs, ¬ before.1.Knows need

variable {results : Results} {cluster : MemoryCluster} {documents : List StoredDocument}

theorem Sound.rememberCount (sound : results.Sound documents) {scope : Scope} {count : Nat}
    (right : count = results.question.number documents scope) :
    (results.rememberCount scope count).Sound documents := by
  constructor
  · intro other known same
    rw [question_rememberCount]
    rw [knownCount?_rememberCount] at same
    split at same
    next equal =>
      subst equal
      cases old : results.knownCount? scope with
      | none =>
        rw [old, Option.getD_none] at same
        exact (Option.some.inj same).symm.trans right
      | some before =>
        rw [old, Option.getD_some] at same
        exact sound.counts scope known (old.trans same)
    next => exact sound.counts other known same
  · intro other page answer same
    rw [knownPage?_rememberCount] at same
    obtain ⟨shows, known⟩ := sound.pages other page answer same
    rw [question_rememberCount]
    refine ⟨shows, ?_⟩
    simp only [Knows, knownCount?_rememberCount] at known ⊢
    split
    next => rfl
    next => exact known

theorem Knows.rememberCount {need : Need} (knows : results.Knows need) (scope : Scope)
    (count : Nat) : (results.rememberCount scope count).Knows need := by
  cases need with
  | page other request => simpa only [Knows, knownPage?_rememberCount] using knows
  | total other =>
    simp only [Knows, knownCount?_rememberCount] at knows ⊢
    split
    next => rfl
    next => exact knows

theorem knows_rememberCount (scope : Scope) (count : Nat) :
    (results.rememberCount scope count).Knows (.total scope) := by
  simp [Knows, knownCount?_rememberCount]

theorem Sound.rememberPage (sound : results.Sound documents) {scope : Scope} {answer : SearchAnswer}
    (shows : Shows results.question documents scope answer) (page : PageRequest) :
    (results.rememberPage scope page answer).Sound documents := by
  have counted := sound.rememberCount shows.total
  have question : (results.rememberPage scope page answer).question = results.question :=
    question_rememberCount results scope answer.total
  refine ⟨counted.counts, ?_⟩
  intro other request known same
  rw [knownPage?_rememberPage] at same
  rw [question]
  split at same
  next equal =>
    obtain ⟨rfl, rfl⟩ := equal
    obtain rfl := Option.some.inj same
    exact ⟨shows, knows_rememberCount scope answer.total⟩
  next =>
    obtain ⟨old, total⟩ := sound.pages other request known same
    exact ⟨old, total.rememberCount scope answer.total⟩

theorem Knows.rememberPage {need : Need} (knows : results.Knows need) (scope : Scope)
    (page : PageRequest) (answer : SearchAnswer) :
    (results.rememberPage scope page answer).Knows need := by
  cases need with
  | total other => exact Knows.rememberCount knows scope answer.total
  | page other request =>
    simp only [Knows, knownPage?_rememberPage] at knows ⊢
    split
    next => rfl
    next => exact knows

theorem knows_rememberPage (scope : Scope) (page : PageRequest) (answer : SearchAnswer) :
    (results.rememberPage scope page answer).Knows (.page scope page) := by
  simp [Knows, knownPage?_rememberPage]

/-- What the cluster finds for a page has the right total and can be shown. -/
theorem shows_search {question : Question} {scope : Scope} {skip size : Nat} {found : SearchAnswer}
    (answered : (cluster.search (question.request scope skip size)).1 = .ok found) :
    Shows question cluster.documents scope found := by
  unfold MemoryCluster.search at answered
  split at answered
  next => cases answered
  next =>
    obtain rfl := Except.ok.inj answered
    refine ⟨MemoryCluster.length_matching scope skip size, ?_⟩
    apply ResultItem.ofHits_found
    intro document member
    exact MemoryCluster.mem_matching (List.mem_of_mem_drop (List.mem_of_mem_take member))

theorem answer_ends (sound : results.Sound cluster.documents) (scope : Scope)
    (page : PageRequest) :
    Ends [.page scope page] (Shows results.question cluster.documents scope) (results, cluster)
      (results.answer MemoryCluster.backend scope page cluster) := by
  let asked : Results := { results with last := (scope, page) :: results.last }
  have soundAsked : asked.Sound cluster.documents := ⟨sound.counts, sound.pages⟩
  have keeps (need : Need) (knows : results.Knows need) : asked.Knows need := by
    cases need <;> exact knows
  unfold answer
  dsimp only
  cases known : asked.knownPage? scope page with
  | some found =>
    have same : results.knownPage? scope page = some found := known
    refine ⟨rfl, rfl, soundAsked, keeps, fun _ => ⟨rfl, rfl⟩, ?_, fun _ same => by cases same⟩
    intro value equal
    obtain rfl := Except.ok.inj equal
    refine ⟨(sound.pages scope page found same).1, List.forall_mem_singleton.2 ?_⟩
    exact Option.isSome_iff_exists.2 ⟨found, same⟩
  | none =>
    have unknown : ¬ results.Knows (.page scope page) := by
      intro knows
      have same : results.knownPage? scope page = none := known
      simp [Knows, same] at knows
    have shows {found : SearchAnswer} := @shows_search cluster results.question scope page.offset
      page.perPage found
    simp only [MemoryCluster.backend] at shows ⊢
    unfold MemoryCluster.search at shows ⊢
    by_cases away : cluster.unavailable
    · rw [if_pos away]
      exact ⟨rfl, rfl, soundAsked, keeps, fun _ => ⟨rfl, rfl⟩, (fun _ same => by cases same),
        fun _ _ => ⟨away, _, List.mem_singleton_self _, unknown⟩⟩
    · rw [if_neg away] at shows ⊢
      refine ⟨rfl, rfl, soundAsked.rememberPage (shows rfl) page, ?_, fun gone => absurd gone away,
        ?_, fun _ same => by cases same⟩
      · exact fun need knows => (keeps need knows).rememberPage scope page _
      · intro value equal
        obtain rfl := Except.ok.inj equal
        exact ⟨shows rfl, List.forall_mem_singleton.2 (knows_rememberPage scope page _)⟩

theorem count_ends (asked : ¬ results.question.isBlank) (sound : results.Sound cluster.documents)
    (scope : Scope) :
    Ends [.total scope] (· = results.question.number cluster.documents scope) (results, cluster)
      (results.count MemoryCluster.backend scope cluster) := by
  unfold count
  rw [if_neg asked]
  cases known : results.knownCount? scope with
  | some found =>
    refine ⟨rfl, rfl, sound, fun _ => id, fun _ => ⟨rfl, rfl⟩, ?_, fun _ same => by cases same⟩
    intro value equal
    obtain rfl := Except.ok.inj equal
    refine ⟨sound.counts scope found known, List.forall_mem_singleton.2 ?_⟩
    exact Option.isSome_iff_exists.2 ⟨found, known⟩
  | none =>
    have unknown : ¬ results.Knows (.total scope) := by simp [Knows, known]
    have number : (cluster.matching (results.question.request scope 0 0)).length =
        results.question.number cluster.documents scope := MemoryCluster.length_matching scope 0 0
    simp only [MemoryCluster.backend, MemoryCluster.count, number]
    by_cases away : cluster.unavailable
    · rw [if_pos away]
      exact ⟨rfl, rfl, sound, fun _ => id, fun _ => ⟨rfl, rfl⟩, (fun _ same => by cases same),
        fun _ _ => ⟨away, _, List.mem_singleton_self _, unknown⟩⟩
    · rw [if_neg away]
      refine ⟨rfl, rfl, sound.rememberCount rfl, ?_, fun gone => absurd gone away, ?_,
        fun _ same => by cases same⟩
      · exact fun need knows => knows.rememberCount scope _
      · intro value equal
        obtain rfl := Except.ok.inj equal
        exact ⟨rfl, List.forall_mem_singleton.2 (knows_rememberCount scope _)⟩

theorem Ends.map {needs : List Need} {right : α → Prop} {before : Results × MemoryCluster}
    {after : Outcome α × Results × MemoryCluster} (ends : Ends needs right before after)
    {f : α → β} {other : β → Prop} (kept : ∀ value, right value → other (f value)) :
    Ends needs other before (after.1.map f, after.2) := by
  refine ⟨ends.documents, ends.unavailable, ends.sound, ends.keeps, ends.quiet, ?_, ?_⟩
  · intro value same
    cases answer : after.1 with
    | error report =>
      rw [answer] at same
      cases same
    | ok found =>
      rw [answer] at same
      obtain rfl := Except.ok.inj same
      exact ⟨kept found (ends.answered found answer).1, (ends.answered found answer).2⟩
  · intro report same
    cases answer : after.1 with
    | error why => exact ends.failed why answer
    | ok found =>
      rw [answer] at same
      cases same

theorem page_ends (asked : ¬ results.question.isBlank) (sound : results.Sound cluster.documents)
    (scope : Scope) (request : PageRequest) :
    Ends [if inWindow request then .page scope request else .total scope]
      (fun shown => shown.total = results.question.number cluster.documents scope)
      (results, cluster) (results.page MemoryCluster.backend scope request cluster) := by
  by_cases reached : inWindow request
  · rw [if_pos reached, page_reached MemoryCluster.backend results cluster scope asked reached]
    have ends := answer_ends sound scope request
    refine ⟨ends.documents, ends.unavailable, ends.sound, ends.keeps, ends.quiet, ?_, ?_⟩
    · intro shown same
      cases answer : (results.answer MemoryCluster.backend scope request cluster).1 with
      | error report =>
        rw [answer] at same
        cases same
      | ok found =>
        obtain ⟨⟨total, items, parsed⟩, known⟩ := ends.answered found answer
        rw [answer, pageOf, parsed] at same
        obtain rfl := Except.ok.inj same
        exact ⟨total, known⟩
    · intro report same
      cases answer : (results.answer MemoryCluster.backend scope request cluster).1 with
      | error why => exact ends.failed why answer
      | ok found =>
        obtain ⟨⟨_, items, parsed⟩, _⟩ := ends.answered found answer
        rw [answer, pageOf, parsed] at same
        cases same
  · rw [if_neg reached, page, if_neg asked, if_neg reached]
    exact (count_ends asked sound scope).map fun _ => id

theorem countAll_ends (asked : ¬ results.question.isBlank) (sound : results.Sound cluster.documents)
    (scopes : List Scope) :
    Ends (scopes.map .total)
      (· = scopes.map fun scope => (scope, results.question.number cluster.documents scope))
      (results, cluster) (results.countAll MemoryCluster.backend scopes cluster) := by
  induction scopes generalizing results cluster with
  | nil =>
    refine ⟨rfl, rfl, sound, fun _ => id, fun _ => ⟨rfl, rfl⟩, ?_, fun _ same => by cases same⟩
    intro value same
    exact ⟨(Except.ok.inj same).symm, fun _ member => by cases member⟩
  | cons scope rest ih =>
    have first := count_ends asked sound scope
    have question := question_count MemoryCluster.backend results cluster scope
    unfold countAll
    generalize results.count MemoryCluster.backend scope cluster = counted at first question ⊢
    obtain ⟨answer, next, state⟩ := counted
    cases answer with
    | error report =>
      refine ⟨first.documents, first.unavailable, first.sound, first.keeps, first.quiet,
        (fun _ same => by cases same), ?_⟩
      intro why _
      obtain ⟨away, need, member, unknown⟩ := first.failed report rfl
      exact ⟨away, need, List.mem_cons.2 (Or.inl (List.mem_singleton.1 member)), unknown⟩
    | ok found =>
      obtain ⟨right, known⟩ := first.answered found rfl
      have documents : state.documents = cluster.documents := first.documents
      have unavailable : state.unavailable = cluster.unavailable := first.unavailable
      have later := @ih next state (question ▸ asked) (documents ▸ first.sound)
      dsimp only
      generalize next.countAll MemoryCluster.backend rest state = rested at later ⊢
      obtain ⟨answer, last, final⟩ := rested
      have quiet (away : cluster.unavailable) :
          last.counts = results.counts ∧ last.pages = results.pages :=
        have before := first.quiet away
        have after := later.quiet (unavailable.trans away)
        ⟨after.1.trans before.1, after.2.trans before.2⟩
      have keeps (need : Need) (knows : results.Knows need) : last.Knows need :=
        later.keeps need (first.keeps need knows)
      cases answer with
      | error report =>
        refine ⟨later.documents.trans documents, later.unavailable.trans unavailable,
          documents ▸ later.sound, keeps, quiet, (fun _ same => by cases same), ?_⟩
        intro why _
        obtain ⟨away, need, member, unknown⟩ := later.failed report rfl
        exact ⟨unavailable.symm.trans away, need, List.mem_cons_of_mem _ member,
          fun knows => unknown (first.keeps need knows)⟩
      | ok counts =>
        refine ⟨later.documents.trans documents, later.unavailable.trans unavailable,
          documents ▸ later.sound, keeps, quiet, ?_, fun _ same => by cases same⟩
        intro value same
        obtain rfl := Except.ok.inj same
        obtain ⟨others, knows⟩ := later.answered counts rfl
        rw [documents, question] at others
        refine ⟨by rw [List.map_cons, right, others], List.forall_mem_cons.2 ⟨?_, knows⟩⟩
        exact later.keeps _ (known _ (List.mem_singleton_self _))

/-- A blank query is answered without the cluster, by what is true of it. -/
theorem call_blank (documents : List StoredDocument) (backend : Backend σ)
    (blank : results.question.isBlank) (state : σ) (call : Call) :
    ∃ answer, results.call backend state call = (.ok answer, results, state) ∧
      answer.Truthful results.question documents call := by
  have numbers (scope : Scope) : results.question.number documents scope = 0 :=
    Question.number_blank blank scope
  cases call with
  | page scope request =>
    refine ⟨.page ⟨[], request, 0⟩, ?_, (numbers scope).symm⟩
    rw [Results.call, page, if_pos blank]
    rfl
  | count scope =>
    refine ⟨.count 0, ?_, (numbers scope).symm⟩
    rw [Results.call, count_blank backend blank]
    rfl
  | counts scopes =>
    refine ⟨.counts (scopes.map fun scope => (scope, 0)), ?_, ?_⟩
    · rw [Results.call, countAll_blank backend blank]
      rfl
    · simp only [Answer.Truthful, numbers]
  | formattedCount name =>
    refine ⟨.formattedCount ((Scope.ofName? name).map fun _ => Text.grouped 0), ?_, ?_⟩
    · rw [Results.call, formattedCount]
      cases Scope.ofName? name with
      | none => rfl
      | some scope =>
        simp only [count_blank backend blank]
        rfl
    · simp only [Answer.Truthful, numbers]
  | markup scope =>
    refine ⟨.markup (if scope.supportsHighlight then some [] else none), ?_, trivial⟩
    rw [Results.call, markup]
    cases scope.supportsHighlight with
    | false => rfl
    | true =>
      simp only [blank]
      rfl

theorem markup_ends (asked : ¬ results.question.isBlank) (sound : results.Sound cluster.documents)
    (scope : Scope) :
    Ends (results.needs (.markup scope)) (fun _ => True) (results, cluster)
      (results.markup MemoryCluster.backend scope cluster) := by
  have still {marked : Option (List (Nat × String))} :
      Ends [] (fun _ => True) (results, cluster) (.ok marked, results, cluster) :=
    ⟨rfl, rfl, sound, fun _ => id, fun _ => ⟨rfl, rfl⟩,
      fun _ _ => ⟨trivial, fun _ member => by cases member⟩,
      fun _ same => by cases same⟩
  rw [needs, if_neg asked]
  unfold markup
  dsimp only
  cases scope.supportsHighlight with
  | false => exact still
  | true =>
    have ends := answer_ends sound scope (results.shown scope)
    rw [Bool.true_and]
    unfold Results.shown at ends ⊢
    simp only [Bool.not_true, Bool.false_eq_true, if_false, asked]
    split
    next => exact ends.map fun _ _ => trivial
    next => exact still

theorem formattedCount_ends (asked : ¬ results.question.isBlank)
    (sound : results.Sound cluster.documents) (name : String) :
    Ends ((Scope.ofName? name).toList.map .total)
      (· = (Scope.ofName? name).map fun scope =>
        Text.grouped (results.question.number cluster.documents scope))
      (results, cluster) (results.formattedCount MemoryCluster.backend name cluster) := by
  unfold formattedCount
  cases Scope.ofName? name with
  | none =>
    refine ⟨rfl, rfl, sound, fun _ => id, fun _ => ⟨rfl, rfl⟩, ?_, fun _ same => by cases same⟩
    intro value same
    exact ⟨(Except.ok.inj same).symm, fun _ member => by cases member⟩
  | some scope =>
    refine (count_ends asked sound scope).map ?_
    intro found right
    rw [right, Option.map_some]

/-- However a call ends, its answer is true, and only what it needs can be missing. -/
theorem call_ends (sound : results.Sound cluster.documents) (call : Call) :
    Ends (results.needs call) (Answer.Truthful results.question cluster.documents call)
      (results, cluster) (results.call MemoryCluster.backend cluster call) := by
  by_cases blank : results.question.isBlank
  · obtain ⟨answer, same, truthful⟩ :=
      call_blank cluster.documents MemoryCluster.backend blank cluster call
    unfold needs
    rw [same, if_pos blank]
    refine ⟨rfl, rfl, sound, fun _ => id, fun _ => ⟨rfl, rfl⟩, ?_, fun _ same => by cases same⟩
    intro value equal
    exact ⟨Except.ok.inj equal ▸ truthful, fun _ member => by cases member⟩
  cases call with
  | page scope request =>
    rw [needs, if_neg blank]
    exact (page_ends blank sound scope request).map fun _ => id
  | count scope =>
    rw [needs, if_neg blank]
    exact (count_ends blank sound scope).map fun _ => id
  | counts scopes =>
    rw [needs, if_neg blank]
    exact (countAll_ends blank sound scopes).map fun _ => id
  | formattedCount name =>
    rw [needs, if_neg blank]
    exact (formattedCount_ends blank sound name).map fun _ => id
  | markup scope => exact (markup_ends blank sound scope).map fun _ _ => trivial

/-! ### The page that markup is shown for -/

theorem shown_answer (results : Results) (backend : Backend σ) (state : σ)
    (scope other : Scope) (page : PageRequest) :
    (results.answer backend scope page state).2.1.shown other =
      if scope = other then page else results.shown other := by
  have asked : Results.shown { results with last := (scope, page) :: results.last } other =
      if scope = other then page else results.shown other := by
    by_cases equal : scope = other
    · simp [shown, lastPage?, equal]
    · simp [shown, lastPage?, equal]
  obtain ⟨_, _, done⟩ | ⟨_, ⟨_, _, done⟩ | ⟨found, _, done⟩⟩ :=
    answer_cases backend results state scope page
  · exact done ▸ asked
  · exact done ▸ asked
  · rw [done]
    exact (shown_rememberCount _ scope other found.total).trans asked

theorem shown_count (results : Results) (backend : Backend σ) (state : σ)
    (scope other : Scope) :
    (results.count backend scope state).2.1.shown other = results.shown other := by
  by_cases blank : results.question.isBlank
  · rw [count_blank backend blank]
  obtain ⟨_, _, done⟩ | ⟨_, ⟨_, _, done⟩ | ⟨found, _, done⟩⟩ :=
    count_cases backend results state scope blank
  · rw [done]
  · rw [done]
  · rw [done]
    exact shown_rememberCount results scope other found

theorem shown_countAll (results : Results) (backend : Backend σ) (state : σ)
    (scopes : List Scope) (other : Scope) :
    (results.countAll backend scopes state).2.1.shown other = results.shown other := by
  apply countAll_keeps backend (fun now => now.1.shown other = results.shown other)
  · intro now after scope _ same
    exact (shown_count now backend after scope other).trans same
  · rfl

/-- Only a page that the backend can reach changes which page markup is shown for. -/
theorem shown_call (results : Results) (backend : Backend σ) (state : σ) (call : Call)
    (other : Scope)
    (elsewhere : ∀ request, call = .page other request → ¬ inWindow request) :
    (results.call backend state call).2.1.shown other = results.shown other := by
  cases call with
  | count scope => exact shown_count results backend state scope other
  | counts scopes => exact shown_countAll results backend state scopes other
  | page scope request =>
    unfold Results.call Results.page
    dsimp only
    split
    next => rfl
    split
    next reached =>
      refine (shown_answer results backend state scope other request).trans (if_neg ?_)
      rintro rfl
      exact elsewhere request rfl reached
    next => exact shown_count results backend state scope other
  | formattedCount name =>
    unfold Results.call Results.formattedCount
    dsimp only
    split
    next => rfl
    next scope _ => exact shown_count results backend state scope other
  | markup scope =>
    have asked := shown_answer results backend state scope other (results.shown scope)
    have same : (if scope = other then results.shown scope else results.shown other) =
        results.shown other := by
      split
      next equal => rw [equal]
      next => rfl
    rw [same] at asked
    unfold Results.call Results.markup
    dsimp only
    split
    next => rfl
    split
    next => rfl
    split
    next => exact asked
    next => rfl

/-! ### A whole session -/

theorem run_append (before after : List Event) (now : Results × MemoryCluster) :
    (run (before ++ after) now).2 = (run after (run before now).2).2 := by
  induction before generalizing now with
  | nil => rfl
  | cons first rest ih => exact ih (event now first).2

/-- What a session leaves of what was there before it. -/
structure Continues (before after : Results × MemoryCluster) : Prop where
  question : after.1.question = before.1.question
  documents : after.2.documents = before.2.documents
  sound : after.1.Sound before.2.documents
  keeps : ∀ need, before.1.Knows need → after.1.Knows need

theorem continues_event {now : Results × MemoryCluster} (sound : now.1.Sound now.2.documents)
    (first : Event) : Continues now (event now first).2 := by
  cases first with
  | switch away => exact ⟨rfl, rfl, sound, fun _ => id⟩
  | call call =>
    have ends := call_ends sound call
    exact ⟨question_call MemoryCluster.backend now.1 now.2 call, ends.documents, ends.sound,
      ends.keeps⟩

theorem continues_run {now : Results × MemoryCluster} (sound : now.1.Sound now.2.documents)
    (events : List Event) : Continues now (run events now).2 := by
  induction events generalizing now with
  | nil => exact ⟨rfl, rfl, sound, fun _ => id⟩
  | cons first rest ih =>
    have step := continues_event sound first
    have later := ih (step.documents ▸ step.sound)
    exact ⟨later.question.trans step.question, later.documents.trans step.documents,
      step.documents ▸ later.sound, fun need knows => later.keeps need (step.keeps need knows)⟩

theorem sound_ask (question : Question) (documents : List StoredDocument) :
    (ask question).Sound documents := ⟨nofun, nofun⟩

/-- An earlier call of a session was answered, and what it was made of covers a need. -/
def Fetched (question : Question) (cluster : MemoryCluster) (before : List Event) (need : Need) :
    Prop :=
  ∃ earlier call rest, before = earlier ++ .call call :: rest ∧
    let now := (run earlier (ask question, cluster)).2
    (∃ answer, (now.1.call MemoryCluster.backend now.2 call).1 = .ok answer) ∧
      ∃ given ∈ now.1.needs call, given.Covers need

theorem Sound.linked (sound : results.Sound documents) : results.Linked := by
  intro scope page knows
  obtain ⟨answer, known⟩ := Option.isSome_iff_exists.1 knows
  exact (sound.pages scope page answer known).2

theorem Fetched.knows {question : Question} {before : List Event} {need : Need}
    (fetched : Fetched question cluster before need) :
    (run before (ask question, cluster)).2.1.Knows need := by
  obtain ⟨earlier, call, rest, rfl, ⟨answer, answered⟩, given, member, covers⟩ := fetched
  have first : Continues (ask question, cluster) (run earlier (ask question, cluster)).2 :=
    continues_run (sound_ask question cluster.documents) earlier
  rw [run_append]
  generalize (run earlier (ask question, cluster)).2 = now at *
  have ends := call_ends (first.documents ▸ first.sound) call
  have later := continues_run (ends.documents ▸ ends.sound) rest
  -- the answered call knew what it needed, and nothing is forgotten after it
  have known := (ends.answered answer answered).2 given member
  exact later.keeps need (ends.sound.linked.covers known covers)

/-- Requests are answered by the documents alone, however often others were asked before. -/
theorem agree_of_documents (question : Question) :
    Agree question (fun left right => left.unavailable = right.unavailable ∧
      left.documents = right.documents) MemoryCluster.backend MemoryCluster.backend := by
  apply agree_of_cores Eq
  intro left right same scope skip size
  unfold MemoryCluster.matching
  rw [same]

/-- A call that fails leaves no trace but the page that markup is shown for, which it may have been
about. -/
theorem run_after_failure {now : Results × MemoryCluster} (sound : now.1.Sound now.2.documents)
    {call : Call} {report : Report}
    (failed : (now.1.call MemoryCluster.backend now.2 call).1 = .error report)
    {later : List Event}
    (forgets : Forgets (fun scope => ∃ request, call = .page scope request ∧ inWindow request) later) :
    (run later (now.1.call MemoryCluster.backend now.2 call).2).1 = (run later now).1 := by
  have ends := call_ends sound call
  obtain ⟨counts, pages⟩ := ends.quiet (ends.failed report failed).1
  have alike : Alike (fun scope => ∃ request, call = .page scope request ∧ inWindow request)
      (now.1.call MemoryCluster.backend now.2 call).2.1 now.1 := by
    refine ⟨question_call MemoryCluster.backend now.1 now.2 call, ?_, ?_, ?_⟩
    · intro scope
      rw [knownCount?, counts, knownCount?]
    · intro scope page
      rw [knownPage?, pages, knownPage?]
    · intro scope elsewhere
      apply shown_call
      exact fun request same reached => elsewhere ⟨request, same, reached⟩
  exact (agree_of_documents now.1.question).run (fun away near => ⟨rfl, near.2⟩) alike
    ⟨ends.unavailable, ends.documents⟩ fun _ => forgets

/-- At every moment of a session a call tells the truth or fails. It fails only when the cluster is
gone and something that it needs was never fetched, and never for a blank query. Later calls go as
if it had not been made. Only the page that it was about stays the last one of its scope, and is
the one that markup is shown for until another takes its place. -/
theorem session_truthful (question : Question) (cluster : MemoryCluster) (before : List Event)
    (call : Call) :
    let now := (run before (ask question, cluster)).2
    let ended := now.1.call MemoryCluster.backend now.2 call
    (∀ answer, ended.1 = .ok answer → answer.Truthful question cluster.documents call) ∧
      ∀ report, ended.1 = .error report →
        ¬ question.isBlank ∧ now.2.unavailable ∧
        (∃ need ∈ now.1.needs call, ¬ Fetched question cluster before need) ∧
        ∀ later,
          Forgets (fun scope => ∃ request, call = .page scope request ∧ inWindow request) later →
          (run later ended.2).1 = (run later now).1 := by
  intro now ended
  have first : Continues (ask question, cluster) now :=
    continues_run (sound_ask question cluster.documents) before
  have sound : now.1.Sound now.2.documents := first.documents ▸ first.sound
  have ends := call_ends sound call
  have same : now.1.question = question := first.question
  refine ⟨?_, ?_⟩
  · intro answer answered
    have truthful := (ends.answered answer answered).1
    rwa [same, first.documents] at truthful
  · intro report failed
    obtain ⟨away, need, member, unknown⟩ := ends.failed report failed
    refine ⟨?_, away, ⟨need, member, fun fetched => unknown fetched.knows⟩, ?_⟩
    · intro blank
      unfold needs at member
      rw [if_pos (same ▸ blank)] at member
      exact absurd member List.not_mem_nil
    · exact fun later forgets => run_after_failure sound failed forgets

private def redIssue (id : Nat) (searchId title : String) : StoredDocument :=
  ⟨"main", searchId, none,
    .obj [("id", .ofNat id), ("title", .str title), ("type", .str "issue")]⟩

private def redIssuesGone : MemoryCluster :=
  { MemoryCluster.empty with
    documents := [redIssue 1 "issue_1" "red door", redIssue 2 "issue_2" "red key"]
    unavailable := true }

private def askRed : Results :=
  ask ⟨"main", "red", ⟨.all, .everything⟩, ⟨none, none, none⟩, 20⟩

private def markedIds (answers : List (Outcome Answer)) : List (List Nat) :=
  answers.map fun answer =>
    match answer with
    | .ok (.markup (some found)) => found.map Prod.fst
    | _ => []

/-- A failed call for the second page is seen afterwards: markup is shown for that page. Without
the call it would have been shown for the first one. -/
theorem failed_page_moves_markup :
    let ended := askRed.call MemoryCluster.backend redIssuesGone (.page .issues ⟨2, 1⟩)
    let later := [Event.switch false, .call (.markup .issues)]
    ended.1.isOk = false ∧ (run later ended.2).1 ≠ (run later (askRed, redIssuesGone)).1 := by
  intro ended later
  have failed : ended.1.isOk = false := by decide +kernel
  have moved : markedIds (run later ended.2).1 = [[2]] := by decide +kernel
  have first : markedIds (run later (askRed, redIssuesGone)).1 = [[1, 2]] := by decide +kernel
  refine ⟨failed, ?_⟩
  intro same
  rw [same, first] at moved
  exact absurd moved (by decide)

end Results

end SearchRelay
