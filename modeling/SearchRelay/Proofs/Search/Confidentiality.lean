import SearchRelay.Proofs.Query.Filter
import SearchRelay.Proofs.Search.Session

/-!
Confidential documents that an actor may not read make no difference to what the actor is told,
neither to the pages and their totals nor to counts and markup.
-/

namespace SearchRelay

/-- The actor may read a document like this one when it is confidential: an administrator with an
active session, its author, an assignee, and whoever is at least a reporter in its project. -/
def Actor.mayRead (membership : Membership) (document : Json) : Actor → Bool
  | .anonymous => false
  | .user id admin =>
    admin && membership.admins.contains id ||
      Filter.holds (document.lookup "author_id") (.ofNat id) ||
      Filter.holds (document.lookup "assignee_ids") (.ofNat id) ||
      membership.levels.any fun entry =>
        entry.1.1 == id && AccessLevel.reporter.rank ≤ entry.2.rank &&
          Filter.holds (document.lookup "project_id") (.ofNat entry.1.2)

/-- An issue or a note, by exactly that type, that is confidential and not for this actor. -/
def Actor.isKept (actor : Actor) (membership : Membership) (document : Json) : Bool :=
  let guarded := match document.lookup "type" with
    | some (.str kind) => kind == "issue" || kind == "note"
    | _ => false
  guarded && Filter.holds (document.lookup "confidential") (.bool true) &&
    !actor.mayRead membership document

theorem Membership.mem_projectsWith {membership : Membership} {user project : Nat}
    {level : AccessLevel} : project ∈ membership.projectsWith user level ↔
      ∃ held, ((user, project), held) ∈ membership.levels ∧ level.rank ≤ held.rank := by
  simp only [projectsWith, List.mem_mergeSort, List.mem_map, List.mem_filter, Bool.and_eq_true,
    beq_iff_eq, decide_eq_true_eq]
  constructor
  · rintro ⟨⟨⟨_, _⟩, held⟩, ⟨member, rfl, enough⟩, rfl⟩
    exact ⟨held, member, enough⟩
  · rintro ⟨held, member, enough⟩
    exact ⟨_, ⟨member, rfl, enough⟩, rfl⟩

theorem Actor.mayRead_user {membership : Membership} {document : Json} {id : Nat} {admin : Bool} :
    mayRead membership document (.user id admin) ↔
      admin && membership.admins.contains id ∨
        Filter.holds (document.lookup "author_id") (.ofNat id) ∨
        Filter.holds (document.lookup "assignee_ids") (.ofNat id) ∨
        ∃ project ∈ membership.projectsWith id .reporter,
          Filter.holds (document.lookup "project_id") (.ofNat project) := by
  simp only [mayRead, Bool.or_eq_true, or_assoc, List.any_eq_true, Bool.and_eq_true, beq_iff_eq,
    decide_eq_true_eq, Membership.mem_projectsWith]
  refine or_congr_right (or_congr_right (or_congr_right ⟨?_, ?_⟩))
  · rintro ⟨⟨⟨_, project⟩, held⟩, granted, ⟨rfl, enough⟩, holds⟩
    exact ⟨project, ⟨held, granted, enough⟩, holds⟩
  · rintro ⟨project, ⟨held, granted, enough⟩, holds⟩
    exact ⟨_, granted, ⟨rfl, enough⟩, holds⟩

/-- The confidentiality filter lets everything through that is not confidential, and what is
confidential only to those who may read it. -/
theorem Visibility.accepts_confidentialityFilter {actor : Actor} {projects : ProjectScope}
    {membership : Membership} {document : Json} :
    Filter.accepts document (resolve actor projects membership.policy).confidentialityFilter ↔
      (Filter.holds (document.lookup "confidential") (.bool true) → actor.mayRead membership document)
      := by
  unfold confidentialityFilter resolve
  cases actor with
  | anonymous => simp [Filter.accepts, Filter.acceptsAny, Actor.mayRead]
  | user id admin =>
    rw [Actor.mayRead_user]
    by_cases elevated : admin && membership.admins.contains id
    · simp only [Membership.policy, elevated, if_pos, Filter.accepts, true_or, implies_true]
    have reporter (projects : List Nat) : Filter.acceptsAny document
          (if projects.isEmpty then [] else [.oneOf "project_id" (projects.map .ofNat)]) ↔
        ∃ project ∈ projects, Filter.holds (document.lookup "project_id") (.ofNat project) := by
      cases projects <;> simp [Filter.accepts, Filter.acceptsAny]
    simp only [Membership.policy, elevated, Bool.false_eq_true, if_false, Filter.accepts,
      List.cons_append, List.nil_append, Filter.acceptsAny, Bool.or_eq_true, reporter,
      Bool.not_eq_true', ← Bool.not_eq_true, false_or, imp_iff_not_or]

/-- No scope finds a document that is kept from the actor. -/
theorem Question.rejects_kept {actor : Actor} {projects : ProjectScope} {membership : Membership}
    {question : Question} (resolved : question.visibility = .resolve actor projects membership.policy)
    {document : Json} (kept : actor.isKept membership document) (scope : Scope) :
    Filter.accepts document (question.scopeFilter scope) = false := by
  apply Bool.eq_false_iff.2
  intro accepted
  have all := Filter.acceptsAll_iff.1 accepted
  simp only [Actor.isKept, Bool.and_eq_true, Bool.not_eq_true'] at kept
  obtain ⟨⟨guarded, confidential⟩, closed⟩ := kept
  have type : Filter.holds (document.lookup "type") (.str scope.documentType) :=
    all (.equals "type" (.str scope.documentType)) (by simp)
  split at guarded
  next kind found =>
    rw [found] at type
    have named : kind = scope.documentType := eq_of_beq (a := kind) type
    -- the only scopes with such a type are the two that ask who may read
    have guards : scope.hasConfidentiality := by
      subst named
      revert guarded
      cases scope <;> decide
    have filtered : Filter.accepts document question.visibility.confidentialityFilter :=
      all _ (by simp [guards])
    rw [resolved] at filtered
    have reads := Visibility.accepts_confidentialityFilter.1 filtered confidential
    exact Bool.false_ne_true (closed.symm.trans reads)
  next => exact Bool.false_ne_true guarded

namespace MemoryCluster

/-- The documents of a cluster without those that are kept from an actor, in their order. -/
def view (actor : Actor) (membership : Membership) (cluster : MemoryCluster) :
    List (String × String × Json) :=
  (cluster.documents.map core).filter fun document => !actor.isKept membership document.2.2

variable {actor : Actor} {projects : ProjectScope} {membership : Membership} {question : Question}

theorem map_core_matching (cluster : MemoryCluster)
    (resolved : question.visibility = .resolve actor projects membership.policy)
    (scope : Scope) (skip size : Nat) :
    (cluster.matching (question.request scope skip size)).map core =
      let found := (cluster.view actor membership).filter fun document =>
        document.1 == question.index && (question.scopeFilter scope).accepts document.2.2
      match question.narrowing.sort with
      | none => found
      | some sort => found.mergeSort fun left right => sort.compare left.2.2 right.2.2 != .gt := by
  have filtered : (cluster.documents.filter fun document => document.index == question.index &&
        (question.scopeFilter scope).accepts document.source).map core =
      (cluster.view actor membership).filter fun document =>
        document.1 == question.index && (question.scopeFilter scope).accepts document.2.2 := by
    rw [view, List.filter_filter, List.filter_map]
    congr 1
    apply List.filter_congr
    intro document _
    cases kept : actor.isKept membership document.source with
    | false => simp [core, kept]
    | true => simp [core, kept, Question.rejects_kept resolved kept scope]
  unfold matching
  simp only [Question.request, ← filtered]
  cases question.narrowing.sort with
  | none => rfl
  | some sort => exact List.map_mergeSort fun _ _ _ _ => rfl

/-- Two clusters that look the same to an actor answer its requests in the same way. -/
theorem agree_of_view (resolved : question.visibility = .resolve actor projects membership.policy) :
    Results.Agree question
      (fun left right => left.unavailable = right.unavailable ∧
        left.view actor membership = right.view actor membership) backend backend := by
  apply Results.agree_of_cores fun left right =>
    (left.map core).filter (fun document => !actor.isKept membership document.2.2) =
      (right.map core).filter fun document => !actor.isKept membership document.2.2
  intro left right same scope skip size
  have views : left.view actor membership = right.view actor membership := same
  rw [map_core_matching left resolved, map_core_matching right resolved, views]

end MemoryCluster

/-- What an actor is told does not depend on the confidential documents that are kept from it: on
clusters that look the same without them, every session goes the same way. -/
theorem Results.run_blind (actor : Actor) (projects : ProjectScope) (membership : Membership)
    (index query : String) (narrowing : Narrowing) (perPage : Nat) (left right : MemoryCluster)
    (availability : left.unavailable = right.unavailable)
    (same : left.view actor membership = right.view actor membership) (events : List Event) :
    let question : Question :=
      ⟨index, query, .resolve actor projects membership.policy, narrowing, perPage⟩
    (run events (ask question, left)).1 = (run events (ask question, right)).1 := by
  intro question
  have resolved : question.visibility = .resolve actor projects membership.policy := rfl
  have alike : Alike (fun _ => False) (ask question) (ask question) :=
    ⟨rfl, fun _ => rfl, fun _ _ => rfl, fun _ _ => rfl⟩
  refine Agree.run (MemoryCluster.agree_of_view resolved) ?_ alike ⟨availability, same⟩
    fun _ => forgets_nothing (fun _ => id) events
  exact fun away near => ⟨rfl, near.2⟩

private def plainIssue : StoredDocument :=
  ⟨"main", "issue_1", none, .obj [("title", .str "red door"), ("type", .str "issue")]⟩

private def secretIssue : StoredDocument :=
  ⟨"main", "issue_2", none,
    .obj [("author_id", .ofNat 3), ("confidential", .bool true), ("title", .str "red key"),
      ("type", .str "issue")]⟩

private def holding (documents : List StoredDocument) : MemoryCluster :=
  { MemoryCluster.empty with documents := documents }

/-- A user who wrote no issue is told the same with and without a confidential one in front of the
plain one. -/
theorem Results.run_blind_secret :
    let question : Question :=
      ⟨"main", "red", .resolve (.user 7 false) .all Membership.empty.policy, ⟨none, none, none⟩, 20⟩
    let events := [Event.call (.page .issues (.of 1 1)), .call (.count .issues)]
    (run events (ask question, holding [secretIssue, plainIssue])).1 =
      (run events (ask question, holding [plainIssue])).1 := by
  have same : (holding [secretIssue, plainIssue]).view (.user 7 false) .empty =
      (holding [plainIssue]).view (.user 7 false) .empty := by
    unfold holding secretIssue plainIssue
    cbv
  exact run_blind (.user 7 false) .all .empty "main" "red" ⟨none, none, none⟩ 20
    (holding [secretIssue, plainIssue]) (holding [plainIssue]) rfl same
    [.call (.page .issues (.of 1 1)), .call (.count .issues)]

end SearchRelay
