import SearchRelay.Proofs.Search.Confidentiality

/-!
What a question shows. The filter of a scope accepts just the documents that the rules of the scope
admit, for every actor and whatever was granted to whom in which order.
-/

namespace SearchRelay

/-- A change of what is known about people. -/
inductive Appointment where
  | grant (user project : Nat) (level : AccessLevel)
  | elevate (user : Nat)

/-- The level that a user was granted last in a project. -/
def Appointment.lastLevel? (user project : Nat) : List Appointment → Option AccessLevel
  | [] => none
  | .grant someone somewhere level :: later =>
    (lastLevel? user project later).or
      (if someone = user ∧ somewhere = project then some level else none)
  | .elevate _ :: later => lastLevel? user project later

namespace Membership

def appoint (membership : Membership) : Appointment → Membership
  | .grant user project level => membership.grant user project level
  | .elevate user => membership.elevate user

/-- What is known after appointments, one after the other. -/
def ofAppointments (appointments : List Appointment) : Membership :=
  appointments.foldl appoint empty

variable {appointments : List Appointment} {user project : Nat} {level : AccessLevel}

theorem mem_levels_foldl (membership : Membership) :
    ((user, project), level) ∈ (appointments.foldl appoint membership).levels ↔
      Appointment.lastLevel? user project appointments = some level ∨
        Appointment.lastLevel? user project appointments = none ∧
          ((user, project), level) ∈ membership.levels := by
  induction appointments generalizing membership with
  | nil => simp [Appointment.lastLevel?]
  | cons appointment later ih =>
    rw [List.foldl_cons, ih]
    cases appointment with
    | elevate someone => rfl
    | grant someone somewhere granted =>
      -- what is granted later counts; only where nothing is does this grant, and then an older one
      cases last : Appointment.lastLevel? user project later with
      | some held => simp [Appointment.lastLevel?, last]
      | none =>
        by_cases here : someone = user ∧ somewhere = project
        · obtain ⟨rfl, rfl⟩ := here
          simp [Appointment.lastLevel?, last, appoint, Membership.grant, eq_comm]
        · have other : (user, project) ≠ (someone, somewhere) := fun same =>
            here ⟨(congrArg Prod.fst same).symm, (congrArg Prod.snd same).symm⟩
          simp [Appointment.lastLevel?, last, appoint, Membership.grant, here, other]

theorem mem_levels : ((user, project), level) ∈ (ofAppointments appointments).levels ↔
    Appointment.lastLevel? user project appointments = some level := by
  simp [ofAppointments, mem_levels_foldl, empty]

theorem mem_admins : user ∈ (ofAppointments appointments).admins ↔
    Appointment.elevate user ∈ appointments := by
  have kept (membership : Membership) : user ∈ (appointments.foldl appoint membership).admins ↔
      Appointment.elevate user ∈ appointments ∨ user ∈ membership.admins := by
    induction appointments generalizing membership with
    | nil => simp
    | cons appointment later ih =>
      rw [List.foldl_cons, ih]
      cases appointment with
      | grant someone somewhere level => simp [appoint, Membership.grant]
      | elevate someone => simp [appoint, Membership.elevate, or_left_comm, or_assoc]
  simp [ofAppointments, kept, empty]

end Membership

/-- The actor may read a confidential document like this one: as an administrator with an active
session, as its author, as an assignee, or as at least a reporter of its project. -/
def Actor.MayRead (appointments : List Appointment) (document : Json) : Actor → Prop
  | .anonymous => False
  | .user id admin =>
    admin ∧ .elevate id ∈ appointments ∨ document.Has "author_id" (.ofNat id) ∨
      document.Has "assignee_ids" (.ofNat id) ∨
      ∃ project level, Appointment.lastLevel? id project appointments = some level ∧
        AccessLevel.reporter.rank ≤ level.rank ∧ document.Has "project_id" (.ofNat project)

theorem Actor.mayRead_iff {appointments : List Appointment} {document : Json} {actor : Actor} :
    actor.mayRead (.ofAppointments appointments) document ↔ actor.MayRead appointments document := by
  cases actor with
  | anonymous => exact Bool.false_eq_true.to_iff
  | user id admin =>
    have number (project : Nat) : (Json.ofNat project).IsExact := trivial
    simp only [mayRead_user, MayRead, Bool.and_eq_true, List.contains_iff_mem,
      Membership.mem_admins, Membership.mem_projectsWith, Membership.mem_levels,
      Filter.holds_iff (number _), ← exists_and_right, and_assoc]

/-- A question of this actor shows the document in the scope: every rule of the scope admits it. -/
structure Visible (actor : Actor) (appointments : List Appointment) (projects : ProjectScope)
    (query : String) (narrowing : Narrowing) (scope : Scope) (document : Json) : Prop where
  type : document.Has "type" (.str scope.documentType)
  mentioned : document.Mentions scope.textFields query
  project : scope ≠ .users → ∃ field ∈ scope.projectField, projects = .all ∨
    ∃ allowed, projects = .only allowed ∧
      ∃ project ∈ allowed, document.Has field (.ofNat project)
  readable : scope = .issues ∨ scope = .notes → document.Has "confidential" (.bool true) →
    actor.MayRead appointments document
  state : scope.hasState → ∀ state ∈ narrowing.state, state ≠ "" → state ≠ "all" →
    document.Has "state" (.str state)
  confidential : scope = .issues → ∀ value ∈ narrowing.confidential,
    document.Has "confidential" (.bool value)

namespace Filter

variable {document : Json}

theorem accepts_allOf {filters : List Filter} :
    accepts document (.allOf filters) ↔ ∀ filter ∈ filters, accepts document filter :=
  acceptsAll_iff

theorem accepts_equals {field : String} {value : Json} (isExact : value.IsExact) :
    accepts document (.equals field value) ↔ document.Has field value := by
  rw [accepts, holds_iff isExact]

theorem accepts_projectFilter {visibility : Visibility} {field : String} :
    accepts document (visibility.projectFilter field) ↔
      visibility.projects = .all ∨ ∃ allowed, visibility.projects = .only allowed ∧
        ∃ project ∈ allowed, document.Has field (.ofNat project) := by
  have number (project : Nat) : (Json.ofNat project).IsExact := trivial
  unfold Visibility.projectFilter
  cases visibility.projects with
  | all => simp [accepts]
  | only allowed =>
    cases allowed with
    | nil => simp [accepts]
    | cons project others => simp [accepts, holds_iff (number _)]

/-- Filters that are only there for some questions accept what the ones that are there accept. -/
theorem forall_mem_toList {α : Type} {found : Option α} {filter : α → Filter} :
    (∀ part ∈ (found.map filter).toList, accepts document part) ↔
      ∀ value ∈ found, accepts document (filter value) := by
  cases found <;> simp

theorem forall_mem_ite {wanted : Prop} [Decidable wanted] {filters : List Filter} :
    (∀ part ∈ if wanted then filters else [], accepts document part) ↔
      (wanted → ∀ part ∈ filters, accepts document part) := by
  split <;> simp [*]

end Filter

theorem Json.mentions_trim {document : Json} {fields : List String} {query : String} :
    document.Mentions fields (String.ofList (Text.trim query.toList)) ↔
      document.Mentions fields query := by
  rw [Mentions, String.toList_ofList, Text.words_trim, ← Mentions]

theorem Question.mem_wantedState? {question : Question} {state : String} :
    state ∈ question.wantedState? ↔
      state ∈ question.narrowing.state ∧ state ≠ "" ∧ state ≠ "all" := by
  simp [wantedState?, Option.mem_def]

namespace Scope

theorem hasConfidentiality_iff {scope : Scope} :
    scope.hasConfidentiality ↔ scope = .issues ∨ scope = .notes := by
  cases scope <;> decide

/-- A scope has at most one field for its project, and only users have none. -/
theorem forall_projectField {scope : Scope} {holds : String → Prop} :
    (∀ field ∈ scope.projectField, holds field) ↔
      (scope ≠ .users → ∃ field ∈ scope.projectField, holds field) := by
  cases scope <;> simp [projectField]

end Scope

/-- The filter of a scope lets a document through if and only if it is visible. -/
theorem Question.accepts_scopeFilter_iff_visible (actor : Actor) (appointments : List Appointment)
    (projects : ProjectScope) (index query : String) (narrowing : Narrowing) (perPage : Nat)
    (scope : Scope) (document : Json) :
    let policy := (Membership.ofAppointments appointments).policy
    let question : Question :=
      ⟨index, query, .resolve actor projects policy, narrowing, perPage⟩
    Filter.accepts document (question.scopeFilter scope) ↔
      Visible actor appointments projects query narrowing scope document := by
  intro policy question
  have text (value : String) : (Json.str value).IsExact := trivial
  have flag (value : Bool) : (Json.bool value).IsExact := trivial
  have listed : question.visibility.projects = projects := rfl
  -- one condition for each part of the filter
  simp only [scopeFilter, Filter.accepts_allOf, List.forall_mem_append, List.forall_mem_cons,
    List.not_mem_nil, false_imp_iff, implies_true, and_true, Filter.forall_mem_toList,
    Filter.forall_mem_ite, Filter.accepts_equals (text _), Filter.accepts_equals (flag _),
    Filter.accepts_words, Json.mentions_trim, Filter.accepts_projectFilter, listed,
    Scope.forall_projectField, Scope.hasConfidentiality_iff, mem_wantedState?]
  rw [Visibility.accepts_confidentialityFilter, Filter.holds_iff (flag true), Actor.mayRead_iff]
  constructor
  · rintro ⟨⟨⟨⟨⟨type, mentioned⟩, project⟩, readable⟩, state⟩, confidential⟩
    refine ⟨type, mentioned, project, readable, ?_, confidential⟩
    exact fun has wanted given filled narrow => state has wanted ⟨given, filled, narrow⟩
  · rintro ⟨type, mentioned, project, readable, state, confidential⟩
    refine ⟨⟨⟨⟨⟨type, mentioned⟩, project⟩, readable⟩, ?_⟩, confidential⟩
    exact fun has wanted given => state has wanted given.1 given.2.1 given.2.2

end SearchRelay
