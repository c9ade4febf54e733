import SearchRelay.Query.Filter

/-!
Who may see what. The questions about people are answered by a policy; here the answers become
filters. A confidential document is for its author, its assignees, members of its project from
reporter on, and administrators with an active session.
-/

namespace SearchRelay

/-- What a member may do in a project, from least to most. -/
inductive AccessLevel where
  | noAccess
  | guest
  | reporter
  | developer
  | maintainer
  | owner
deriving DecidableEq, Repr

def AccessLevel.rank : AccessLevel → Nat
  | noAccess => 0
  | guest => 1
  | reporter => 2
  | developer => 3
  | maintainer => 4
  | owner => 5

def AccessLevel.names : List (String × AccessLevel) :=
  [("NoAccess", noAccess), ("Guest", guest), ("Reporter", reporter), ("Developer", developer),
   ("Maintainer", maintainer), ("Owner", owner)]

def AccessLevel.ofName? (name : String) : Option AccessLevel := names.lookup name

inductive Actor where
  | anonymous
  | user (id : Nat) (admin : Bool)
deriving DecidableEq, Repr

def Actor.userId? : Actor → Option Nat
  | anonymous => none
  | user id _ => some id

inductive ProjectScope where
  | all
  | only (projects : List Nat)
deriving DecidableEq, Repr

/-- What is known about people. -/
structure AccessPolicy where
  /-- The user has an active administrator session. -/
  adminActive : Nat → Bool
  /-- The projects where the user holds at least a level. -/
  projectsWith : Nat → AccessLevel → List Nat

structure Membership where
  levels : List ((Nat × Nat) × AccessLevel)
  admins : List Nat

namespace Membership

def empty : Membership := ⟨[], []⟩

/-- Grants a level to a user in a project, in the place of an earlier one. -/
def grant (membership : Membership) (user project : Nat) (level : AccessLevel) : Membership :=
  { membership with
    levels := ((user, project), level) ::
      membership.levels.filter fun entry => entry.1 != (user, project) }

def elevate (membership : Membership) (user : Nat) : Membership :=
  { membership with admins := user :: membership.admins }

/-- The projects where a user holds at least a level, in increasing order. -/
def projectsWith (membership : Membership) (user : Nat) (level : AccessLevel) : List Nat :=
  let granted := membership.levels.filter fun entry =>
    entry.1.1 == user && level.rank ≤ entry.2.rank
  (granted.map fun entry => entry.1.2).mergeSort (· ≤ ·)

def policy (membership : Membership) : AccessPolicy where
  adminActive user := membership.admins.contains user
  projectsWith := membership.projectsWith

end Membership

inductive ConfidentialAccess where
  | everything
  /-- The user's own documents and those of projects where the user is a reporter. -/
  | restricted (user : Option Nat) (projects : List Nat)
deriving DecidableEq, Repr

structure Visibility where
  projects : ProjectScope
  confidential : ConfidentialAccess
deriving DecidableEq, Repr

namespace Visibility

def resolve (actor : Actor) (projects : ProjectScope) (policy : AccessPolicy) : Visibility where
  projects := projects
  confidential :=
    match actor with
    | .anonymous => .restricted none []
    | .user id admin =>
      if admin && policy.adminActive id then .everything
      else .restricted (some id) (policy.projectsWith id .reporter)

def projectFilter (visibility : Visibility) (field : String) : Filter :=
  match visibility.projects with
  | .all => .everything
  | .only [] => .nothing
  | .only projects => .oneOf field (projects.map .ofNat)

/-- The documents that are not confidential, and the confidential ones that are seen. -/
def confidentialityFilter (visibility : Visibility) : Filter :=
  match visibility.confidential with
  | .everything => .everything
  | .restricted user projects =>
    let plain := Filter.negation (.equals "confidential" (.bool true))
    let own := match user with
      | none => []
      | some id =>
        [Filter.equals "author_id" (.ofNat id), Filter.equals "assignee_ids" (.ofNat id)]
    let reported :=
      if projects.isEmpty then [] else [Filter.oneOf "project_id" (projects.map .ofNat)]
    .anyOf (plain :: own ++ reported)

end Visibility

end SearchRelay
