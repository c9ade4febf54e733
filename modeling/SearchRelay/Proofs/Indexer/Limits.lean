import SearchRelay.Proofs.Indexer.Plan

/-!
Limits under a policy that changes. As long as each change is announced before the next record is
looked at, every decision is the one that the policy itself gives at that moment, and between two
announcements of a project the policy is asked about it at most once.
-/

namespace SearchRelay

namespace Limits

/-- Whether a policy lets a record into the index. A record without a project always may. -/
def permits (policy : Nat → Bool) (record : Record) : Bool :=
  record.projectId.all policy

/-- The project that the policy is asked about, to decide about a record. -/
def asks? (limits : Limits) (record : Record) : Option Nat :=
  record.projectId.filter fun project =>
    (limits.cache.fetch (key project) fun cache => (limits.enabled project, cache)).asked

/-- The policy changes its mind about a project, and what is remembered stays as it is. -/
def decree (limits : Limits) (project : Nat) (enabled : Bool) : Limits :=
  { limits with enabled := Function.update limits.enabled project enabled }

variable {limits : Limits}

theorem key_injective : Function.Injective key :=
  fun _ _ same => congrArg Prod.snd same

theorem asks?_eq {record : Record} {project : Nat} :
    limits.asks? record = some project ↔
      record.projectId = some project ∧ limits.cache.find? (key project) = none := by
  rw [asks?, Option.filter_eq_some_iff, AnswerCache.fetch]
  cases limits.cache.find? (key project) <;> simp

/-- What the policy says of other projects does not count. -/
theorem allows_of_asks {other : Nat → Bool} {record : Record}
    (same : ∀ project, limits.asks? record = some project →
      other project = limits.enabled project) :
    (allows { limits with enabled := other } record).1 = (limits.allows record).1 := by
  simp only [asks?_eq] at same
  unfold allows
  cases owner : record.projectId with
  | none => rfl
  | some project =>
    cases known : limits.cache.find? (key project) with
    | some answer => simp only [AnswerCache.fetch, known]
    | none =>
      simp only [AnswerCache.fetch, known]
      exact same project ⟨owner, known⟩

/-- Asking is remembered, and nothing else changes. -/
theorem find?_allows (limits : Limits) (record : Record) (project : Nat) :
    (limits.allows record).2.enabled = limits.enabled ∧
      (limits.allows record).2.cache.find? (key project) =
        if limits.asks? record = some project then some (limits.enabled project)
        else limits.cache.find? (key project) := by
  simp only [asks?_eq, allows]
  cases record.projectId with
  | none => simp
  | some asked =>
    cases known : limits.cache.find? (key asked) with
    | some answer =>
      simp only [AnswerCache.fetch, known, true_and]
      rw [if_neg]
      intro unknown
      obtain rfl := Option.some.inj unknown.1
      rw [known] at unknown
      cases unknown.2
    | none =>
      simp only [AnswerCache.fetch, known, AnswerCache.find?_set, key_injective.eq_iff, true_and]
      by_cases same : project = asked
      · simp [same, known]
      · simp [same, Ne.symm same]

/-! ### What is remembered -/

/-- The limits ask this policy. What they remember is what it says, apart from the projects that it
has changed its mind about without an announcement. -/
structure Follows (policy : Nat → Bool) (stale : Nat → Prop) (limits : Limits) : Prop where
  enabled : limits.enabled = policy
  remembered : ∀ project answer, limits.cache.find? (key project) = some answer →
    stale project ∨ answer = policy project

variable {policy : Nat → Bool} {stale : Nat → Prop}

theorem Follows.start (policy : Nat → Bool) (stale : Nat → Prop) :
    Follows policy stale (ofPolicy policy) :=
  ⟨rfl, fun _ _ nothing => by cases nothing⟩

theorem Follows.admits (follows : Follows policy stale limits)
    (fresh : ∀ project, ¬ stale project) (record : Record) :
    limits.admits record = permits policy record := by
  unfold Limits.admits permits
  cases record.projectId with
  | none => rfl
  | some project =>
    cases known : limits.cache.find? (key project) with
    | none =>
      simp only [known, Option.getD_none, Option.all_some]
      exact congrFun follows.enabled project
    | some answer =>
      simp only [known, Option.getD_some, Option.all_some]
      exact (follows.remembered project answer known).resolve_left (fresh project)

theorem Follows.allows (follows : Follows policy stale limits) (record : Record) :
    Follows policy stale (limits.allows record).2 := by
  refine ⟨(limits.find?_allows record 0).1.trans follows.enabled, fun project answer found => ?_⟩
  rw [(limits.find?_allows record project).2] at found
  split at found
  next asked =>
    obtain rfl := Option.some.inj found
    exact Or.inr (congrFun follows.enabled project)
  next => exact follows.remembered project answer found

end Limits

namespace Indexer

open Limits (permits)

/-! ### Turns -/

/-- What happens to an indexer and its limits. -/
inductive Turn where
  | call (call : Call)
  /-- The policy changes its mind about a project. The limits are not told. -/
  | decree (project : Nat) (enabled : Bool)
  /-- The limits are told that a project has changed. -/
  | announce (project : Nat)

namespace Turn

def Decrees (project : Nat) : Turn → Prop
  | .decree other _ => project = other
  | .call _ | .announce _ => False

def Announces (project : Nat) : Turn → Prop
  | .announce other => project = other
  | .call _ | .decree .. => False

/-- The policy has changed its mind about the project, and this has not been announced. -/
def Pending (past : List Turn) (project : Nat) : Prop :=
  Since (Announces project) (Decrees project) past

/-- Every change is announced before the next reference is processed. -/
def Announced (turns : List Turn) : Prop :=
  ∀ before source reference after,
    turns = before ++ Turn.call (.process source reference) :: after →
      ∀ project, ¬ Pending before project

/-- What a turn makes of the policy. -/
def amend (policy : Nat → Bool) : Turn → Nat → Bool
  | .decree project enabled => Function.update policy project enabled
  | .call _ | .announce _ => policy

end Turn

/-- The policy as it is after some turns. -/
def policyAfter (policy : Nat → Bool) (turns : List Turn) : Nat → Bool :=
  turns.foldl Turn.amend policy

def relimit (indexer : Indexer) (change : Limits → Limits) : Indexer :=
  { indexer with limits := indexer.limits.map change }

def turn (backend : Backend σ) (now : Indexer × σ) : Turn → Indexer × σ
  | .call call => Indexer.call backend now call
  | .decree project enabled => (now.1.relimit fun limits => limits.decree project enabled, now.2)
  | .announce project => (now.1.relimit fun limits => limits.projectChanged project, now.2)

def turns (backend : Backend σ) (turns : List Turn) (now : Indexer × σ) : Indexer × σ :=
  turns.foldl (turn backend) now

/-- What processing a reference appends to the operations, if anything. -/
def Appends (backend : Backend σ) (now : Indexer × σ) (source : RecordSource)
    (reference : Reference) (operation : Option Operation) : Prop :=
  let after := (now.1.process backend source reference now.2).2
  match operation with
  | some operation => ∃ limits,
      after = ({ now.1 with limits := limits } : Indexer).submit backend operation now.2
  | none => after.1.pending = now.1.pending ∧ after.2 = now.2

/-- The record that a reference stands for, if the limits get to see it. -/
def judged? (source : RecordSource) (reference : Reference) : Option Record :=
  if reference.kind.inRepository then none
  else
    match source reference.kind reference.databaseId with
    | .error _ => none
    | .ok found => found

/-- The project that the policy is asked about in a turn. -/
def asks? (limits : Limits) : Turn → Option Nat
  | .call (.process source reference) => (judged? source reference).bind limits.asks?
  | .call (.submit _) | .call .flush | .decree .. | .announce _ => none

/-- What a turn makes of the limits. -/
def limitsAfter (limits : Limits) : Turn → Limits
  | .call (.process source reference) =>
    (judged? source reference).elim limits fun record => (limits.allows record).2
  | .call (.submit _) | .call .flush => limits
  | .decree project enabled => limits.decree project enabled
  | .announce project => limits.projectChanged project

theorem decide_limits {indexer : Indexer} {limits : Limits} (known : indexer.limits = some limits)
    (source : RecordSource) (reference : Reference) :
    match indexer.decide source reference with
    | .error _ => limitsAfter limits (.call (.process source reference)) = limits
    | .ok (_, after) => after = some (limitsAfter limits (.call (.process source reference))) := by
  simp only [decide, limitsAfter, judged?, known]
  by_cases inside : reference.kind.inRepository
  · simp only [inside, if_true]
    rfl
  simp only [inside, Bool.false_eq_true, if_false]
  cases source reference.kind reference.databaseId with
  | error report => rfl
  | ok found =>
    cases found with
    | none => rfl
    | some record =>
      by_cases allowed : (limits.allows record).1 <;> simp only [allowed] <;> rfl

theorem limits_process (backend : Backend σ) {indexer : Indexer} {limits : Limits}
    (known : indexer.limits = some limits) (source : RecordSource) (reference : Reference)
    (state : σ) :
    let after := (indexer.process backend source reference state).2.1
    after.index = indexer.index ∧
      after.limits = some (limitsAfter limits (.call (.process source reference))) := by
  have judged := decide_limits known source reference
  cases decision : indexer.decide source reference with
  | error report =>
    simp only [decision] at judged
    simp only [process, decision, judged]
    exact ⟨trivial, known⟩
  | ok answer =>
    obtain ⟨action, learnt⟩ := answer
    simp only [decision] at judged
    subst judged
    cases action with
    | fail =>
      simp only [process, decision]
      exact ⟨rfl, rfl⟩
    | perform operation =>
      simp only [process, decision]
      exact submit_settings backend _ operation state

variable {now : Indexer × σ} {limits : Limits}

theorem limits_turn (backend : Backend σ) (known : now.1.limits = some limits) (next : Turn) :
    let after := (turn backend now next).1
    after.index = now.1.index ∧ after.limits = some (limitsAfter limits next) := by
  cases next with
  | decree project enabled => exact ⟨rfl, congrArg (Option.map _) known⟩
  | announce project => exact ⟨rfl, congrArg (Option.map _) known⟩
  | call call =>
    cases call with
    | process source reference => exact limits_process backend known source reference now.2
    | submit operation =>
      obtain ⟨index, limits⟩ := submit_settings backend now.1 operation now.2
      exact ⟨index, limits.trans known⟩
    | flush =>
      obtain ⟨index, limits⟩ := flush_settings backend now.1 now.2
      exact ⟨index, limits.trans known⟩

theorem limits_turns (backend : Backend σ) (known : now.1.limits = some limits)
    (past : List Turn) :
    let after := (turns backend past now).1
    after.index = now.1.index ∧ after.limits = some (past.foldl limitsAfter limits) := by
  induction past generalizing now limits with
  | nil => exact ⟨rfl, known⟩
  | cons next past ih =>
    obtain ⟨index, first⟩ := limits_turn backend known next
    obtain ⟨same, rest⟩ := ih first
    exact ⟨same.trans index, rest⟩

theorem appends_plan (backend : Backend σ) (now : Indexer × σ) (source : RecordSource)
    (reference : Reference) :
    Appends backend now source reference
      (plan now.1.index (admits now.1.limits) source reference) := by
  have planned := decide_plan now.1 source reference
  unfold Appends
  cases decision : now.1.decide source reference with
  | error report =>
    simp only [decision] at planned
    simp only [planned, process, decision]
    exact ⟨trivial, trivial⟩
  | ok answer =>
    obtain ⟨action, limits⟩ := answer
    simp only [decision] at planned
    cases action with
    | fail =>
      simp only [planned.1, Decision.operation?, process, decision]
      exact ⟨rfl, trivial⟩
    | perform operation =>
      simp only [planned.1, Decision.operation?, process, decision]
      exact ⟨limits, rfl⟩

/-! ### The policy -/

section
variable {policy : Nat → Bool} {past : List Turn}

theorem Turn.pending_concat {turn : Turn} {project : Nat} :
    Pending (past ++ [turn]) project ↔
      turn.Decrees project ∨ ¬ turn.Announces project ∧ Pending past project := since_concat

theorem follows_turn (follows : limits.Follows policy (Turn.Pending past)) (turn : Turn) :
    (limitsAfter limits turn).Follows (turn.amend policy) (Turn.Pending (past ++ [turn])) := by
  -- a turn that is neither a decree nor an announcement leaves the pending ones pending
  have calm (call : Call) (later : Limits) (same : later.Follows policy (Turn.Pending past)) :
      later.Follows policy (Turn.Pending (past ++ [Turn.call call])) :=
    ⟨same.enabled, fun project answer found => (same.remembered project answer found).imp_left
      fun pending => Turn.pending_concat.2 (Or.inr ⟨id, pending⟩)⟩
  cases turn with
  | call call =>
    cases call with
    | submit operation => exact calm _ _ follows
    | flush => exact calm _ _ follows
    | process source reference =>
      refine calm _ _ ?_
      rw [limitsAfter]
      cases judged? source reference with
      | none => exact follows
      | some record => exact follows.allows record
  | decree project enabled =>
    refine ⟨?_, ?_⟩
    · rw [limitsAfter, Limits.decree, follows.enabled, Turn.amend]
    intro other answer found
    rw [Turn.pending_concat]
    by_cases same : other = project
    · exact Or.inl (Or.inl same)
    · rw [Turn.amend, Function.update_of_ne same]
      exact (follows.remembered other answer found).imp_left fun pending => Or.inr ⟨id, pending⟩
  | announce project =>
    refine ⟨follows.enabled, ?_⟩
    intro other answer found
    rw [limitsAfter, Limits.projectChanged, AnswerCache.find?_erase] at found
    split at found
    next => cases found
    next different =>
      have untold : ¬ (Turn.announce project).Announces other :=
        fun same => different (congrArg Limits.key same)
      exact (follows.remembered other answer found).imp_left fun pending =>
        Turn.pending_concat.2 (Or.inr ⟨untold, pending⟩)

theorem follows_turns (policy : Nat → Bool) (turns : List Turn) :
    (turns.foldl limitsAfter (.ofPolicy policy)).Follows (policyAfter policy turns)
      (Turn.Pending turns) := by
  induction turns using List.reverseRecOn with
  | nil => exact .start policy _
  | append_singleton turns turn ih =>
    rw [policyAfter, List.foldl_concat, List.foldl_concat]
    exact follows_turn ih turn

/-- A project stays known until it is announced. -/
theorem known_turn {project : Nat} (known : (limits.cache.find? (Limits.key project)).isSome)
    {turn : Turn} (silent : turn ≠ .announce project) :
    ((limitsAfter limits turn).cache.find? (Limits.key project)).isSome := by
  cases turn with
  | decree => exact known
  | announce other =>
    rw [limitsAfter, Limits.projectChanged, AnswerCache.find?_erase, if_neg]
    · exact known
    · intro same
      exact silent (congrArg Turn.announce (Limits.key_injective same).symm)
  | call call =>
    cases call with
    | submit operation => exact known
    | flush => exact known
    | process source reference =>
      rw [limitsAfter]
      cases judged? source reference with
      | none => exact known
      | some record =>
        rw [Option.elim_some, (limits.find?_allows record project).2]
        split
        next => rfl
        next => exact known

theorem known_turns {project : Nat} (known : (limits.cache.find? (Limits.key project)).isSome)
    {turns : List Turn} (silent : .announce project ∉ turns) :
    ((turns.foldl limitsAfter limits).cache.find? (Limits.key project)).isSome := by
  induction turns generalizing limits with
  | nil => exact known
  | cons turn turns ih =>
    obtain ⟨first, rest⟩ := List.ne_and_not_mem_of_not_mem_cons silent
    exact ih (known_turn known first.symm) rest

theorem known_of_asks {turn : Turn} {project : Nat} (asked : asks? limits turn = some project) :
    limits.cache.find? (Limits.key project) = none ∧
      ((limitsAfter limits turn).cache.find? (Limits.key project)).isSome := by
  cases turn with
  | decree | announce => cases asked
  | call call =>
    cases call with
    | submit | flush => cases asked
    | process source reference =>
      obtain ⟨record, seen, asked⟩ := Option.bind_eq_some_iff.1 asked
      refine ⟨(Limits.asks?_eq.1 asked).2, ?_⟩
      rw [limitsAfter, seen, Option.elim_some, (limits.find?_allows record project).2, if_pos asked]
      rfl

end

/-- As long as every change of the policy is announced before the next reference is processed: each
record is allowed as the policy has it at that moment, from its answer if it is asked, what its call appends is what this asks for,
and the document of a record that is not allowed is removed. Between two questions to the policy
about a project the project has been announced. -/
theorem limits_follow_policy (backend : Backend σ) (index : String) (limit : Nat)
    (policy : Nat → Bool) (state : σ) (past : List Turn) (announced : Turn.Announced past) :
    let begun := (new index limit (some (.ofPolicy policy)), state)
    let asked (before : List Turn) (next : Turn) (project : Nat) : Prop :=
      ∃ limits, (turns backend before begun).1.limits = some limits ∧
        asks? limits next = some project
    (∀ before source reference after,
      past = before ++ Turn.call (.process source reference) :: after →
        let now := turns backend before begun
        let current := policyAfter policy before
        (∃ limits, now.1.limits = some limits ∧
          (∀ record, (limits.allows record).1 = permits current record) ∧
          ∀ record other,
            (∀ project, limits.asks? record = some project → other project = current project) →
              (Limits.allows { limits with enabled := other } record).1 =
                (limits.allows record).1) ∧
        Appends backend now source reference (plan index (permits current) source reference) ∧
        ∀ record, source reference.kind reference.databaseId = .ok (some record) →
          permits current record = false → Appends backend now source reference
            (if reference.kind.inRepository then none else some ⟨index, reference, none⟩)) ∧
    ∀ before first middle second after project,
      past = before ++ first :: (middle ++ second :: after) →
        asked before first project → asked (before ++ first :: middle) second project →
          .announce project ∈ middle := by
  intro begun asked
  have started : begun.1.limits = some (.ofPolicy policy) := rfl
  have limited (before : List Turn) := limits_turns backend started before
  refine ⟨?_, ?_⟩
  · intro before source reference after split now current
    obtain ⟨same, known⟩ := limited before
    have fresh := announced before source reference after split
    have follows := follows_turns policy before
    have admitted := follows.admits fresh
    have appended := appends_plan backend now source reference
    have permitted : admits now.1.limits = permits current := by
      funext record
      rw [known]
      exact admitted record
    rw [permitted, show now.1.index = index from same] at appended
    refine ⟨⟨_, known, fun record => ?_, fun record other alike => ?_⟩, appended,
      fun record found blocked => ?_⟩
    · exact (Limits.allows_admits _ record).1.trans (admitted record)
    · apply Limits.allows_of_asks
      exact fun project asked => (alike project asked).trans (congrFun follows.enabled project).symm
    · rw [plan, found] at appended
      by_cases inside : reference.kind.inRepository
      · rwa [if_pos inside] at appended ⊢
      · rw [if_neg inside] at appended ⊢
        dsimp only at appended
        rwa [blocked] at appended
  · intro before first middle second after project split once again
    obtain ⟨limits, known, once⟩ := once
    obtain ⟨later, knownLater, again⟩ := again
    obtain rfl := Option.some.inj ((limited before).2.symm.trans known)
    obtain rfl := Option.some.inj ((limited _).2.symm.trans knownLater)
    by_contra silent
    have kept := known_turns (known_of_asks once).2 silent
    have forgotten := (known_of_asks again).1
    rw [List.foldl_append, List.foldl_cons] at forgotten
    rw [forgotten] at kept
    cases kept

private def oneIssue : Reference := ⟨.issue, 1, "issue_1", none⟩

private def inSeven : RecordSource := fun _ _ =>
  .ok (some ⟨"Issue", 1, some 7, .document (.obj [])⟩)

private def withdrawal : List Turn :=
  [.call (.process inSeven oneIssue), .decree 7 false, .announce 7]

private theorem withdrawal_announced :
    Turn.Announced (withdrawal ++ [Turn.call (.process inSeven oneIssue)]) := by
  have settled (project : Nat) : ¬ Turn.Pending withdrawal project := by
    have parts : withdrawal = [] ++ [Turn.call (.process inSeven oneIssue)] ++
      [Turn.decree 7 false] ++ [Turn.announce 7] := rfl
    rw [parts, Turn.pending_concat, Turn.pending_concat, Turn.pending_concat]
    simp [Turn.Decrees, Turn.Announces, Turn.Pending, not_since_nil]
  intro before source reference after split
  rcases List.eq_nil_or_concat after with rfl | ⟨after, last, rfl⟩
  · obtain ⟨rfl, -⟩ := List.append_inj' split rfl
    exact settled
  · rw [List.concat_eq_append, ← List.cons_append, ← List.append_assoc] at split
    obtain ⟨early, -⟩ := List.append_inj' split rfl
    rcases before with _ | ⟨visit, _ | ⟨decree, _ | ⟨announce, rest⟩⟩⟩
    · exact fun _ => not_since_nil
    · cases early
    · cases early
    · cases rest <;> cases early

/-- An issue is processed, its project is disabled, and it is processed again. -/
theorem limits_follow_policy_withdrawal :
    let begun := (new "main" 1000 (some (.ofPolicy fun _ => true)), MemoryCluster.empty)
    let now := turns MemoryCluster.backend withdrawal begun
    Turn.Announced (withdrawal ++ [Turn.call (.process inSeven oneIssue)]) ∧
      Appends MemoryCluster.backend now inSeven oneIssue (some ⟨"main", oneIssue, none⟩) := by
  intro begun now
  obtain ⟨follows, -⟩ := limits_follow_policy MemoryCluster.backend "main" 1000 (fun _ => true)
    MemoryCluster.empty _ withdrawal_announced
  obtain ⟨-, -, removed⟩ := follows withdrawal inSeven oneIssue [] rfl
  exact ⟨withdrawal_announced, removed _ rfl rfl⟩

end Indexer

end SearchRelay
