import SearchRelay.Proofs.Indexer.History
import SearchRelay.Proofs.Repository.Run

/-!
The status of a project moves on only behind the index. Whatever the backend answers, a failure in
any request of a run keeps the status where it is, and a run that cannot read what it needs changes
nothing at all.
-/

namespace SearchRelay

variable {σ : Type}

namespace Indexer

theorem submitAll_recording (backend : Backend σ) (indexer : Indexer)
    (operations : List Operation) (state : σ × List (String × Outcome BulkResponse)) :
    let plain := indexer.submitAll backend operations state.1
    ∃ log, indexer.submitAll backend.recording operations state = (plain.1, plain.2, log) := by
  induction operations generalizing indexer state with
  | nil => exact ⟨state.2, rfl⟩
  | cons operation operations ih =>
    obtain ⟨early, first⟩ := submit_recording backend indexer operation state
    obtain ⟨log, rest⟩ := ih (indexer.submit backend operation state.1).1
      ((indexer.submit backend operation state.1).2, early)
    refine ⟨log, ?_⟩
    have step : indexer.submitAll backend.recording (operation :: operations) state =
        (indexer.submit backend.recording operation state).1.submitAll backend.recording operations
          (indexer.submit backend.recording operation state).2 := rfl
    rw [step, first]
    exact rest

theorem deliver_recording (backend : Backend σ) (operations : List Operation)
    (now : Indexer × σ × List (String × Outcome BulkResponse)) :
    let plain := deliver backend operations (now.1, now.2.1)
    ∃ log, deliver backend.recording operations now = (plain.1, plain.2.1, plain.2.2, log) := by
  obtain ⟨early, submitted⟩ := submitAll_recording backend now.1 operations now.2
  obtain ⟨log, flushed⟩ := flush_recording backend
    (now.1.submitAll backend operations now.2.1).1
    ((now.1.submitAll backend operations now.2.1).2, early)
  refine ⟨log, ?_⟩
  rw [deliver, submitted]
  exact flushed

/-- Something is wrong with the answer: there is none, or it names a failed reference. -/
def Harmed (operations : List Operation) : Outcome BulkResponse → Prop
  | .ok response => response.failedReferences operations ≠ []
  | .error _ => True

theorem Harmed.fails {operations : List Operation} {answer : Outcome BulkResponse}
    (harmed : Harmed operations answer) (solid : operations ≠ []) :
    ∃ reference, FailsIn operations answer reference := by
  cases answer with
  | ok response => exact List.exists_mem_of_ne_nil _ harmed
  | error report =>
    obtain ⟨operation, inside⟩ := List.exists_mem_of_ne_nil _ solid
    exact ⟨operation.reference, operation, inside, rfl⟩

end Indexer

/-! ### What a run has to read -/

/-- The target of the plan cannot be read: neither its files nor, where commits are indexed, its
history may be missing. -/
def Plan.Unreadable (plan : Plan) (repository : Repository) (kind : RepositoryKind) : Prop :=
  ∃ target, plan.target? = some target ∧
    ((∃ report, repository.tree target = .error report) ∨
      kind.indexesCommits ∧ ∃ report, Changes.newCommits repository plan = .error report)

theorem Changes.collect_error {repository : Repository} {plan : Plan} (stale : plan ≠ .upToDate)
    (previous : Option String) (kind : RepositoryKind) :
    (∃ report, collect repository plan previous kind = .error report) ↔
      plan.Unreadable repository kind := by
  rw [collect, if_neg stale, Plan.Unreadable]
  cases target : plan.target? with
  | none =>
    have nothing : newCommits repository plan = .ok [] := by
      cases plan <;> simp [Plan.target?] at target ⊢ <;> rfl
    simp only [laterFiles, nothing]
    cases kind.indexesCommits <;> simp
  | some commit =>
    cases files : repository.tree commit with
    | error report => simp [laterFiles, files]
    | ok later =>
      simp only [laterFiles, files, Option.some.injEq, exists_eq_left']
      cases kind.indexesCommits with
      | false => simp
      | true => cases newCommits repository plan <;> simp

/-- The head cannot be read, or what the run would have to bring the index to. -/
def Repository.Unreadable (repository : Repository) (status : Option Status)
    (kind : RepositoryKind) : Prop :=
  match repository.head with
  | .error _ => True
  | .ok head => (Plan.decide status repository.isAncestor head).Unreadable repository kind

/-- What a run decides before it sends anything: nothing, or a plan with its changes. -/
def Repository.prepare (repository : Repository) (status : Option Status) (kind : RepositoryKind) :
    Outcome (Option (Plan × Changes)) :=
  match repository.head with
  | .error report => .error (report.within "💀 Could not read the repository head.")
  | .ok head =>
    let plan := Plan.decide status repository.isAncestor head
    if plan = .upToDate then .ok none
    else
      (Changes.collect repository plan (status.map Status.lastCommit) kind).map fun changes =>
        some (plan, changes)

namespace Repository

variable {repository : Repository} {status : Option Status} {kind : RepositoryKind}

theorem prepare_error : (∃ report, repository.prepare status kind = .error report) ↔
    repository.Unreadable status kind := by
  rw [prepare, Unreadable]
  cases repository.head with
  | error report => simp
  | ok head =>
    dsimp only
    by_cases same : Plan.decide status repository.isAncestor head = .upToDate
    · simp [same, Plan.Unreadable, Plan.target?]
    · rw [if_neg same, ← Changes.collect_error same (status.map Status.lastCommit)]
      cases Changes.collect repository _ _ kind <;> simp [Except.map]

theorem prepare_some {plan : Plan} {changes : Changes}
    (prepared : repository.prepare status kind = .ok (some (plan, changes))) :
    plan ≠ .upToDate ∧
      Changes.collect repository plan (status.map Status.lastCommit) kind = .ok changes := by
  rw [prepare] at prepared
  cases headed : repository.head with
  | error report => simp [headed] at prepared
  | ok head =>
    simp only [headed] at prepared
    split at prepared
    next => simp at prepared
    next stale =>
      cases collected : Changes.collect repository
          (Plan.decide status repository.isAncestor head) (status.map Status.lastCommit) kind with
      | error report => simp [collected, Except.map] at prepared
      | ok found =>
        simp only [collected, Except.map, Except.ok.injEq, Option.some.injEq,
          Prod.mk.injEq] at prepared
        obtain ⟨rfl, rfl⟩ := prepared
        exact ⟨stale, collected⟩

end Repository

variable {repository : Repository} {project : Nat} {kind : RepositoryKind} {now : Instant}

/-- A run prepares itself and then delivers, whatever the backend is. -/
theorem indexRepository_prepare (backend : Backend σ) (state : RunState σ) :
    indexRepository backend repository project kind now state =
      match repository.prepare (state.statuses.find? project) kind with
      | .error report => (.error report, state)
      | .ok none => (.ok ⟨.upToDate, 0, 0, [], false⟩, state)
      | .ok (some (plan, changes)) =>
        let upserts := changes.upserts state.indexer.index kind project
        let removals := changes.removals state.indexer.index kind project
        let sent := Indexer.deliver backend (upserts ++ removals) (state.indexer, state.backend)
        (.ok ⟨plan, upserts.length, removals.length, sent.1, sent.1.isEmpty⟩,
          ⟨sent.2.1,
            if sent.1.isEmpty then state.statuses.recordSuccess project plan now else state.statuses,
            sent.2.2⟩) := by
  rw [indexRepository, Repository.prepare]
  cases repository.head with
  | error report => rfl
  | ok head =>
    dsimp only
    split
    next same => rw [same]
    next => cases Changes.collect repository _ _ kind <;> rfl

/-- The log of a run and its summary: which operations went out in which requests, and which
references were lost with them. -/
structure Accounts (repository : Repository) (project : Nat) (kind : RepositoryKind)
    (before : RunState σ) (log : List (String × Outcome BulkResponse)) (summary : RunSummary)
    (changes : Changes) (batches : List (List Operation)) : Prop where
  collected : Changes.collect repository summary.plan (before.statuses.indexed project) kind =
    .ok changes
  sent : batches.flatten = before.indexer.pending.toList ++
    (changes.upserts before.indexer.index kind project ++
      changes.removals before.indexer.index kind project)
  bodies : log.map Prod.fst = batches.map Operation.body
  failed : ∀ reference, reference ∈ summary.failed ↔
    Indexer.Lost before.indexer.unreported.toList batches (log.map Prod.snd) reference
  harmed : ∀ request ∈ batches.zip (log.map Prod.snd),
    Indexer.Harmed request.1 request.2 → summary.recorded = false

/-- A run moves the status of its project if it had something to do and nothing failed, and else
no status at all. -/
structure Moves (project : Nat) (now : Instant) (before after : StatusTable)
    (summary : RunSummary) : Prop where
  recorded : summary.recorded ↔ summary.plan ≠ .upToDate ∧ summary.failed = []
  kept : summary.recorded = false → after = before
  moved : summary.recorded → ∀ other, after.find? other =
    if other = project then summary.plan.target?.map fun commit => ⟨project, commit, now⟩
    else before.find? other

/-- Whatever the backend answers, the status never runs ahead of the index: it moves on exactly
when no reference failed in any request of the run, and a run that cannot read what it needs
changes nothing. -/
theorem status_never_ahead (backend : Backend σ) (repository : Repository) (project : Nat)
    (kind : RepositoryKind) (now : Instant) (state : RunState σ) :
    let run := indexRepository backend repository project kind now state
    ∃ log, indexRepository backend.recording repository project kind now
        ⟨state.indexer, state.statuses, state.backend, []⟩ =
          (run.1, ⟨run.2.indexer, run.2.statuses, run.2.backend, log⟩) ∧
      match run.1 with
      | .error _ =>
        repository.Unreadable (state.statuses.find? project) kind ∧ run.2 = state ∧ log = []
      | .ok summary =>
        ¬ repository.Unreadable (state.statuses.find? project) kind ∧
        Moves project now state.statuses run.2.statuses summary ∧
        (summary.plan = .upToDate → run.2 = state ∧ log = []) ∧
        (summary.plan ≠ .upToDate → ∃ changes batches,
          Accounts repository project kind state log summary changes batches) := by
  intro run
  cases prepared : repository.prepare (state.statuses.find? project) kind with
  | error report =>
    simp only [run, indexRepository_prepare, prepared]
    exact ⟨[], rfl, Repository.prepare_error.1 ⟨report, prepared⟩, trivial, rfl⟩
  | ok work =>
    have readable : ¬ repository.Unreadable (state.statuses.find? project) kind := by
      intro unreadable
      obtain ⟨report, fails⟩ := Repository.prepare_error.2 unreadable
      simp [prepared] at fails
    cases work with
    | none =>
      simp only [run, indexRepository_prepare, prepared]
      exact ⟨[], rfl, readable, ⟨by simp, by simp, by simp⟩, by simp, by simp⟩
    | some work =>
      obtain ⟨plan, changes⟩ := work
      obtain ⟨stale, collected⟩ := Repository.prepare_some prepared
      simp only [run, indexRepository_prepare, prepared]
      generalize planned : changes.upserts state.indexer.index kind project ++
        changes.removals state.indexer.index kind project = operations
      obtain ⟨log, recorded⟩ := Indexer.deliver_recording backend operations
        (state.indexer, state.backend, [])
      obtain ⟨batches, solid, sent, failed, after, delivered, -, -, -, lost⟩ :=
        Indexer.deliver_replay backend.recording operations (state.indexer, state.backend, [])
      obtain ⟨bodies, answers⟩ := backend.log_replay (batches.map Operation.body) state.backend
      -- the plain run and the logged one report the same failures
      have same := recorded.symm.trans delivered
      obtain rfl : (Indexer.deliver backend operations (state.indexer, state.backend)).1 = failed :=
        congrArg Prod.fst same
      have logged : log = _ := congrArg (fun sent => sent.2.2.2) same
      rw [← logged] at bodies answers
      rw [← answers] at lost
      rw [recorded]
      refine ⟨log, rfl, readable, ?_, fun idle => absurd idle stale, fun _ =>
        ⟨changes, batches, collected, planned ▸ sent, bodies, lost, ?_⟩⟩
      · refine ⟨by simp [stale], fun unmoved => ?_, fun moved => ?_⟩
        · exact if_neg (Bool.eq_false_iff.1 unmoved)
        · rw [if_pos moved]
          exact fun other => state.statuses.find?_recordSuccess stale project other now
      · intro request member harmed
        obtain ⟨reference, fails⟩ := harmed.fails (solid _ (List.of_mem_zip member).1)
        have named := (lost reference).2 (Or.inr ⟨request, member, fails⟩)
        exact List.isEmpty_eq_false_iff.2 (List.ne_nil_of_mem named)

end SearchRelay
