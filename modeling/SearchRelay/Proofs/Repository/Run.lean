import SearchRelay.Proofs.Indexer.Candor
import SearchRelay.Proofs.Repository.Shelf
import SearchRelay.Proofs.Repository.Status

/-!
One run in front of a cluster that takes everything: every change arrives, nothing fails, and the
status moves to the head. Whether the index is in line afterwards depends on the names alone.
-/

namespace SearchRelay

/-! ### What is sent -/

theorem portable_document {project : Nat} (small : project < 2 ^ 64) (type key : String)
    {inner : List (String × Json)}
    (members : ∀ entry ∈ inner, entry.2.Portable ∧ entry.2.nesting ≤ 1) :
    (Json.object [("type", .str type), ("project_id", .ofNat project),
      (key, .object inner)]).Portable := by
  have shallow : (Json.object inner).nesting ≤ 2 :=
    Json.nesting_object_le fun entry inside => (members entry inside).2
  have within : (Json.object inner).Portable := by
    apply Json.Portable.object fun entry inside => (members entry inside).1
    exact fun entry inside => Nat.lt_of_le_of_lt (members entry inside).2 (by decide)
  have number := Json.Portable.ofNat small
  apply Json.Portable.object
  · simp only [List.forall_mem_cons]
    exact ⟨.str type, number, within, nofun⟩
  · simp only [List.forall_mem_cons]
    exact ⟨Nat.zero_lt_succ _, Nat.zero_lt_succ _, Nat.lt_of_le_of_lt shallow (by decide), nofun⟩

theorem Changes.fileDocument_portable {project : Nat} (small : project < 2 ^ 64) (kind : Kind)
    (commit path content : String) :
    (fileDocument kind project commit path content).Portable := by
  apply portable_document small
  simp [Json.Portable.str, Json.nesting]

theorem Changes.commitDocument_portable {project : Nat} (small : project < 2 ^ 64)
    (commit : Commit) : (commitDocument project commit).Portable := by
  have author : (Json.object [("name", .str commit.author)]).Portable ∧
      (Json.object [("name", .str commit.author)]).nesting ≤ 1 := by
    refine ⟨Json.Portable.object ?_ ?_, Json.nesting_object_le ?_⟩
    · simp [Json.Portable.str]
    · simp [Json.nesting, Json.maxDepth]
    · simp [Json.nesting]
  apply portable_document small
  simp [Json.Portable.str, Json.nesting, author]

theorem Shelf.operations_portable {shelf : Shelf} {changes : Changes}
    (small : shelf.project < 2 ^ 64) :
    ∀ operation ∈ shelf.operations changes, operation.Portable := by
  intro operation member document same
  rcases mem_operations.1 member with ⟨path, content, _, rfl⟩ | ⟨commit, _, rfl⟩ | ⟨path, _, rfl⟩ |
    ⟨id, _, rfl⟩
  · cases same
    exact Changes.fileDocument_portable small _ _ _ _
  · cases same
    exact Changes.commitDocument_portable small commit
  · cases same
  · cases same

namespace Indexer

/-- Nothing waits, everything that failed was reported, and the cluster takes what comes. -/
structure Settled (now : Indexer × MemoryCluster) : Prop where
  idle : now.1.pending = #[]
  reported : now.1.unreported = #[]
  ready : now.2.Open
  welcoming : now.2.rejected = []

variable {now : Indexer × MemoryCluster}

theorem refused_nil (operations : List Operation) : refused [] operations = [] := by
  rw [refused, List.filter_eq_nil_iff.2 (by simp [Operation.isRefused])]
  rfl

theorem Sends.submitAll {backend : Backend σ} {origin : σ} {added : List Operation}
    {known : List Reference} {batches : List (List Operation)} {now : Indexer × σ}
    (sends : Sends backend origin added known batches now) (operations : List Operation) :
    ∃ more, (∀ batch ∈ more, batch ≠ []) ∧
      Sends backend origin (added ++ operations) known (batches ++ more)
        (now.1.submitAll backend operations now.2) ∧
      (now.1.submitAll backend operations now.2).1.index = now.1.index := by
  induction operations generalizing added batches now with
  | nil => exact ⟨[], List.forall_mem_nil _, by simpa [Indexer.submitAll] using sends, rfl⟩
  | cons operation operations ih =>
    obtain ⟨first, solid, joined, -⟩ := sends.submit operation
    obtain ⟨more, others, all, index⟩ := ih joined
    refine ⟨first ++ more, List.forall_mem_append.2 ⟨solid, others⟩, ?_,
      index.trans (submit_settings backend now.1 operation now.2).1⟩
    rw [List.append_assoc, List.append_assoc] at all
    exact all

/-- Adds operations and sends everything that waits. -/
def deliver (backend : Backend σ) (operations : List Operation) (now : Indexer × σ) :
    List Reference × Indexer × σ :=
  let (indexer, state) := now.1.submitAll backend operations now.2
  indexer.flush backend state

/-- Whatever the backend answers, all operations are sent, and every failure is reported. -/
theorem deliver_replay (backend : Backend σ) (operations : List Operation) (now : Indexer × σ) :
    ∃ batches, (∀ batch ∈ batches, batch ≠ []) ∧
      batches.flatten = now.1.pending.toList ++ operations ∧
      let asked := backend.replay (batches.map Operation.body) now.2
      ∃ failed after, deliver backend operations now = (failed, after, asked.2) ∧
        after.pending = #[] ∧ after.unreported = #[] ∧ after.index = now.1.index ∧
        ∀ reference, reference ∈ failed ↔
          Lost now.1.unreported.toList batches asked.1 reference := by
  obtain ⟨batches, solid, sends, index⟩ := (Sends.start now.1 now.2).submitAll operations
  obtain ⟨returned, failed, flushed, whole, lost, -⟩ := sends.flush
  exact ⟨_, List.forall_mem_append.2 ⟨solid, waiting_solid _⟩, whole, returned, _, flushed, rfl, rfl,
    index, lost⟩

/-- Operations that are delivered are performed in their order, and if one of them is left out,
some reference fails. -/
theorem deliver_candid {backend : Backend σ} {documents : σ → List StoredDocument}
    (candid : backend.Candid documents) {operations : List Operation} (now : Indexer × σ)
    (portable : ∀ operation ∈ now.1.pending.toList ++ operations, operation.Portable) :
    let delivered := deliver backend operations now
    ∃ performed, performed.Sublist (now.1.pending.toList ++ operations) ∧
      documents delivered.2.2 = Operation.applyAll [] performed (documents now.2) ∧
      (delivered.1 = [] → performed = now.1.pending.toList ++ operations) := by
  obtain ⟨batches, -, whole, failed, after, delivered, -, -, -, lost⟩ :=
    deliver_replay backend operations now
  rw [← whole] at portable ⊢
  obtain ⟨performed, inside, documents, all⟩ := candid.replay portable now.2
  rw [delivered]
  refine ⟨performed, inside, documents, fun nothing => all.resolve_right ?_⟩
  rintro ⟨reference, fails⟩
  have named := (lost reference).2 (Or.inr fails)
  obtain rfl : failed = [] := nothing
  exact List.not_mem_nil named

/-- An open cluster performs all operations but those that it refuses, and these fail. -/
theorem deliver_open (idle : now.1.pending = #[]) (reported : now.1.unreported = #[])
    (ready : now.2.Open) {operations : List Operation}
    (portable : ∀ operation ∈ operations, operation.Portable) :
    ∃ failed indexer received, deliver MemoryCluster.backend operations now =
        (failed, indexer, { now.2.perform operations with received := received }) ∧
      indexer.pending = #[] ∧ indexer.unreported = #[] ∧ indexer.index = now.1.index ∧
      ∀ reference, reference ∈ failed ↔ reference ∈ refused now.2.rejected operations := by
  obtain ⟨batches, -, whole, failed, indexer, delivered, pending, unreported, index, lost⟩ :=
    deliver_replay MemoryCluster.backend operations now
  rw [idle] at whole
  rw [reported] at lost
  have same : batches.flatten = operations := whole
  rw [← same] at portable ⊢
  obtain ⟨⟨received, after⟩, failures⟩ := MemoryCluster.replay_open ready portable
  refine ⟨failed, indexer, received, ?_, pending, unreported, index, ?_⟩
  · rw [same, delivered, after, same]
  · intro reference
    rw [lost, ← failures, Lost]
    exact or_iff_right List.not_mem_nil

end Indexer

theorem Plan.Fits.recorded {repository : MemoryRepository} {last head : Option String} {plan : Plan}
    (fits : plan.Fits repository last head) (table : StatusTable) (project : Nat) (now : Instant) :
    (table.recordSuccess project plan now).indexed project = head := by
  cases fits with
  | incremental =>
    rw [StatusTable.indexed, StatusTable.recordSuccess]
    exact congrArg _ (table.find?_record ⟨project, _, now⟩)
  | full last head =>
    rw [StatusTable.indexed, StatusTable.recordSuccess]
    exact congrArg _ (table.find?_record ⟨project, head, now⟩)
  | purge => exact congrArg _ (table.find?_remove project)

/-! ### A run -/

def RunState.shelf (state : RunState MemoryCluster) (kind : RepositoryKind) (project : Nat) :
    Shelf :=
  ⟨state.indexer.index, kind, project⟩

/-- Everything that was submitted has arrived, and the cluster takes what comes. -/
def RunState.Settled (state : RunState MemoryCluster) : Prop :=
  Indexer.Settled (state.indexer, state.backend)

variable {repository : MemoryRepository} {kind : RepositoryKind} {project : Nat} {now : Instant}
  {state : RunState MemoryCluster}

/-- At the head of the last run there is nothing to do. -/
theorem indexRepository_upToDate {backend : Backend σ} {state : RunState σ}
    (same : state.statuses.indexed project = repository.head) :
    indexRepository backend repository.view project kind now state =
      (.ok ⟨.upToDate, 0, 0, [], false⟩, state) := by
  have plan : Plan.decide (state.statuses.find? project) repository.graph.isAncestor
      repository.head = .upToDate := Plan.decide_upToDate.2 same
  simp only [indexRepository, MemoryRepository.view, plan, if_pos]

theorem indexRepository_delivered {repository : Repository} {head : Option String}
    {changes : Changes} {state : RunState σ} (backend : Backend σ)
    (headed : repository.head = .ok head)
    (stale : Plan.decide (state.statuses.find? project) repository.isAncestor head ≠ .upToDate)
    (collected : Changes.collect repository
      (Plan.decide (state.statuses.find? project) repository.isAncestor head)
      (state.statuses.indexed project) kind = .ok changes) (now : Instant) :
    let plan := Plan.decide (state.statuses.find? project) repository.isAncestor head
    let upserts := changes.upserts state.indexer.index kind project
    let removals := changes.removals state.indexer.index kind project
    let sent := Indexer.deliver backend (upserts ++ removals) (state.indexer, state.backend)
    indexRepository backend repository project kind now state =
      (.ok ⟨plan, upserts.length, removals.length, sent.1, sent.1.isEmpty⟩,
        ⟨sent.2.1,
          if sent.1.isEmpty then state.statuses.recordSuccess project plan now else state.statuses,
          sent.2.2⟩) := by
  dsimp only [StatusTable.indexed] at collected
  simp only [indexRepository, headed, if_neg stale, collected, Indexer.deliver]
  rfl

/-- At any other head a run delivers changes that lead there, and the status moves to it unless
something fails. -/
theorem indexRepository_view {state : RunState σ} (backend : Backend σ) (whole : repository.Whole)
    (first : ∀ id, state.statuses.indexed project = some id → (repository.find? id).isSome)
    (stale : state.statuses.indexed project ≠ repository.head) (kind : RepositoryKind)
    (now : Instant) :
    let last := state.statuses.indexed project
    let plan := Plan.decide (state.statuses.find? project) repository.graph.isAncestor
      repository.head
    let shelf : Shelf := ⟨state.indexer.index, kind, project⟩
    ∃ changes, plan.Fits repository last repository.head ∧
      changes.Leads repository kind last repository.head ∧
      ((∀ commit, plan ≠ .full commit) → changes.Thrifty repository last) ∧
      (∀ commit, plan = .full commit → changes.Thorough repository kind repository.head) ∧
      let sent := Indexer.deliver backend (shelf.operations changes) (state.indexer, state.backend)
      ∃ indexed deleted, indexRepository backend repository.view project kind now state =
        (.ok ⟨plan, indexed, deleted, sent.1, sent.1.isEmpty⟩,
          ⟨sent.2.1,
            if sent.1.isEmpty then state.statuses.recordSuccess project plan now
              else state.statuses,
            sent.2.2⟩) := by
  intro last plan shelf
  have behind : plan ≠ .upToDate := fun same => stale (Plan.decide_upToDate.1 same)
  have fits := Plan.decide_fits behind
  obtain ⟨changes, collected, leads, thrifty, thorough⟩ :=
    Changes.collect_leads whole fits first whole.head kind
  exact ⟨changes, fits, leads, thrifty, thorough, _, _,
    indexRepository_delivered backend rfl behind collected now⟩

/-- In front of an open cluster everything is performed but what it refuses. -/
theorem indexRepository_open (idle : state.indexer.pending = #[])
    (reported : state.indexer.unreported = #[]) (ready : state.backend.Open)
    (small : project < 2 ^ 64) (whole : repository.Whole)
    (first : ∀ id, state.statuses.indexed project = some id → (repository.find? id).isSome)
    (stale : state.statuses.indexed project ≠ repository.head) (kind : RepositoryKind)
    (now : Instant) :
    let last := state.statuses.indexed project
    let plan := Plan.decide (state.statuses.find? project) repository.graph.isAncestor
      repository.head
    let operations changes := (state.shelf kind project).operations changes
    ∃ changes failed after,
      plan.Fits repository last repository.head ∧
      changes.Leads repository kind last repository.head ∧
      ((∀ commit, plan ≠ .full commit) → changes.Thrifty repository last) ∧
      Indexer.deliver MemoryCluster.backend (operations changes) (state.indexer, state.backend) =
        (failed, after.indexer, after.backend) ∧
      after.indexer.pending = #[] ∧ after.indexer.unreported = #[] ∧
      after.indexer.index = state.indexer.index ∧
      (∃ received, after.backend =
        { state.backend.perform (operations changes) with received := received }) ∧
      (∀ reference, reference ∈ failed ↔
        reference ∈ Indexer.refused state.backend.rejected (operations changes)) ∧
      after.statuses =
        (if failed.isEmpty then state.statuses.recordSuccess project plan now
          else state.statuses) ∧
      ∃ indexed deleted,
        indexRepository MemoryCluster.backend repository.view project kind now state =
          (.ok ⟨plan, indexed, deleted, failed, failed.isEmpty⟩, after) := by
  intro last plan operations
  obtain ⟨changes, fits, leads, thrifty, -, indexed, deleted, run⟩ :=
    indexRepository_view MemoryCluster.backend whole first stale kind now
  have portable : ∀ operation ∈ operations changes, operation.Portable :=
    Shelf.operations_portable small
  have start : (state.indexer, state.backend).2.Open := ready
  obtain ⟨failed, indexer, received, sent, pending, unreported, index, failures⟩ :=
    Indexer.deliver_open idle reported start portable
  have delivered : Indexer.deliver MemoryCluster.backend
      (Shelf.operations ⟨state.indexer.index, kind, project⟩ changes)
      (state.indexer, state.backend) = _ := sent
  simp only [delivered] at run
  exact ⟨changes, failed, _, fits, leads, thrifty, sent, pending, unreported, index,
    ⟨received, rfl⟩, failures, rfl, indexed, deleted, run⟩

theorem indexRepository_stale (settled : state.Settled) (small : project < 2 ^ 64)
    (whole : repository.Whole)
    (first : ∀ id, state.statuses.indexed project = some id → (repository.find? id).isSome)
    (stale : state.statuses.indexed project ≠ repository.head) (kind : RepositoryKind)
    (now : Instant) :
    let plan := Plan.decide (state.statuses.find? project) repository.graph.isAncestor
      repository.head
    let shelf := state.shelf kind project
    ∃ changes after,
      plan.Fits repository (state.statuses.indexed project) repository.head ∧
      changes.Leads repository kind (state.statuses.indexed project) repository.head ∧
      ((∀ commit, plan ≠ .full commit) →
        changes.Thrifty repository (state.statuses.indexed project)) ∧
      Indexer.deliver MemoryCluster.backend (shelf.operations changes)
        (state.indexer, state.backend) = ([], after.indexer, after.backend) ∧
      after.Settled ∧ after.indexer.index = state.indexer.index ∧
      after.backend.documents =
        Operation.applyAll [] (shelf.operations changes) state.backend.documents ∧
      after.statuses = state.statuses.recordSuccess project plan now ∧
      ∃ indexed deleted,
        indexRepository MemoryCluster.backend repository.view project kind now state =
          (.ok ⟨plan, indexed, deleted, [], true⟩, after) := by
  intro plan shelf
  obtain ⟨changes, failed, after, fits, leads, thrifty, sent, pending, unreported, index,
      ⟨received, performed⟩, failures, statuses, indexed, deleted, run⟩ :=
    indexRepository_open settled.idle settled.reported settled.ready small whole first stale kind now
  have welcoming : state.backend.rejected = [] := settled.welcoming
  rw [welcoming, Indexer.refused_nil] at failures
  obtain rfl : failed = [] := List.eq_nil_iff_forall_not_mem.2 fun reference named =>
    List.not_mem_nil ((failures reference).1 named)
  refine ⟨changes, after, fits, leads, thrifty, sent, ⟨pending, unreported, ?_, ?_⟩, index, ?_,
    statuses, indexed, deleted, run⟩
  · rw [performed]
    exact ⟨settled.ready.here, settled.ready.calm⟩
  · rw [performed]
    exact welcoming
  · rw [performed, MemoryCluster.perform, welcoming]

end SearchRelay
