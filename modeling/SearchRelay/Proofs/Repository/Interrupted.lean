import SearchRelay.Proofs.Repository.Run

/-!
A run that is not recorded, and a later one that is. The later run compares its head with the last
recorded commit and does not see what the first one managed to write. It takes care of every name
but those under which the two have the same, so what was written under such a name stays.
-/

namespace SearchRelay

namespace MemoryRepository

variable {repository : MemoryRepository} {last head : Option String}

def PathsApart (repository : MemoryRepository) : Prop :=
  ∀ id stored, repository.find? id = some stored →
    ∀ path, Entries.find? stored.tree path ≠ none → repository.find? path = none

theorem PathsApart.unknown (apart : repository.PathsApart) {path : String}
    (there : Entries.find? (repository.files head) path ≠ none) : repository.find? path = none := by
  rw [files] at there
  cases found : head.bind repository.find? with
  | none =>
    rw [found] at there
    exact absurd rfl there
  | some stored =>
    obtain ⟨id, -, known⟩ := Option.bind_eq_some_iff.1 found
    rw [found] at there
    exact apart id stored known path there

theorem PathsApart.not_clashes (apart : repository.PathsApart) (whole : repository.Whole)
    (first : ∀ id, last = some id → (repository.find? id).isSome)
    (known : ∀ id, head = some id → (repository.find? id).isSome) :
    ¬ repository.Clashes last head :=
  whole.not_clashes first known fun _ there => there.elim apart.unknown apart.unknown

/-- Both heads have the same under the name, and unless the first one is in the history of the
second one, they have nothing there. -/
def PassesOver (repository : MemoryRepository) (kind : RepositoryKind) (last head : Option String)
    (name : String) : Prop :=
  repository.Alike kind last head name ∧
    ((∃ start, last = some start ∧ repository.Behind head start) ∨
      Entries.find? (repository.files head) name = none ∧
        ¬ (kind.indexesCommits ∧ repository.Behind head name))

end MemoryRepository

open MemoryRepository (commit?_id)

namespace Shelf

variable {shelf : Shelf} {repository : MemoryRepository} {last head : Option String}
  {changes : Changes} {before after : List StoredDocument}

/-! ### What changes touch -/

theorem touched_iff (leads : changes.Leads repository shelf.kind last head)
    (whole : repository.Whole) (known : ∀ id, head = some id → (repository.find? id).isSome)
    (thrifty : (∃ start, last = some start ∧ repository.Behind head start) →
      changes.Thrifty repository last)
    (thorough : (¬ ∃ start, last = some start ∧ repository.Behind head start) →
      changes.Thorough repository shelf.kind head) (name : String) :
    (∃ operation ∈ shelf.operations changes, operation.Targets shelf.index
        (Reference.repositoryId shelf.kind.fileKind shelf.project name)) ↔
      ¬ repository.PassesOver shelf.kind last head name := by
  constructor
  · rintro ⟨operation, member, targets⟩ ⟨alike, quiet⟩
    rcases leaves_of_targets leads member targets with ⟨content, inside, -⟩ |
      ⟨commit, inside, rfl, -⟩ | ⟨gone, -⟩ | ⟨gone, -⟩
    · have has := leads.files name content inside
      rcases quiet with inHistory | ⟨missing, -⟩
      · exact (thrifty inHistory).files name content inside (alike.files.trans has)
      · cases missing.symm.trans has
    · obtain ⟨code, -, behind⟩ := leads.commits commit inside
      rcases quiet with inHistory | ⟨-, uncommitted⟩
      · exact (thrifty inHistory).commits commit inside ((alike.commits code).2 behind)
      · exact uncommitted ⟨code, behind⟩
    · obtain ⟨there, missing⟩ := (leads.lostFiles name).1 gone
      exact there (alike.files.trans missing)
    · obtain ⟨code, old, missing⟩ := (leads.lostCommits name).1 gone
      exact missing ((alike.commits code).1 old)
  · intro noticed
    by_cases alike : repository.Alike shelf.kind last head name
    · -- everything is written, and there is something under the name
      have full := thorough fun inHistory => noticed ⟨alike, Or.inl inHistory⟩
      cases has : Entries.find? (repository.files head) name with
      | some content =>
        have new := full.files name content has
        exact ⟨_, mem_operations.2 (Or.inl ⟨name, content, new, rfl⟩), rfl, rfl⟩
      | none =>
        obtain ⟨code, behind⟩ : shelf.kind.indexesCommits ∧ repository.Behind head name :=
          Classical.byContradiction fun nothing => noticed ⟨alike, Or.inr ⟨has, nothing⟩⟩
        obtain ⟨commit, said⟩ := whole.said known behind
        have new := full.commits code name commit said behind
        obtain rfl := commit?_id said
        exact ⟨_, mem_operations.2 (Or.inr (Or.inl ⟨commit, new, rfl⟩)), rfl,
          commitId_eq_fileId code commit.id⟩
    · exact touched_of_unlike leads whole known alike

/-- The operation is on a document that the repository may own. -/
def Concerns (shelf : Shelf) (operation : Operation) : Prop :=
  ∃ name,
    operation.Targets shelf.index
      (Reference.repositoryId shelf.kind.fileKind shelf.project name) ∨
    operation.Targets shelf.index (Reference.repositoryId .commit shelf.project name)

/-- Operations were performed that come from the changes, or do not concern the repository. -/
structure Performed (shelf : Shelf) (changes : Changes) (before after : List StoredDocument)
    (performed : List Operation) : Prop where
  result : after = Operation.applyAll [] performed before
  ours : ∀ operation ∈ performed,
    operation ∈ shelf.operations changes ∨ ¬ shelf.Concerns operation

variable {performed : List Operation}

theorem Performed.single (work : shelf.Performed changes before after performed) {name : String}
    (single : (shelf.fileAt name before).length ≤ 1) : (shelf.fileAt name after).length ≤ 1 := by
  rw [work.result]
  exact Operation.single_applyAll single

theorem Performed.untouched (work : shelf.Performed changes before after performed) {name : String}
    (untouched : ¬ ∃ operation ∈ shelf.operations changes, operation.Targets shelf.index
      (Reference.repositoryId shelf.kind.fileKind shelf.project name)) :
    shelf.fileAt name after = shelf.fileAt name before := by
  rw [work.result]
  apply Operation.held_applyAll_other
  intro operation member targets
  rcases work.ours operation member with ours | foreign
  · exact untouched ⟨operation, ours, targets⟩
  · exact foreign ⟨name, Or.inl targets⟩

theorem Performed.commitAt (work : shelf.Performed changes before after performed)
    (leads : changes.Leads repository shelf.kind last head) (wiki : ¬ shelf.kind.indexesCommits)
    (id : String) : shelf.commitAt id after = shelf.commitAt id before := by
  rw [work.result]
  apply Operation.held_applyAll_other
  intro operation member targets
  rcases work.ours operation member with ours | foreign
  · exact not_targets_commit leads wiki ours id targets
  · exact foreign ⟨id, Or.inr targets⟩

theorem Performed.shows (work : shelf.Performed changes before after performed)
    (leads : changes.Leads repository shelf.kind last head) (whole : repository.Whole)
    (known : ∀ id, head = some id → (repository.find? id).isSome)
    (apart : shelf.kind.indexesCommits → ¬ repository.Clashes last head) {name : String}
    (single : (shelf.fileAt name before).length ≤ 1)
    (touched : ∃ operation ∈ performed, operation.Targets shelf.index
      (Reference.repositoryId shelf.kind.fileKind shelf.project name)) :
    shelf.Shows repository head name (shelf.fileAt name after) := by
  rw [work.result]
  refine shows_applyAll leads whole known apart single (fun operation member targets => ?_) touched
  exact (work.ours operation member).resolve_right fun foreign => foreign ⟨name, Or.inl targets⟩

theorem Performed.kept_or_shows (work : shelf.Performed changes before after performed)
    (leads : changes.Leads repository shelf.kind last head) (whole : repository.Whole)
    (known : ∀ id, head = some id → (repository.find? id).isSome)
    (apart : shelf.kind.indexesCommits → ¬ repository.Clashes last head) {name : String}
    (single : (shelf.fileAt name before).length ≤ 1) :
    shelf.fileAt name after = shelf.fileAt name before ∨
      shelf.Shows repository head name (shelf.fileAt name after) := by
  by_cases touched : ∃ operation ∈ performed, operation.Targets shelf.index
      (Reference.repositoryId shelf.kind.fileKind shelf.project name)
  · exact Or.inr (work.shows leads whole known apart single touched)
  · left
    rw [work.result]
    exact Operation.held_applyAll_other fun operation member targets =>
      touched ⟨operation, member, targets⟩

end Shelf

/-! ### One run -/

variable {σ : Type} {backend : Backend σ} {documents : σ → List StoredDocument} {shelf : Shelf}
  {repository later : MemoryRepository} {state failed resumed done : RunState σ}

/-- The indexer writes to the index of the shelf, and what waits in it does not concern the
repository. -/
structure RunState.Ready (shelf : Shelf) (state : RunState σ) : Prop where
  index : state.indexer.index = shelf.index
  waiting : ∀ operation ∈ state.indexer.pending.toList,
    operation.Portable ∧ ¬ shelf.Concerns operation

/-- What a run came to that had something to do. -/
structure Ran (documents : σ → List StoredDocument) (shelf : Shelf) (repository : MemoryRepository)
    (state after : RunState σ) (summary : RunSummary) (changes : Changes)
    (performed : List Operation) : Prop where
  leads : changes.Leads repository shelf.kind (state.statuses.indexed shelf.project) repository.head
  touched : ∀ name, (∃ operation ∈ shelf.operations changes, operation.Targets shelf.index
      (Reference.repositoryId shelf.kind.fileKind shelf.project name)) ↔
    ¬ repository.PassesOver shelf.kind (state.statuses.indexed shelf.project) repository.head name
  work : shelf.Performed changes (documents state.backend) (documents after.backend) performed
  recorded : summary.recorded = true → ∀ operation ∈ shelf.operations changes, operation ∈ performed
  unrecorded : summary.recorded = false → after.statuses = state.statuses

theorem Ran.of_run (candid : backend.Candid documents) (small : shelf.project < 2 ^ 64)
    (whole : repository.Whole) (ready : state.Ready shelf)
    (first : ∀ id, state.statuses.indexed shelf.project = some id → (repository.find? id).isSome)
    (stale : state.statuses.indexed shelf.project ≠ repository.head) {now : Instant}
    {summary : RunSummary} {after : RunState σ}
    (run : indexRepository backend repository.view shelf.project shelf.kind now state =
      (.ok summary, after)) :
    ∃ changes performed,
      Ran documents shelf repository state after summary changes performed := by
  obtain ⟨changes, fits, leads, thrifty, thorough, indexed, deleted, told⟩ :=
    indexRepository_view backend whole first stale shelf.kind now
  rw [ready.index] at told
  have portable : ∀ operation ∈ state.indexer.pending.toList ++ shelf.operations changes,
      operation.Portable := by
    refine List.forall_mem_append.2 ⟨fun operation member => (ready.waiting operation member).1, ?_⟩
    exact Shelf.operations_portable small
  obtain ⟨performed, inside, result, all⟩ :=
    Indexer.deliver_candid candid (state.indexer, state.backend) portable
  have same := told.symm.trans run
  simp only [Prod.mk.injEq, Except.ok.injEq] at same
  obtain ⟨rfl, rfl⟩ := same
  refine ⟨changes, performed, leads, ?_, ⟨result, ?_⟩, ?_, ?_⟩
  · refine Shelf.touched_iff leads whole whole.head ?_ ?_
    · exact fun inHistory => thrifty (Plan.decide_inHistory inHistory)
    · intro rewritten
      rcases fits.full_of_rewritten rewritten with nowhere | ⟨commit, full⟩
      · rw [nowhere]
        exact .nowhere repository shelf.kind changes
      · exact thorough commit full
  · intro operation member
    rcases List.mem_append.1 (inside.subset member) with waiting | ours
    · exact Or.inr (ready.waiting operation waiting).2
    · exact Or.inl ours
  · intro recorded operation member
    rw [all (List.isEmpty_iff.1 recorded)]
    exact List.mem_append_right _ member
  · intro unrecorded
    exact if_neg (ne_true_of_eq_false unrecorded)

/-! ### Two runs -/

/-- From an index in line with the last recorded commit a run was not recorded. Later, with the
documents and the status as they were then, a run was. -/
structure Interrupted (backend : Backend σ) (documents : σ → List StoredDocument) (shelf : Shelf)
    (repository later : MemoryRepository) (state failed resumed done : RunState σ) : Prop where
  small : shelf.project < 2 ^ 64
  whole : repository.Whole
  laterWhole : later.Whole
  grows : repository.Grows later
  apart : shelf.kind.indexesCommits → later.PathsApart
  known : ∀ id, state.statuses.indexed shelf.project = some id → (repository.find? id).isSome
  inLine : shelf.InLine repository (state.statuses.indexed shelf.project) (documents state.backend)
  ready : state.Ready shelf
  unrecorded : ∃ now summary, summary.recorded = false ∧
    indexRepository backend repository.view shelf.project shelf.kind now state =
      (.ok summary, failed)
  untilThen : documents resumed.backend = documents failed.backend ∧
    resumed.statuses.find? shelf.project = failed.statuses.find? shelf.project
  readyAgain : resumed.Ready shelf
  recorded : ∃ now summary, summary.recorded = true ∧
    indexRepository backend later.view shelf.project shelf.kind now resumed = (.ok summary, done)

namespace Interrupted

theorem lastKnown
    (interrupted : Interrupted backend documents shelf repository later state failed resumed done)
    (id : String) (last : state.statuses.indexed shelf.project = some id) :
    (later.find? id).isSome :=
  interrupted.grows.isSome (interrupted.known id last)

theorem headKnown
    (interrupted : Interrupted backend documents shelf repository later state failed resumed done)
    (id : String) (head : repository.head = some id) : (later.find? id).isSome :=
  interrupted.grows.isSome (interrupted.whole.head id head)

/-- What the run that was not recorded leaves under a name is from before or as its head has it. -/
theorem kept_or_shows (candid : backend.Candid documents)
    (interrupted : Interrupted backend documents shelf repository later state failed resumed done) :
    failed.statuses = state.statuses ∧
      (¬ shelf.kind.indexesCommits → ∀ id, shelf.commitAt id (documents failed.backend) = []) ∧
      ∀ name, (shelf.fileAt name (documents failed.backend)).length ≤ 1 ∧
        (shelf.fileAt name (documents failed.backend) =
            shelf.fileAt name (documents state.backend) ∨
          shelf.Shows later repository.head name
            (shelf.fileAt name (documents failed.backend))) := by
  obtain ⟨now, summary, unrecorded, run⟩ := interrupted.unrecorded
  have inLine := interrupted.inLine
  have single := inLine.single interrupted.whole interrupted.known
  by_cases same : state.statuses.indexed shelf.project = repository.head
  · obtain rfl : state = failed :=
      congrArg Prod.snd ((indexRepository_upToDate same).symm.trans run)
    exact ⟨rfl, inLine.noCommits, fun name => ⟨single name, Or.inl rfl⟩⟩
  · obtain ⟨changes, performed, ran⟩ := Ran.of_run candid interrupted.small interrupted.whole
      interrupted.ready interrupted.known same run
    have apart (code : shelf.kind.indexesCommits) :
        ¬ repository.Clashes (state.statuses.indexed shelf.project) repository.head := by
      rintro ⟨name, file, commit⟩
      rw [← interrupted.grows.files interrupted.known,
        ← interrupted.grows.files interrupted.whole.head] at file
      rw [← interrupted.grows.behind interrupted.whole interrupted.known,
        ← interrupted.grows.behind interrupted.whole interrupted.whole.head] at commit
      exact (interrupted.apart code).not_clashes interrupted.laterWhole interrupted.lastKnown
        interrupted.headKnown ⟨name, file, commit⟩
    refine ⟨ran.unrecorded unrecorded, ?_, fun name => ⟨ran.work.single (single name), ?_⟩⟩
    · intro wiki id
      rw [ran.work.commitAt ran.leads wiki, inLine.noCommits wiki]
    · refine (ran.work.kept_or_shows ran.leads interrupted.whole interrupted.whole.head apart
        (single name)).imp_right fun shows => ?_
      exact shows.grow interrupted.grows interrupted.whole interrupted.whole.head

theorem inLine_iff_passedOver (candid : backend.Candid documents)
    (interrupted : Interrupted backend documents shelf repository later state failed resumed done) :
    let last := state.statuses.indexed shelf.project
    shelf.InLine later later.head (documents done.backend) ↔
      ∀ name, later.PassesOver shelf.kind last later.head name →
        shelf.Shows later last name (shelf.fileAt name (documents failed.backend)) := by
  intro last
  obtain ⟨statuses, bare, found⟩ := interrupted.kept_or_shows candid
  obtain ⟨now, summary, recorded, run⟩ := interrupted.recorded
  obtain ⟨documents, status⟩ := interrupted.untilThen
  have at_last : resumed.statuses.indexed shelf.project = last := by
    rw [StatusTable.indexed, status, statuses]
    rfl
  have first : ∀ id, resumed.statuses.indexed shelf.project = some id →
      (later.find? id).isSome := at_last ▸ interrupted.lastKnown
  have stale : resumed.statuses.indexed shelf.project ≠ later.head := by
    intro same
    have idle := congrArg Prod.fst ((indexRepository_upToDate same).symm.trans run)
    cases Except.ok.inj idle
    cases recorded
  obtain ⟨changes, performed, ran⟩ := Ran.of_run candid interrupted.small interrupted.laterWhole
    interrupted.readyAgain first stale run
  have leads := ran.leads
  have touched := ran.touched
  have work := ran.work
  rw [at_last] at leads touched
  rw [documents] at work
  have apart (code : shelf.kind.indexesCommits) : ¬ later.Clashes last later.head :=
    (interrupted.apart code).not_clashes interrupted.laterWhole interrupted.lastKnown
      interrupted.laterWhole.head
  have untouched {name : String} (passed : later.PassesOver shelf.kind last later.head name) :=
    work.untouched fun there => (touched name).1 there passed
  rw [Shelf.inLine_iff]
  constructor
  · rintro ⟨shows, -⟩ name passed
    rw [← untouched passed]
    exact (shows name).alike passed.1.symm
  · -- the operations bring the head's part under every name that they touch
    intro kept
    refine ⟨fun name => ?_, fun wiki id => (work.commitAt leads wiki id).trans (bare wiki id)⟩
    by_cases passed : later.PassesOver shelf.kind last later.head name
    · rw [untouched passed]
      exact (kept name passed).alike passed.1
    · obtain ⟨operation, member, targets⟩ := (touched name).2 passed
      exact work.shows leads interrupted.laterWhole interrupted.laterWhole.head apart (found name).1
        ⟨operation, ran.recorded recorded operation member, targets⟩

theorem shows_iff (candid : backend.Candid documents)
    (interrupted : Interrupted backend documents shelf repository later state failed resumed done)
    (name : String) :
    let last := state.statuses.indexed shelf.project
    shelf.Shows later last name (shelf.fileAt name (documents failed.backend)) ↔
      later.Alike shelf.kind last repository.head name ∨
        shelf.fileAt name (documents failed.backend) =
          shelf.fileAt name (documents state.backend) := by
  intro last
  have before := interrupted.inLine.grow interrupted.grows interrupted.whole interrupted.known
  have shown := (Shelf.inLine_iff.1 before).1 name
  obtain ⟨-, -, found⟩ := interrupted.kept_or_shows candid
  rcases (found name).2 with kept | written
  · rw [kept]
    exact ⟨fun _ => Or.inr rfl, fun _ => shown⟩
  · constructor
    · -- what is found fits both heads, so they have the same there
      intro shows
      exact Or.inl (shows.unique written interrupted.laterWhole interrupted.lastKnown
        interrupted.headKnown)
    · rintro (alike | kept)
      · exact written.alike alike.symm
      · exact kept ▸ shown

/-- Running again at the same head makes good for everything. -/
theorem inLine_of_retry (candid : backend.Candid documents)
    (interrupted : Interrupted backend documents shelf repository later state failed resumed done)
    (same : later.head = repository.head) :
    shelf.InLine later later.head (documents done.backend) := by
  apply (interrupted.inLine_iff_passedOver candid).2
  intro name passed
  exact (interrupted.shows_iff candid name).2 (Or.inl (same ▸ passed.1))

/-- A run that was not recorded does no harm to a later one exactly if it changed nothing under the
names that the later one passes over, or nothing but what its head and the last recorded commit have
alike. -/
theorem inLine_iff_unharmed (candid : backend.Candid documents)
    (interrupted : Interrupted backend documents shelf repository later state failed resumed done) :
    let last := state.statuses.indexed shelf.project
    shelf.InLine later later.head (documents done.backend) ↔
      ∀ name, later.PassesOver shelf.kind last later.head name →
        later.Alike shelf.kind last repository.head name ∨
          shelf.fileAt name (documents failed.backend) =
            shelf.fileAt name (documents state.backend) := by
  refine (interrupted.inLine_iff_passedOver candid).trans ?_
  exact forall_congr' fun name => imp_congr_right fun _ => interrupted.shows_iff candid name

/-! ### A draft that was never recorded -/

private def draft : MemoryRepository :=
  MemoryRepository.empty.commit "a" [] "Initial commit" [("f", "draft"), ("g", "x")]

private def tidied : MemoryRepository := draft.commit "b" ["a"] "Tidy up" []

private theorem draft_whole : draft.Whole ∧ MemoryRepository.empty.Grows draft :=
  MemoryRepository.whole_empty.commit rfl (List.forall_mem_nil _) _ _

private theorem tidied_whole : tidied.Whole ∧ draft.Grows tidied :=
  draft_whole.1.commit (by decide) (by decide) _ _

/-- The cluster refuses one of the two files. -/
private def picky : RunState MemoryCluster :=
  ⟨.new "main" 0 none, .empty, { MemoryCluster.empty with rejected := ["7_g"] }⟩

private def drafted : RunState MemoryCluster :=
  (indexRepository MemoryCluster.backend draft.view 7 .code (.ofSeconds 0) picky).2

private def cured : RunState MemoryCluster :=
  { drafted with backend := { drafted.backend with rejected := [] } }

private def finished (later : MemoryRepository) : RunState MemoryCluster :=
  (indexRepository MemoryCluster.backend later.view 7 .code (.ofSeconds 60) cured).2

private def desk : Shelf := ⟨"main", .code, 7⟩

private theorem draft_paths {path : String}
    (there : Entries.find? [("f", "draft"), ("g", "x")] path ≠ none) : path = "f" ∨ path = "g" := by
  simp only [Entries.find?_cons] at there
  split at there
  · exact Or.inl (Eq.symm ‹_›)
  · split at there
    · exact Or.inr (Eq.symm ‹_›)
    · exact absurd rfl there

private theorem pathsApart_of {repository : MemoryRepository}
    (trees : ∀ stored ∈ repository.commits, stored.tree = [] ∨
      stored.tree = [("f", "draft"), ("g", "x")])
    (f : repository.find? "f" = none) (g : repository.find? "g" = none) :
    repository.PathsApart := by
  intro id stored known path there
  rcases trees stored (List.mem_of_find?_eq_some known) with empty | both
  · rw [empty] at there
    exact absurd rfl there
  · rw [both] at there
    rcases draft_paths there with rfl | rfl
    · exact f
    · exact g

private theorem draft_tree :
    Entries.ofList [("f", "draft"), ("g", "x")] = [("f", "draft"), ("g", "x")] := by decide

private theorem draft_apart : draft.PathsApart := by
  refine pathsApart_of ?_ rfl rfl
  simp [draft, MemoryRepository.commit, MemoryRepository.empty, draft_tree]

private theorem tidied_apart : tidied.PathsApart := by
  refine pathsApart_of ?_ (by decide) (by decide)
  have nothing : Entries.ofList ([] : FileTree) = [] := rfl
  simp [tidied, draft, MemoryRepository.commit, MemoryRepository.empty, draft_tree, nothing]

/-- One file was refused, the other one arrived. -/
private theorem drafted_result :
    (∃ summary, summary.recorded = false ∧
      indexRepository MemoryCluster.backend draft.view 7 .code (.ofSeconds 0) picky =
        (.ok summary, drafted)) ∧
      drafted.statuses = .empty ∧ drafted.indexer.index = "main" ∧ cured.Settled ∧
      desk.fileAt "f" drafted.backend.documents ≠ [] := by
  have idle : picky.indexer.pending = #[] := rfl
  have ready : picky.backend.Open := ⟨rfl, rfl⟩
  have small : 7 < 2 ^ 64 := by decide
  have first : ∀ id, picky.statuses.indexed 7 = some id → (draft.find? id).isSome := nofun
  have stale : picky.statuses.indexed 7 ≠ draft.head := nofun
  obtain ⟨changes, failed, after, -, leads, -, -, pending, unreported, index, ⟨received, performed⟩,
      failures, statuses, indexed, deleted, run⟩ :=
    indexRepository_open idle rfl ready small draft_whole.1 first stale .code (.ofSeconds 0)
  obtain rfl : drafted = after := congrArg Prod.snd run
  have written (path content : String)
      (has : Entries.find? (draft.files draft.head) path = some content) :
      ∃ source, ⟨"main", .ofRepository .blob 7 path, some source⟩ ∈ desk.operations changes :=
    ⟨_, Shelf.mem_operations.2
      (Or.inl ⟨path, content, leads.newFiles path content has nofun, rfl⟩)⟩
  have refusing : failed.isEmpty = false := by
    obtain ⟨source, member⟩ := written "g" "x" rfl
    have named := (failures _).2 (Indexer.mem_refused.2 ⟨_, member, rfl, rfl⟩)
    cases failed with
    | nil => cases named
    | cons => rfl
  refine ⟨⟨_, refusing, run⟩, ?_, index, ⟨pending, unreported, ?_, rfl⟩, ?_⟩
  · rw [statuses, refusing]
    rfl
  · rw [cured, performed]
    exact ⟨rfl, rfl⟩
  · obtain ⟨source, member⟩ := written "f" "draft" rfl
    have leading : changes.Leads draft desk.kind none draft.head := leads
    have apart : desk.kind.indexesCommits → ¬ draft.Clashes none draft.head := fun _ =>
      draft_apart.not_clashes draft_whole.1 nofun draft_whole.1.head
    have single : (desk.fileAt "f" []).length ≤ 1 := Nat.zero_le 1
    have accepted : ⟨"main", .ofRepository .blob 7 "f", some source⟩ ∈
        (desk.operations changes).filter fun operation =>
          !operation.isRefused picky.backend.rejected := List.mem_filter.2 ⟨member, rfl⟩
    have shows := Shelf.shows_applyAll leading draft_whole.1 draft_whole.1.head apart single
      (fun operation kept _ => (List.mem_filter.1 kept).1) ⟨_, accepted, rfl, rfl⟩
    rw [← Operation.applyAll_accepted picky.backend.rejected] at shows
    obtain ⟨sha, same⟩ := shows.file "draft" rfl
    rw [performed]
    exact ne_of_eq_of_ne same (List.cons_ne_nil _ _)

private theorem interrupted_draft {later : MemoryRepository} (whole : later.Whole)
    (grows : draft.Grows later) (apart : later.PathsApart) (headed : later.head ≠ none) :
    Interrupted MemoryCluster.backend MemoryCluster.documents desk draft later picky drafted cured
      (finished later) := by
  obtain ⟨unrecorded, statuses, index, settled, -⟩ := drafted_result
  have nowhere : cured.statuses.indexed 7 = none := by
    rw [cured, statuses]
    rfl
  have first : ∀ id, cured.statuses.indexed 7 = some id → (later.find? id).isSome := by
    rw [nowhere]
    nofun
  have stale : cured.statuses.indexed 7 ≠ later.head := by
    rw [nowhere]
    exact headed.symm
  obtain ⟨changes, after, -, -, -, -, -, -, -, -, indexed, deleted, run⟩ :=
    indexRepository_stale settled (by decide) whole first stale .code (.ofSeconds 60)
  obtain rfl : finished later = after := congrArg Prod.snd run
  have idle : cured.indexer.pending = #[] := settled.idle
  exact {
    small := by decide
    whole := draft_whole.1
    laterWhole := whole
    grows := grows
    apart := fun _ => apart
    known := nofun
    inLine := Shelf.inLine_none nofun
    ready := ⟨rfl, nofun⟩
    unrecorded := ⟨_, unrecorded⟩
    untilThen := ⟨rfl, rfl⟩
    readyAgain := ⟨index, by rw [idle]; nofun⟩
    recorded := ⟨_, _, rfl, run⟩ }

theorem inLine_iff_unharmed_draft :
    Interrupted MemoryCluster.backend MemoryCluster.documents desk draft draft picky drafted cured
        (finished draft) ∧
      desk.InLine draft (some "a") (finished draft).backend.documents := by
  have interrupted := interrupted_draft draft_whole.1 (.refl draft) draft_apart nofun
  exact ⟨interrupted, (inLine_iff_unharmed MemoryCluster.candid interrupted).2
    fun _ passed => Or.inl passed.1⟩

/-- The one file that arrived is gone from the head of the later run, and stays in the index. -/
theorem draft_outlives_tidying :
    Interrupted MemoryCluster.backend MemoryCluster.documents desk draft tidied picky drafted cured
        (finished tidied) ∧
      ¬ desk.InLine tidied (some "b") (finished tidied).backend.documents := by
  have interrupted := interrupted_draft tidied_whole.1 tidied_whole.2 tidied_apart nofun
  refine ⟨interrupted, fun inLine => ?_⟩
  obtain ⟨-, -, -, -, there⟩ := drafted_result
  have unborn : tidied.find? "f" = none := by decide
  have unreached : ¬ tidied.Behind (some "b") "f" := by
    rintro ⟨start, same, reached⟩
    have known := tidied_whole.1.reached (tidied_whole.1.head start same) reached
    rw [unborn] at known
    cases known
  have passed : tidied.PassesOver .code none (some "b") "f" :=
    ⟨⟨rfl, fun _ => iff_of_false nofun unreached⟩, Or.inr ⟨rfl, fun both => unreached both.2⟩⟩
  have shows := (interrupted.inLine_iff_passedOver MemoryCluster.candid).1 inLine "f" passed
  exact there (shows.nothing rfl nofun)

end Interrupted

end SearchRelay
