import SearchRelay.Proofs.Repository.Run

/-!
A repository grows, its head moves, and it is indexed now and then. After every run the index is in
line with the head, exactly as long as no file has the name of a commit.
-/

namespace SearchRelay

/-- What a run is to bring about. -/
structure Converged (shelf : Shelf) (repository : MemoryRepository)
    (before : RunState MemoryCluster) (done : Outcome RunSummary × RunState MemoryCluster) :
    Prop where
  succeeds : ∃ summary, done.1 = .ok summary ∧ summary.failed = []
  inLine : shelf.InLine repository repository.head done.2.backend.documents
  /-- Whatever is looked at apart from the repository's documents looks the same as before. -/
  others : ∀ keep : StoredDocument → Bool, (∀ document, keep document → ¬ shelf.Owns document) →
    done.2.backend.documents.filter keep = before.backend.documents.filter keep
  /-- At the same head another run changes nothing and sends nothing. -/
  again : ∀ now, indexRepository MemoryCluster.backend repository.view shelf.project shelf.kind now
    done.2 = (.ok ⟨.upToDate, 0, 0, [], false⟩, done.2)
  /-- An incremental run delivers operations on paths whose content differs and on commits that
  were not behind the last head, and no others. -/
  thrifty : ∀ summary first last, done.1 = .ok summary → summary.plan = .incremental first last →
    ∃ operations, Indexer.deliver MemoryCluster.backend operations (before.indexer, before.backend) =
        ([], done.2.indexer, done.2.backend) ∧
      ∀ operation ∈ operations,
        (∃ path, operation.reference = .ofRepository shelf.kind.fileKind shelf.project path ∧
          Entries.find? (repository.files (some first)) path ≠
            Entries.find? (repository.files (some last)) path) ∨
        ∃ id, operation.reference = .ofRepository .commit shelf.project id ∧
          repository.Behind (some last) id ∧ ¬ repository.Behind (some first) id

variable {kind : RepositoryKind} {project : Nat} {repository : MemoryRepository}
  {state : RunState MemoryCluster}

/-- The state stands where the last run left it, and the index is in line with that head. -/
structure Follows (kind : RepositoryKind) (project : Nat) (repository : MemoryRepository)
    (state : RunState MemoryCluster) : Prop where
  settled : state.Settled
  known : ∀ id, state.statuses.indexed project = some id → (repository.find? id).isSome
  inLine : (state.shelf kind project).InLine repository (state.statuses.indexed project)
    state.backend.documents

theorem Follows.grow {later : MemoryRepository} (follows : Follows kind project repository state)
    (grows : repository.Grows later) (whole : repository.Whole) :
    Follows kind project later state :=
  ⟨follows.settled, fun id last => grows.isSome (follows.known id last),
    follows.inLine.grow grows whole follows.known⟩

theorem Changes.Thrifty.needed {shelf : Shelf} {changes : Changes} {first last : String}
    (thrifty : changes.Thrifty repository (some first))
    (leads : changes.Leads repository shelf.kind (some first) (some last))
    (inside : repository.Behind (some last) first) :
    ∀ operation ∈ shelf.operations changes,
      (∃ path, operation.reference = .ofRepository shelf.kind.fileKind shelf.project path ∧
        Entries.find? (repository.files (some first)) path ≠
          Entries.find? (repository.files (some last)) path) ∨
      ∃ id, operation.reference = .ofRepository .commit shelf.project id ∧
        repository.Behind (some last) id ∧ ¬ repository.Behind (some first) id := by
  intro operation member
  rcases Shelf.mem_operations.1 member with ⟨path, content, written, rfl⟩ | ⟨commit, new, rfl⟩ |
    ⟨path, lost, rfl⟩ | ⟨id, lost, rfl⟩
  · left
    refine ⟨path, rfl, ?_⟩
    rw [leads.files path content written]
    exact thrifty.files path content written
  · right
    exact ⟨commit.id, rfl, (leads.commits commit new).2.2, thrifty.commits commit new⟩
  · left
    obtain ⟨there, gone⟩ := (leads.lostFiles path).1 lost
    exact ⟨path, rfl, gone ▸ there⟩
  · obtain ⟨-, ⟨_, ⟨⟩, before⟩, gone⟩ := (leads.lostCommits id).1 lost
    obtain ⟨_, ⟨⟩, path⟩ := inside
    exact absurd ⟨last, rfl, path.trans before⟩ gone

/-- A run leaves nothing behind and moves the status to the head. Whether it does the rest depends
on whether a name clashes. -/
theorem Follows.run (follows : Follows kind project repository state) (small : project < 2 ^ 64)
    (whole : repository.Whole) (now : Instant) :
    let done := indexRepository MemoryCluster.backend repository.view project kind now state
    done.2.Settled ∧ done.2.indexer.index = state.indexer.index ∧
      done.2.statuses.indexed project = repository.head ∧
      (Converged (state.shelf kind project) repository state done ↔
        (kind.indexesCommits →
          ¬ repository.Clashes (state.statuses.indexed project) repository.head)) := by
  intro done
  by_cases same : state.statuses.indexed project = repository.head
  · have rest : done = (.ok ⟨.upToDate, 0, 0, [], false⟩, state) := indexRepository_upToDate same
    have inLine := same ▸ follows.inLine
    rw [rest]
    refine ⟨follows.settled, rfl, same, ?_⟩
    constructor
    · -- the two heads are one, and the index in line with it holds the file and the commit
      rintro - code ⟨name, file, commit⟩
      rw [same, or_self] at file commit
      exact inLine.apart whole whole.head code file commit
    · intro _
      exact ⟨⟨_, rfl, rfl⟩, inLine, fun _ _ => rfl, fun now => indexRepository_upToDate same,
        fun _ _ _ told plan => by cases told; cases plan⟩
  · obtain ⟨changes, after, fits, leads, thrifty, sent, calm, index, documents, statuses, indexed,
      deleted, run⟩ := indexRepository_stale follows.settled small whole follows.known same kind now
    have recorded := fits.recorded state.statuses project now
    rw [← statuses] at recorded
    rw [show done = _ from run]
    refine ⟨calm, index, recorded, ?_⟩
    constructor
    · intro converged code
      have inLine := converged.inLine
      rw [documents] at inLine
      exact follows.inLine.not_clashes inLine leads whole follows.known whole.head code
    · intro apart
      refine ⟨⟨_, rfl, rfl⟩, ?_, ?_, fun now => indexRepository_upToDate recorded, ?_⟩
      · rw [documents]
        exact follows.inLine.advance leads whole follows.known whole.head apart
      · intro keep foreign
        rw [documents]
        exact Shelf.filter_operations foreign
      · intro summary first last told plan
        cases told
        change Plan.decide _ _ _ = _ at plan
        rw [plan] at fits thrifty
        obtain ⟨lastIs, headIs, inside⟩ := fits.ends
        rw [lastIs] at leads thrifty
        rw [headIs] at leads
        exact ⟨_, sent, (thrifty nofun).needed leads inside⟩

/-! ### Runs, one after the other -/

inductive RepositoryEvent where
  | commit (id : String) (parents : List String) (message : String) (files : List (String × String))
  | move (head : Option String)
  | run (now : Instant)

namespace RepositoryEvent

def change (repository : MemoryRepository) : RepositoryEvent → MemoryRepository
  | .commit id parents message files => repository.commit id parents message files
  | .move head => repository.withHead head
  | .run _ => repository

/-- A new commit has a name of its own and known parents, and the head moves to any known commit or
to none. -/
def Allowed (repository : MemoryRepository) : RepositoryEvent → Prop
  | .commit id parents _ _ =>
    repository.find? id = none ∧ ∀ parent ∈ parents, (repository.find? parent).isSome
  | .move head => ∀ id, head = some id → (repository.find? id).isSome
  | .run _ => True

def AllAllowed : List RepositoryEvent → MemoryRepository → Prop
  | [], _ => True
  | event :: events, repository =>
    event.Allowed repository ∧ AllAllowed events (event.change repository)

def EveryRunConverges (kind : RepositoryKind) (project : Nat) :
    List RepositoryEvent → MemoryRepository → RunState MemoryCluster → Prop
  | [], _, _ => True
  | .run now :: events, repository, state =>
    let done := indexRepository MemoryCluster.backend repository.view project kind now state
    Converged (state.shelf kind project) repository state done ∧
      EveryRunConverges kind project events repository done.2
  | event :: events, repository, state =>
    EveryRunConverges kind project events (event.change repository) state

/-- At no run does a name clash, in what the run before left and what this one comes to. `last` is
the head of the run before. -/
def NamesApart : List RepositoryEvent → MemoryRepository → Option String → Prop
  | [], _, _ => True
  | .run _ :: events, repository, last =>
    ¬ repository.Clashes last repository.head ∧ NamesApart events repository repository.head
  | event :: events, repository, last => NamesApart events (event.change repository) last

theorem Allowed.grows {event : RepositoryEvent} (allowed : event.Allowed repository)
    (whole : repository.Whole) :
    (event.change repository).Whole ∧ repository.Grows (event.change repository) := by
  cases event with
  | commit id parents message files => exact whole.commit allowed.1 allowed.2 message files
  | move head => exact whole.withHead allowed
  | run now => exact ⟨whole, .refl repository⟩

theorem everyRunConverges_iff {events : List RepositoryEvent} (small : project < 2 ^ 64)
    (whole : repository.Whole) (follows : Follows kind project repository state)
    (allowed : AllAllowed events repository) :
    EveryRunConverges kind project events repository state ↔
      (kind.indexesCommits → NamesApart events repository (state.statuses.indexed project)) := by
  induction events generalizing repository state with
  | nil => exact ⟨fun _ _ => trivial, fun _ => trivial⟩
  | cons event events ih =>
    obtain ⟨first, later⟩ := allowed
    obtain ⟨grown, grows⟩ := first.grows whole
    have kept := follows.grow grows whole
    cases event with
    | commit id parents message files => exact ih grown kept later
    | move head => exact ih grown kept later
    | run now =>
      obtain ⟨settled, index, recorded, converges⟩ := follows.run small whole now
      -- only a run that converged leaves a state from which the later ones can be followed
      have next (converged : Converged (state.shelf kind project) repository state
          (indexRepository MemoryCluster.backend repository.view project kind now state)) := by
        have moved : Follows kind project repository
            (indexRepository MemoryCluster.backend repository.view project kind now state).2 := by
          refine ⟨settled, ?_, ?_⟩
          · rw [recorded]
            exact whole.head
          · rw [recorded, RunState.shelf, index]
            exact converged.inLine
        have rest := ih whole moved later
        rw [recorded] at rest
        exact rest
      constructor
      · rintro ⟨converged, rest⟩ code
        exact ⟨converges.1 converged code, (next converged).1 rest code⟩
      · intro apart
        have converged := converges.2 fun code => (apart code).1
        exact ⟨converged, (next converged).2 fun code => (apart code).2⟩

/-- From an index without the project, every run converges exactly if the names of files and
commits stay apart. -/
theorem converges_iff_namesApart {events : List RepositoryEvent} (small : project < 2 ^ 64)
    (settled : state.Settled) (unknown : state.statuses.find? project = none)
    (bare : ∀ document ∈ state.backend.documents, ¬ (state.shelf kind project).Owns document)
    (allowed : AllAllowed events .empty) :
    EveryRunConverges kind project events .empty state ↔
      (kind.indexesCommits → NamesApart events .empty none) := by
  have nowhere : state.statuses.indexed project = none := congrArg _ unknown
  have follows : Follows kind project .empty state := by
    refine ⟨settled, ?_, ?_⟩
    · rw [nowhere]
      nofun
    · rw [nowhere]
      exact Shelf.inLine_none bare
  rw [everyRunConverges_iff small MemoryRepository.whole_empty follows allowed, nowhere]

private def unindexed : RunState MemoryCluster := ⟨.new "main" 0 none, .empty, .empty⟩

private theorem unindexed_bare (kind : RepositoryKind) :
    ∀ document ∈ unindexed.backend.documents, ¬ (unindexed.shelf kind 7).Owns document := nofun

private def growth : List RepositoryEvent :=
  [.commit "c1" [] "Initial commit" [("notes", "hello")], .run (.ofSeconds 0),
    .commit "c2" ["c1"] "Say more" [("notes", "hello again")], .run (.ofSeconds 60)]

private theorem growth_allowed : AllAllowed growth .empty :=
  ⟨⟨rfl, nofun⟩, trivial, ⟨by decide, by decide⟩, trivial, trivial⟩

private theorem notes_alone {content name : String}
    (there : Entries.find? [("notes", content)] name ≠ none) : name = "notes" := by
  rw [Entries.find?_cons] at there
  split at there
  · exact Eq.symm ‹_›
  · exact absurd rfl there

/-- A commit, a run, one more commit, and a run for what it changed. -/
theorem converges_growth : AllAllowed growth .empty ∧
    EveryRunConverges .code 7 growth .empty unindexed := by
  refine ⟨growth_allowed, ?_⟩
  refine (converges_iff_namesApart (by decide) ⟨rfl, rfl, ⟨rfl, rfl⟩, rfl⟩ rfl
    (unindexed_bare .code) growth_allowed).2 fun _ => ?_
  have whole := MemoryRepository.whole_empty
  have one := (growth_allowed.1.grows whole).1
  have two := (growth_allowed.2.2.1.grows one).1
  refine ⟨?_, ?_, trivial⟩
  · refine one.not_clashes ?_ one.head ?_
    · rintro _ ⟨⟩
    rintro name (there | there)
    · exact absurd rfl there
    · obtain rfl := notes_alone there
      decide
  · refine two.not_clashes ?_ two.head ?_
    · rintro _ ⟨⟩
      decide
    · rintro name (there | there)
      · obtain rfl := notes_alone there
        decide
      · obtain rfl := notes_alone there
        decide

private def shadow : List RepositoryEvent :=
  [.commit "c1" [] "Initial commit" [], .commit "c2" ["c1"] "Note it" [("c1", "hello")],
    .run (.ofSeconds 1714564800)]

/-- A file that has the name of an earlier commit: the run does not bring the index in line. -/
theorem shadowed_file_lost : AllAllowed shadow .empty ∧ unindexed.Settled ∧
    unindexed.statuses.find? 7 = none ∧
    (∀ document ∈ unindexed.backend.documents, ¬ (unindexed.shelf .code 7).Owns document) ∧
    ¬ EveryRunConverges .code 7 shadow .empty unindexed := by
  have allowed : AllAllowed shadow .empty :=
    ⟨⟨rfl, nofun⟩, ⟨by decide, by decide⟩, trivial, trivial⟩
  refine ⟨allowed, ⟨rfl, rfl, ⟨rfl, rfl⟩, rfl⟩, rfl, unindexed_bare .code, ?_⟩
  rintro ⟨converged, -⟩
  have one := (allowed.1.grows MemoryRepository.whole_empty).1
  have two := (allowed.2.1.grows one).1
  -- the index would have to hold one document for both
  refine converged.inLine.apart two two.head rfl ?_
    ⟨"c2", rfl, .parent rfl (List.mem_singleton_self _) (.self "c1")⟩
  decide

end RepositoryEvent

end SearchRelay
