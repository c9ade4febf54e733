import SearchRelay.Proofs.Repository.Memory
import SearchRelay.Repository.Changes

/-!
What a plan changes in a repository in memory: it leads from the files and commits behind the last
indexed commit to those behind the head, and an incremental one passes over what both have.
-/

namespace SearchRelay

open MemoryRepository

variable {repository : MemoryRepository} {last head : Option String} {plan : Plan}

/-- The plan leads from one head to another one. -/
inductive Plan.Fits (repository : MemoryRepository) : Option String → Option String → Plan → Prop where
  | incremental {first last : String} (inside : repository.Behind (some last) first) :
    Fits repository (some first) (some last) (.incremental first last)
  | full (last : Option String) (head : String) : Fits repository last (some head) (.full head)
  | purge (last : Option String) : Fits repository last none .purge

theorem Plan.Fits.ends {first later : String}
    (fits : (Plan.incremental first later).Fits repository last head) :
    last = some first ∧ head = some later ∧ repository.Behind (some later) first := by
  cases fits with
  | incremental inside => exact ⟨rfl, rfl, inside⟩

theorem Plan.decide_fits {status : Option Status}
    (stale : decide status repository.graph.isAncestor head ≠ .upToDate) :
    (decide status repository.graph.isAncestor head).Fits repository
      (status.map Status.lastCommit) head := by
  fun_cases decide status repository.graph.isAncestor head with
  | case1 => exact .purge _
  | case2 => exact absurd rfl stale
  | case3 => exact .full _ _
  | case4 => simp_all [decide]
  | case5 head status _ inside => exact .incremental (isAncestor_graph.1 inside)
  | case6 => exact .full _ _

/-- As long as the last indexed commit is in the history, not everything is written. -/
theorem Plan.decide_inHistory {status : Option Status}
    (inHistory : ∃ start, status.map Status.lastCommit = some start ∧ repository.Behind head start)
    (commit : String) : decide status repository.graph.isAncestor head ≠ .full commit := by
  obtain ⟨start, known, last, rfl, reached⟩ := inHistory
  obtain ⟨status, rfl, rfl⟩ := Option.map_eq_some_iff.1 known
  have inside := isAncestor_graph.2 ⟨last, rfl, reached⟩
  simp only [decide, inside, if_pos]
  split <;> nofun

theorem Plan.Fits.full_of_rewritten (fits : plan.Fits repository last head)
    (rewritten : ¬ ∃ start, last = some start ∧ repository.Behind head start) :
    head = none ∨ ∃ commit, plan = .full commit := by
  cases fits with
  | incremental inside => exact absurd ⟨_, rfl, inside⟩ rewritten
  | full last head => exact Or.inr ⟨head, rfl⟩
  | purge last => exact Or.inl rfl

namespace Changes

/-- The changes lead from the files and commits of one head to those of another one. -/
structure Leads (repository : MemoryRepository) (kind : RepositoryKind)
    (last head : Option String) (changes : Changes) : Prop where
  target : changes.target = head
  files : ∀ path content, (path, content) ∈ changes.files →
    Entries.find? (repository.files head) path = some content
  newFiles : ∀ path content, Entries.find? (repository.files head) path = some content →
    Entries.find? (repository.files last) path ≠ some content → (path, content) ∈ changes.files
  lostFiles : ∀ path, path ∈ changes.removedFiles ↔
    Entries.find? (repository.files last) path ≠ Option.none ∧
      Entries.find? (repository.files head) path = Option.none
  commits : ∀ commit ∈ changes.commits, kind.indexesCommits ∧
    repository.commit? commit.id = some commit ∧ repository.Behind head commit.id
  newCommits : kind.indexesCommits → ∀ id commit, repository.commit? id = some commit →
    repository.Behind head id → ¬ repository.Behind last id → commit ∈ changes.commits
  lostCommits : ∀ id, id ∈ changes.removedCommits ↔
    kind.indexesCommits ∧ repository.Behind last id ∧ ¬ repository.Behind head id

/-- Nothing is written that the earlier head had as well. -/
structure Thrifty (repository : MemoryRepository) (last : Option String) (changes : Changes) :
    Prop where
  files : ∀ path content, (path, content) ∈ changes.files →
    Entries.find? (repository.files last) path ≠ some content
  commits : ∀ commit ∈ changes.commits, ¬ repository.Behind last commit.id

/-- Everything that the head has is written. -/
structure Thorough (repository : MemoryRepository) (kind : RepositoryKind) (head : Option String)
    (changes : Changes) : Prop where
  files : ∀ path content, Entries.find? (repository.files head) path = some content →
    (path, content) ∈ changes.files
  commits : kind.indexesCommits → ∀ id commit, repository.commit? id = some commit →
    repository.Behind head id → commit ∈ changes.commits

theorem Thorough.nowhere (repository : MemoryRepository) (kind : RepositoryKind)
    (changes : Changes) : changes.Thorough repository kind Option.none :=
  ⟨nofun, fun _ _ _ _ ⟨_, nowhere, _⟩ => by cases nowhere⟩

/-! ### Files -/

theorem earlierFiles_view (repository : MemoryRepository) (last : Option String) :
    earlierFiles repository.view last = repository.files last := by
  cases last with
  | none => rfl
  | some id =>
    simp only [earlierFiles, view, stored, MemoryRepository.files, Option.bind_some]
    cases repository.find? id with
    | none => rfl
    | some stored => rfl

theorem laterFiles_view (known : ∀ id, head = some id → (repository.find? id).isSome) :
    laterFiles repository.view head = .ok (repository.files head) := by
  cases head with
  | none => rfl
  | some id =>
    obtain ⟨stored, found⟩ := Option.isSome_iff_exists.1 (known id rfl)
    simp only [laterFiles, view, MemoryRepository.stored, MemoryRepository.files, Option.bind_some,
      found]
    rfl

theorem mem_writtenFiles {earlier later : FileTree} (sorted : Entries.Sorted later)
    {path content : String} :
    (path, content) ∈ writtenFiles plan earlier later ↔ Entries.find? later path = some content ∧
      ((∀ commit, plan ≠ .full commit) → Entries.find? earlier path ≠ some content) := by
  cases plan with
  | full commit => simp [writtenFiles, Entries.mem_iff_find? sorted]
  | upToDate | incremental _ _ | purge =>
    simp [writtenFiles, List.mem_filter, Entries.mem_iff_find? sorted]

theorem mem_lostFiles {earlier later : FileTree} (sorted : Entries.Sorted earlier) {path : String} :
    path ∈ lostFiles earlier later ↔
      Entries.find? earlier path ≠ Option.none ∧ Entries.find? later path = Option.none := by
  simp only [lostFiles, List.mem_map, List.mem_filter, Option.isNone_iff_eq_none,
    Option.ne_none_iff_exists']
  constructor
  · rintro ⟨⟨path, content⟩, ⟨inside, lost⟩, rfl⟩
    exact ⟨⟨content, (Entries.mem_iff_find? sorted).1 inside⟩, lost⟩
  · rintro ⟨⟨content, found⟩, lost⟩
    exact ⟨(path, content), ⟨(Entries.mem_iff_find? sorted).2 found, lost⟩, rfl⟩

/-! ### Commits -/

/-- The commits that a plan writes are behind the head, and an incremental plan leaves out those
that were behind the earlier one. -/
theorem newCommits_view (whole : repository.Whole) (fits : plan.Fits repository last head)
    (first : ∀ id, last = some id → (repository.find? id).isSome)
    (known : ∀ id, head = some id → (repository.find? id).isSome) :
    ∃ commits, newCommits repository.view plan = .ok commits ∧
      ∀ commit, commit ∈ commits ↔ repository.commit? commit.id = some commit ∧
        repository.Behind head commit.id ∧
        ((∀ commit, plan ≠ .full commit) → ¬ repository.Behind last commit.id) := by
  cases fits with
  | @incremental earlier later _ =>
    obtain ⟨commits, read, members⟩ := whole.between first (known later rfl)
    refine ⟨commits, read, ?_⟩
    simpa using members
  | full last head =>
    have nowhere : ∀ id, Option.none = some id → (repository.find? id).isSome := nofun
    obtain ⟨commits, read, members⟩ := whole.between nowhere (known head rfl)
    refine ⟨commits, read, ?_⟩
    simpa [Behind] using members
  | purge last =>
    refine ⟨[], rfl, ?_⟩
    simp [Behind]

theorem mem_lostCommits (whole : repository.Whole) (fits : plan.Fits repository last head)
    (first : ∀ id, last = some id → (repository.find? id).isSome)
    (known : ∀ id, head = some id → (repository.find? id).isSome) {id : String} :
    id ∈ lostCommits repository.view plan last ↔
      repository.Behind last id ∧ ¬ repository.Behind head id := by
  have rewritten {earlier : String} (target : plan.target? = head)
      (history : ∀ gone, repository.between plan.target? earlier = .ok gone →
        lostCommits repository.view plan (some earlier) = gone.map Commit.id)
      (first : ∀ id, some earlier = some id → (repository.find? id).isSome) :
      id ∈ lostCommits repository.view plan (some earlier) ↔
        repository.Behind (some earlier) id ∧ ¬ repository.Behind head id := by
    obtain ⟨commits, read, members⟩ := whole.between known (first earlier rfl)
    rw [history commits (target ▸ read), List.mem_map]
    constructor
    · rintro ⟨commit, inside, rfl⟩
      exact ((members commit).1 inside).2
    · rintro ⟨behind, gone⟩
      obtain ⟨commit, said⟩ := whole.said first behind
      obtain rfl := commit?_id said
      exact ⟨commit, (members commit).2 ⟨said, behind, gone⟩, rfl⟩
  cases fits with
  | incremental inside =>
    simp only [lostCommits, List.not_mem_nil, false_iff, not_and, Classical.not_not]
    rintro ⟨start, same, reached⟩
    cases same
    obtain ⟨_, ⟨⟩, path⟩ := inside
    exact ⟨_, rfl, path.trans reached⟩
  | full last head =>
    cases last with
    | none => simp [lostCommits, Behind]
    | some earlier =>
      refine rewritten rfl ?_ first
      intro gone read
      simp only [lostCommits, view, read]
  | purge last =>
    cases last with
    | none => simp [lostCommits, Behind]
    | some earlier =>
      refine rewritten rfl ?_ first
      intro gone read
      simp only [lostCommits, view, read]

/-! ### All changes -/

/-- A plan that fits can be worked out, and its changes lead from one head to the other. -/
theorem collect_leads (whole : repository.Whole) (fits : plan.Fits repository last head)
    (first : ∀ id, last = some id → (repository.find? id).isSome)
    (known : ∀ id, head = some id → (repository.find? id).isSome) (kind : RepositoryKind) :
    ∃ changes, collect repository.view plan last kind = .ok changes ∧
      changes.Leads repository kind last head ∧
      ((∀ commit, plan ≠ .full commit) → changes.Thrifty repository last) ∧
      ∀ commit, plan = .full commit → changes.Thorough repository kind head := by
  have stale : plan ≠ .upToDate := by
    rintro rfl
    cases fits
  have target : plan.target? = head := by
    cases fits with
    | incremental | full | purge => rfl
  obtain ⟨commits, read, members⟩ := newCommits_view whole fits first known
  have written (path content : String) : (path, content) ∈
        writtenFiles plan (repository.files last) (repository.files head) ↔
      Entries.find? (repository.files head) path = some content ∧
        ((∀ commit, plan ≠ .full commit) →
          Entries.find? (repository.files last) path ≠ some content) :=
    mem_writtenFiles (whole.sorted_files head)
  have lost (path : String) :
      path ∈ lostFiles (repository.files last) (repository.files head) ↔
        Entries.find? (repository.files last) path ≠ Option.none ∧
          Entries.find? (repository.files head) path = Option.none :=
    mem_lostFiles (whole.sorted_files last)
  have gone (id : String) : id ∈ lostCommits repository.view plan last ↔
      repository.Behind last id ∧ ¬ repository.Behind head id :=
    mem_lostCommits whole fits first known
  rw [collect, if_neg stale]
  simp only [earlierFiles_view, target, laterFiles_view known, read]
  cases kind with
  | code =>
    refine ⟨_, rfl, ⟨rfl, ?_, ?_, lost, ?_, ?_, ?_⟩, ?_, ?_⟩
    · exact fun path content inside => ((written path content).1 inside).1
    · exact fun path content here new => (written path content).2 ⟨here, fun _ => new⟩
    · intro commit inside
      obtain ⟨said, behind, -⟩ := (members commit).1 inside
      exact ⟨rfl, said, behind⟩
    · intro _ id commit said behind new
      obtain rfl := commit?_id said
      exact (members commit).2 ⟨said, behind, fun _ => new⟩
    · exact fun id => (gone id).trans (by simp [RepositoryKind.indexesCommits])
    · exact fun changed => ⟨fun path content inside => ((written path content).1 inside).2 changed,
        fun commit inside => ((members commit).1 inside).2.2 changed⟩
    · intro target full
      have everything : ¬ ∀ commit, plan ≠ .full commit := fun changed => changed target full
      refine ⟨fun path content here => (written path content).2 ⟨here, (absurd · everything)⟩, ?_⟩
      intro _ id commit said behind
      obtain rfl := commit?_id said
      exact (members commit).2 ⟨said, behind, (absurd · everything)⟩
  | wiki =>
    refine ⟨_, rfl, ⟨rfl, ?_, ?_, lost, nofun, nofun, ?_⟩, ?_, ?_⟩
    · exact fun path content inside => ((written path content).1 inside).1
    · exact fun path content here new => (written path content).2 ⟨here, fun _ => new⟩
    · simp [RepositoryKind.indexesCommits]
    · exact fun changed => ⟨fun path content inside => ((written path content).1 inside).2 changed,
        nofun⟩
    · intro target full
      exact ⟨fun path content here => (written path content).2
        ⟨here, fun changed => absurd full (changed target)⟩, nofun⟩

end Changes

end SearchRelay
