import SearchRelay.Proofs.Bulk.Held
import SearchRelay.Proofs.Repository.Changes
import SearchRelay.Proofs.Text.Percent
import SearchRelay.Repository.Run

/-!
The part of an index that belongs to one repository. It is in line with a head when every file of
the head and every commit behind it has its document there, and nothing else has one. Changes that
lead from one head to another one take it along, unless a file and a commit share a name: they
would share a document as well.
-/

namespace SearchRelay

/-- An index, and the repository whose documents are looked at in it. -/
structure Shelf where
  index : String
  kind : RepositoryKind
  project : Nat

namespace Shelf

def file (shelf : Shelf) (commit path content : String) : StoredDocument :=
  ⟨shelf.index, Reference.repositoryId shelf.kind.fileKind shelf.project path,
    some (projectRouting shelf.project),
    Changes.fileDocument shelf.kind.fileKind shelf.project commit path content⟩

def commit (shelf : Shelf) (commit : Commit) : StoredDocument :=
  ⟨shelf.index, Reference.repositoryId .commit shelf.project commit.id,
    some (projectRouting shelf.project), Changes.commitDocument shelf.project commit⟩

/-- What the index holds under the id of a file. -/
def fileAt (shelf : Shelf) (path : String) (documents : List StoredDocument) :
    List StoredDocument :=
  MemoryCluster.held shelf.index (Reference.repositoryId shelf.kind.fileKind shelf.project path)
    documents

def commitAt (shelf : Shelf) (id : String) (documents : List StoredDocument) :
    List StoredDocument :=
  MemoryCluster.held shelf.index (Reference.repositoryId .commit shelf.project id) documents

/-- The document has an id that a file or a commit of the repository may have. -/
def Owns (shelf : Shelf) (document : StoredDocument) : Prop :=
  document.index = shelf.index ∧
    ((∃ path, document.id = Reference.repositoryId shelf.kind.fileKind shelf.project path) ∨
      ∃ id, document.id = Reference.repositoryId .commit shelf.project id)

/-- The index holds the files of the head and, for code, the commits behind it, each once, and
nothing else. -/
structure InLine (shelf : Shelf) (repository : MemoryRepository) (head : Option String)
    (documents : List StoredDocument) : Prop where
  files : ∀ path content, Entries.find? (repository.files head) path = some content →
    ∃ commit, shelf.fileAt path documents = [shelf.file commit path content]
  commits : shelf.kind.indexesCommits → ∀ id commit, repository.commit? id = some commit →
    repository.Behind head id → shelf.commitAt id documents = [shelf.commit commit]
  nothingElse : ∀ name, Entries.find? (repository.files head) name = none →
    ¬ (shelf.kind.indexesCommits ∧ repository.Behind head name) → shelf.fileAt name documents = []
  noCommits : ¬ shelf.kind.indexesCommits → ∀ id, shelf.commitAt id documents = []

/-- What is found under a name is what the head has there. -/
structure Shows (shelf : Shelf) (repository : MemoryRepository) (head : Option String)
    (name : String) (found : List StoredDocument) : Prop where
  file : ∀ content, Entries.find? (repository.files head) name = some content →
    ∃ commit, found = [shelf.file commit name content]
  commit : shelf.kind.indexesCommits → ∀ commit, repository.commit? name = some commit →
    repository.Behind head name → found = [shelf.commit commit]
  nothing : Entries.find? (repository.files head) name = none →
    ¬ (shelf.kind.indexesCommits ∧ repository.Behind head name) → found = []

def operations (shelf : Shelf) (changes : Changes) : List Operation :=
  changes.upserts shelf.index shelf.kind shelf.project ++
    changes.removals shelf.index shelf.kind shelf.project

end Shelf

/-- Two heads have the same under a name. -/
structure MemoryRepository.Alike (repository : MemoryRepository) (kind : RepositoryKind)
    (left right : Option String) (name : String) : Prop where
  files : Entries.find? (repository.files left) name = Entries.find? (repository.files right) name
  commits : kind.indexesCommits → (repository.Behind left name ↔ repository.Behind right name)

theorem MemoryRepository.Alike.symm {repository : MemoryRepository} {kind : RepositoryKind}
    {left right : Option String} {name : String}
    (alike : repository.Alike kind left right name) : repository.Alike kind right left name :=
  ⟨alike.files.symm, fun code => (alike.commits code).symm⟩

/-- The name of a file is the name of a commit, in what the index leaves or in what it comes to. -/
def MemoryRepository.Clashes (repository : MemoryRepository) (last head : Option String) : Prop :=
  ∃ name, (Entries.find? (repository.files last) name ≠ none ∨
      Entries.find? (repository.files head) name ≠ none) ∧
    (repository.Behind last name ∨ repository.Behind head name)

theorem MemoryRepository.Whole.not_clashes {repository : MemoryRepository}
    {last head : Option String} (whole : repository.Whole)
    (first : ∀ id, last = some id → (repository.find? id).isSome)
    (known : ∀ id, head = some id → (repository.find? id).isSome)
    (unknown : ∀ name, Entries.find? (repository.files last) name ≠ none ∨
      Entries.find? (repository.files head) name ≠ none → repository.find? name = none) :
    ¬ repository.Clashes last head := by
  rintro ⟨name, file, commit⟩
  have gone := unknown name file
  rcases commit with ⟨start, same, reached⟩ | ⟨start, same, reached⟩
  · exact absurd (whole.reached (first start same) reached) (by simp [gone])
  · exact absurd (whole.reached (known start same) reached) (by simp [gone])

namespace Shelf

open MemoryRepository (commit?_id)

variable {shelf : Shelf} {repository : MemoryRepository} {last head : Option String}
  {changes : Changes} {documents : List StoredDocument}

/-- Where commits are searched, their ids have the form of those of files. -/
theorem commitId_eq_fileId (code : shelf.kind.indexesCommits) (name : String) :
    Reference.repositoryId .commit shelf.project name =
      Reference.repositoryId shelf.kind.fileKind shelf.project name := by
  generalize shelf.kind = kind at code
  cases kind with
  | code => rfl
  | wiki => cases code

theorem commitAt_eq_fileAt (code : shelf.kind.indexesCommits) :
    shelf.commitAt = shelf.fileAt := by
  funext name documents
  rw [commitAt, commitId_eq_fileId code, fileAt]

theorem file_ne_commit (shelf : Shelf) (sha path content : String) (commit : Commit) :
    shelf.file sha path content ≠ shelf.commit commit := by
  intro same
  have types : shelf.kind.fileKind.documentType = Kind.commit.documentType := by
    simpa [file, Shelf.commit, Changes.fileDocument, Changes.commitDocument, Json.object,
      Json.get?, Entries.ofList, Entries.find?_insert] using
      congrArg (fun document => document.source.get? "type") same
  generalize shelf.kind = kind at types
  cases kind with
  | code | wiki => exact absurd types (by decide)

theorem file_injective {sha other path content text : String}
    (same : shelf.file sha path content = shelf.file other path text) : content = text := by
  simpa [file, Changes.fileDocument, Json.object, Json.get?, Entries.ofList,
    Entries.find?_insert] using
    congrArg (fun document => (document.source.get? "blob").bind (·.get? "content")) same

/-! ### Name by name -/

theorem inLine_iff : shelf.InLine repository head documents ↔
    (∀ name, shelf.Shows repository head name (shelf.fileAt name documents)) ∧
      (¬ shelf.kind.indexesCommits → ∀ id, shelf.commitAt id documents = []) := by
  constructor
  · intro inLine
    refine ⟨fun name => ⟨inLine.files name, ?_, inLine.nothingElse name⟩, inLine.noCommits⟩
    intro code
    rw [← commitAt_eq_fileAt code]
    exact inLine.commits code name
  · rintro ⟨shows, wiki⟩
    refine ⟨fun path => (shows path).file, ?_, fun name => (shows name).nothing, wiki⟩
    intro code id
    rw [commitAt_eq_fileAt code]
    exact (shows id).commit code

variable {name : String} {found : List StoredDocument} {left right : Option String}

theorem Shows.alike (shows : shelf.Shows repository left name found)
    (alike : repository.Alike shelf.kind left right name) :
    shelf.Shows repository right name found := by
  refine ⟨?_, ?_, ?_⟩
  · intro content here
    exact shows.file content (alike.files.trans here)
  · intro code commit said behind
    exact shows.commit code commit said ((alike.commits code).2 behind)
  · intro missing uncommitted
    apply shows.nothing (alike.files.trans missing)
    rintro ⟨code, behind⟩
    exact uncommitted ⟨code, (alike.commits code).1 behind⟩

theorem Shows.file_of_file (here : shelf.Shows repository left name found)
    (there : shelf.Shows repository right name found) (whole : repository.Whole)
    (known : ∀ id, right = some id → (repository.find? id).isSome) {content : String}
    (has : Entries.find? (repository.files left) name = some content) :
    Entries.find? (repository.files right) name = some content := by
  obtain ⟨sha, rfl⟩ := here.file content has
  cases kept : Entries.find? (repository.files right) name with
  | some other =>
    obtain ⟨commit, same⟩ := there.file other kept
    rw [file_injective (List.singleton_inj.1 same)]
  | none =>
    by_cases behind : shelf.kind.indexesCommits ∧ repository.Behind right name
    · obtain ⟨commit, said⟩ := whole.said known behind.2
      have same := there.commit behind.1 commit said behind.2
      exact absurd (List.singleton_inj.1 same) (file_ne_commit _ _ _ _ _)
    · cases there.nothing kept behind

theorem Shows.behind_of_behind (here : shelf.Shows repository left name found)
    (there : shelf.Shows repository right name found) (whole : repository.Whole)
    (known : ∀ id, left = some id → (repository.find? id).isSome)
    (code : shelf.kind.indexesCommits) (behind : repository.Behind left name) :
    repository.Behind right name := by
  obtain ⟨commit, said⟩ := whole.said known behind
  obtain rfl := here.commit code commit said behind
  apply Classical.byContradiction
  intro gone
  cases kept : Entries.find? (repository.files right) name with
  | some content =>
    obtain ⟨sha, same⟩ := there.file content kept
    exact file_ne_commit _ _ _ _ _ (List.singleton_inj.1 same).symm
  | none => cases there.nothing kept fun both => gone both.2

theorem Shows.unique (here : shelf.Shows repository left name found)
    (there : shelf.Shows repository right name found) (whole : repository.Whole)
    (knownLeft : ∀ id, left = some id → (repository.find? id).isSome)
    (knownRight : ∀ id, right = some id → (repository.find? id).isSome) :
    repository.Alike shelf.kind left right name := by
  refine ⟨?_, fun code => ⟨?_, ?_⟩⟩
  · apply Option.ext
    intro content
    exact ⟨here.file_of_file there whole knownRight, there.file_of_file here whole knownLeft⟩
  · exact here.behind_of_behind there whole knownLeft code
  · exact there.behind_of_behind here whole knownRight code

theorem Shows.grow {earlier later : MemoryRepository} (shows : shelf.Shows earlier head name found)
    (grows : earlier.Grows later) (whole : earlier.Whole)
    (known : ∀ id, head = some id → (earlier.find? id).isSome) :
    shelf.Shows later head name found := by
  refine ⟨?_, ?_, ?_⟩
  · rw [grows.files known]
    exact shows.file
  · intro code commit said behind
    have before := (grows.behind whole known).1 behind
    obtain ⟨earlierCommit, was⟩ := whole.said known before
    obtain rfl := Option.some.inj ((grows.commit? was).symm.trans said)
    exact shows.commit code _ was before
  · rw [grows.files known, grows.behind whole known]
    exact shows.nothing

/-! ### The operations on an id -/

theorem mem_operations {operation : Operation} : operation ∈ shelf.operations changes ↔
    (∃ path content, (path, content) ∈ changes.files ∧ operation =
      ⟨shelf.index, .ofRepository shelf.kind.fileKind shelf.project path,
        some (Changes.fileDocument shelf.kind.fileKind shelf.project (changes.target.getD "") path
          content)⟩) ∨
    (∃ commit ∈ changes.commits, operation =
      ⟨shelf.index, .ofRepository .commit shelf.project commit.id,
        some (Changes.commitDocument shelf.project commit)⟩) ∨
    (∃ path ∈ changes.removedFiles, operation =
      ⟨shelf.index, .ofRepository shelf.kind.fileKind shelf.project path, none⟩) ∨
    ∃ id ∈ changes.removedCommits, operation =
      ⟨shelf.index, .ofRepository .commit shelf.project id, none⟩ := by
  simp only [operations, Changes.upserts, Changes.removals, List.mem_append, List.mem_map,
    Prod.exists, eq_comm (a := operation), or_assoc]

/-- An operation on the id of a file comes from a change under its name. -/
theorem leaves_of_targets (leads : changes.Leads repository shelf.kind last head)
    {name : String} {operation : Operation} (member : operation ∈ shelf.operations changes)
    (targets : operation.Targets shelf.index
      (Reference.repositoryId shelf.kind.fileKind shelf.project name)) :
    (∃ content, (name, content) ∈ changes.files ∧
      operation.leaves = [shelf.file (changes.target.getD "") name content]) ∨
    (∃ commit ∈ changes.commits, commit.id = name ∧ operation.leaves = [shelf.commit commit]) ∨
    (name ∈ changes.removedFiles ∧ operation.leaves = []) ∨
    (name ∈ changes.removedCommits ∧ operation.leaves = []) := by
  obtain ⟨-, id⟩ := targets
  rcases mem_operations.1 member with ⟨path, content, inside, rfl⟩ | ⟨commit, inside, rfl⟩ |
    ⟨path, inside, rfl⟩ | ⟨sha, inside, rfl⟩
  · obtain rfl := (Reference.repositoryId_inj.1 id).2
    exact Or.inl ⟨content, inside, rfl⟩
  · have code := (leads.commits commit inside).1
    have same := (Reference.repositoryId_inj.1 ((commitId_eq_fileId code _).symm.trans id)).2
    exact Or.inr (Or.inl ⟨commit, inside, same, rfl⟩)
  · obtain rfl := (Reference.repositoryId_inj.1 id).2
    exact Or.inr (Or.inr (Or.inl ⟨inside, rfl⟩))
  · have code := ((leads.lostCommits sha).1 inside).1
    obtain rfl := (Reference.repositoryId_inj.1 ((commitId_eq_fileId code _).symm.trans id)).2
    exact Or.inr (Or.inr (Or.inr ⟨inside, rfl⟩))

theorem filter_operations {keep : StoredDocument → Bool}
    (foreign : ∀ document, keep document → ¬ shelf.Owns document) :
    (Operation.applyAll [] (shelf.operations changes) documents).filter keep =
      documents.filter keep := by
  apply Operation.filter_applyAll
  intro operation member document kept here
  obtain ⟨index, id⟩ := MemoryCluster.isAt_iff.1 here
  apply foreign document kept
  rcases mem_operations.1 member with ⟨path, _, _, rfl⟩ | ⟨commit, _, rfl⟩ | ⟨path, _, rfl⟩ |
    ⟨sha, _, rfl⟩
  · exact ⟨index, Or.inl ⟨path, id⟩⟩
  · exact ⟨index, Or.inr ⟨commit.id, id⟩⟩
  · exact ⟨index, Or.inl ⟨path, id⟩⟩
  · exact ⟨index, Or.inr ⟨sha, id⟩⟩

/-! ### From one head to another one -/

theorem InLine.grow {earlier later : MemoryRepository}
    (inLine : shelf.InLine earlier head documents) (grows : earlier.Grows later)
    (whole : earlier.Whole) (known : ∀ id, head = some id → (earlier.find? id).isSome) :
    shelf.InLine later head documents := by
  obtain ⟨shows, wiki⟩ := inLine_iff.1 inLine
  exact inLine_iff.2 ⟨fun name => (shows name).grow grows whole known, wiki⟩

/-- An index without a document of the repository is in line with an empty one. -/
theorem inLine_none (bare : ∀ document ∈ documents, ¬ shelf.Owns document) :
    shelf.InLine repository none documents := by
  have nothing (id : String) (own : (∃ path, id =
      Reference.repositoryId shelf.kind.fileKind shelf.project path) ∨
      ∃ sha, id = Reference.repositoryId .commit shelf.project sha) :
      MemoryCluster.held shelf.index id documents = [] := by
    apply List.filter_eq_nil_iff.2
    intro document member here
    obtain ⟨index, rfl⟩ := MemoryCluster.isAt_iff.1 here
    exact bare document member ⟨index, own⟩
  refine ⟨nofun, ?_, ?_, ?_⟩
  · rintro _ _ _ _ ⟨_, ⟨⟩, _⟩
  · exact fun name _ _ => nothing _ (Or.inl ⟨name, rfl⟩)
  · exact fun _ id => nothing _ (Or.inr ⟨id, rfl⟩)

/-- A file and a commit of one name cannot both have their document. -/
theorem InLine.apart (inLine : shelf.InLine repository head documents)
    (whole : repository.Whole) (known : ∀ id, head = some id → (repository.find? id).isSome)
    (code : shelf.kind.indexesCommits) {name : String}
    (there : Entries.find? (repository.files head) name ≠ none) :
    ¬ repository.Behind head name := by
  intro behind
  obtain ⟨content, found⟩ := Option.ne_none_iff_exists'.1 there
  obtain ⟨commit, said⟩ := whole.said known behind
  obtain ⟨sha, asFile⟩ := inLine.files name content found
  have asCommit := inLine.commits code name commit said behind
  rw [commitAt_eq_fileAt code, asFile] at asCommit
  exact file_ne_commit _ _ _ _ _ (List.singleton_inj.1 asCommit)

theorem InLine.single (inLine : shelf.InLine repository head documents)
    (whole : repository.Whole) (known : ∀ id, head = some id → (repository.find? id).isSome)
    (name : String) : (shelf.fileAt name documents).length ≤ 1 := by
  cases found : Entries.find? (repository.files head) name with
  | some content =>
    obtain ⟨sha, asFile⟩ := inLine.files name content found
    exact asFile ▸ Nat.le_refl _
  | none =>
    by_cases behind : shelf.kind.indexesCommits ∧ repository.Behind head name
    · obtain ⟨commit, said⟩ := whole.said known behind.2
      have asCommit := inLine.commits behind.1 name commit said behind.2
      rw [commitAt_eq_fileAt behind.1] at asCommit
      exact asCommit ▸ Nat.le_refl _
    · exact inLine.nothingElse name found behind ▸ Nat.zero_le _

/-- Removals come last, so nothing is left under a name that was removed. -/
theorem fileAt_removed (leads : changes.Leads repository shelf.kind last head) {name : String}
    (single : (shelf.fileAt name documents).length ≤ 1)
    (removed : name ∈ changes.removedFiles ∨ name ∈ changes.removedCommits) :
    shelf.fileAt name (Operation.applyAll [] (shelf.operations changes) documents) = [] := by
  rw [operations, Operation.applyAll_append]
  apply Operation.held_applyAll (Operation.single_applyAll single)
  · intro operation member _
    rcases List.mem_append.1 member with file | commit
    · obtain ⟨path, _, rfl⟩ := List.mem_map.1 file
      rfl
    · obtain ⟨sha, _, rfl⟩ := List.mem_map.1 commit
      rfl
  · right
    rcases removed with file | commit
    · exact ⟨_, List.mem_append_left _ (List.mem_map_of_mem file), rfl, rfl⟩
    · have code := ((leads.lostCommits name).1 commit).1
      exact ⟨_, List.mem_append_right _ (List.mem_map_of_mem commit), rfl,
        commitId_eq_fileId code name⟩

/-- Where names are apart, an operation on the id of a file of the head writes this file. -/
theorem leaves_of_file (leads : changes.Leads repository shelf.kind last head)
    (apart : shelf.kind.indexesCommits → ¬ repository.Clashes last head) {path content : String}
    (found : Entries.find? (repository.files head) path = some content) {operation : Operation}
    (member : operation ∈ shelf.operations changes)
    (targets : operation.Targets shelf.index
      (Reference.repositoryId shelf.kind.fileKind shelf.project path)) :
    operation.leaves = [shelf.file (changes.target.getD "") path content] := by
  have here : Entries.find? (repository.files head) path ≠ none := by simp [found]
  rcases leaves_of_targets leads member targets with ⟨other, inside, left⟩ |
    ⟨commit, inside, rfl, _⟩ | ⟨gone, _⟩ | ⟨gone, _⟩
  · obtain rfl := Option.some.inj (found.symm.trans (leads.files path other inside))
    exact left
  · obtain ⟨code, -, behind⟩ := leads.commits commit inside
    exact absurd ⟨_, Or.inr here, Or.inr behind⟩ (apart code)
  · exact absurd ((leads.lostFiles path).1 gone).2 here
  · obtain ⟨code, behind, -⟩ := (leads.lostCommits path).1 gone
    exact absurd ⟨_, Or.inr here, Or.inl behind⟩ (apart code)

theorem leaves_of_commit (leads : changes.Leads repository shelf.kind last head)
    (apart : shelf.kind.indexesCommits → ¬ repository.Clashes last head)
    (code : shelf.kind.indexesCommits) {id : String} {commit : Commit}
    (said : repository.commit? id = some commit) (behind : repository.Behind head id)
    {operation : Operation} (member : operation ∈ shelf.operations changes)
    (targets : operation.Targets shelf.index
      (Reference.repositoryId shelf.kind.fileKind shelf.project id)) :
    operation.leaves = [shelf.commit commit] := by
  rcases leaves_of_targets leads member targets with ⟨content, inside, _⟩ |
    ⟨other, inside, rfl, left⟩ | ⟨gone, _⟩ | ⟨gone, _⟩
  · have there := leads.files id content inside
    exact absurd ⟨id, Or.inr (by simp [there]), Or.inr behind⟩ (apart code)
  · obtain rfl := Option.some.inj (said.symm.trans (leads.commits other inside).2.1)
    exact left
  · have there := ((leads.lostFiles id).1 gone).1
    exact absurd ⟨id, Or.inl there, Or.inr behind⟩ (apart code)
  · exact absurd behind ((leads.lostCommits id).1 gone).2.2

theorem leaves_of_nothing (leads : changes.Leads repository shelf.kind last head) {name : String}
    (missing : Entries.find? (repository.files head) name = none)
    (uncommitted : ¬ (shelf.kind.indexesCommits ∧ repository.Behind head name))
    {operation : Operation} (member : operation ∈ shelf.operations changes)
    (targets : operation.Targets shelf.index
      (Reference.repositoryId shelf.kind.fileKind shelf.project name)) :
    operation.leaves = [] := by
  rcases leaves_of_targets leads member targets with ⟨content, inside, _⟩ |
    ⟨commit, inside, rfl, _⟩ | ⟨_, left⟩ | ⟨_, left⟩
  · exact absurd (missing.symm.trans (leads.files name content inside)) (by simp)
  · obtain ⟨code, -, behind⟩ := leads.commits commit inside
    exact absurd ⟨code, behind⟩ uncommitted
  · exact left
  · exact left

/-- Where names are apart, all operations on a name leave what the head has there. -/
theorem leaves_shown (leads : changes.Leads repository shelf.kind last head)
    (whole : repository.Whole) (known : ∀ id, head = some id → (repository.find? id).isSome)
    (apart : shelf.kind.indexesCommits → ¬ repository.Clashes last head) (name : String) :
    ∃ found, shelf.Shows repository head name found ∧
      ∀ operation ∈ shelf.operations changes,
        operation.Targets shelf.index
          (Reference.repositoryId shelf.kind.fileKind shelf.project name) →
        operation.leaves = found := by
  cases has : Entries.find? (repository.files head) name with
  | some content =>
    refine ⟨_, ⟨?_, ?_, ?_⟩, fun operation => leaves_of_file leads apart has⟩
    · intro other same
      obtain rfl := Option.some.inj (has.symm.trans same)
      exact ⟨_, rfl⟩
    · intro code commit _ behind
      exact absurd ⟨name, Or.inr (by simp [has]), Or.inr behind⟩ (apart code)
    · intro missing
      cases has.symm.trans missing
  | none =>
    have missing (content : String) :
        Entries.find? (repository.files head) name ≠ some content := by simp [has]
    by_cases behind : shelf.kind.indexesCommits ∧ repository.Behind head name
    · obtain ⟨commit, said⟩ := whole.said known behind.2
      refine ⟨_, ⟨fun content here => absurd here (missing content), ?_, ?_⟩,
        fun operation => leaves_of_commit leads apart behind.1 said behind.2⟩
      · intro _ other same _
        rw [Option.some.inj (said.symm.trans same)]
      · exact fun _ uncommitted => absurd behind uncommitted
    · refine ⟨[], ⟨fun content here => absurd here (missing content), ?_, fun _ _ => rfl⟩,
        fun operation => leaves_of_nothing leads has behind⟩
      exact fun code _ _ there => absurd ⟨code, there⟩ behind

theorem shows_applyAll (leads : changes.Leads repository shelf.kind last head)
    (whole : repository.Whole) (known : ∀ id, head = some id → (repository.find? id).isSome)
    (apart : shelf.kind.indexesCommits → ¬ repository.Clashes last head)
    (single : (shelf.fileAt name documents).length ≤ 1) {operations : List Operation}
    (ours : ∀ operation ∈ operations,
      operation.Targets shelf.index
        (Reference.repositoryId shelf.kind.fileKind shelf.project name) →
      operation ∈ shelf.operations changes)
    (touched : ∃ operation ∈ operations, operation.Targets shelf.index
      (Reference.repositoryId shelf.kind.fileKind shelf.project name)) :
    shelf.Shows repository head name
      (shelf.fileAt name (Operation.applyAll [] operations documents)) := by
  obtain ⟨found, shows, leaves⟩ := leaves_shown leads whole known apart name
  have after : shelf.fileAt name (Operation.applyAll [] operations documents) = found :=
    Operation.held_applyAll single
      (fun operation member targets => leaves operation (ours operation member targets) targets)
      (Or.inr touched)
  exact after ▸ shows

theorem touched_of_unlike (leads : changes.Leads repository shelf.kind last head)
    (whole : repository.Whole) (known : ∀ id, head = some id → (repository.find? id).isSome)
    (unlike : ¬ repository.Alike shelf.kind last head name) :
    ∃ operation ∈ shelf.operations changes, operation.Targets shelf.index
      (Reference.repositoryId shelf.kind.fileKind shelf.project name) := by
  by_cases files :
      Entries.find? (repository.files last) name = Entries.find? (repository.files head) name
  · obtain ⟨code, differ⟩ : ∃ _ : shelf.kind.indexesCommits,
        ¬ (repository.Behind last name ↔ repository.Behind head name) := by
      apply Classical.byContradiction
      intro same
      refine unlike ⟨files, fun code => Classical.byContradiction fun differ => ?_⟩
      exact same ⟨code, differ⟩
    by_cases behind : repository.Behind head name
    · obtain ⟨commit, said⟩ := whole.said known behind
      have new := leads.newCommits code name commit said behind fun old => differ (by tauto)
      obtain rfl := commit?_id said
      exact ⟨_, mem_operations.2 (Or.inr (Or.inl ⟨commit, new, rfl⟩)), rfl,
        commitId_eq_fileId code commit.id⟩
    · have lost := (leads.lostCommits name).2 ⟨code, by tauto, behind⟩
      exact ⟨_, mem_operations.2 (Or.inr (Or.inr (Or.inr ⟨name, lost, rfl⟩))), rfl,
        commitId_eq_fileId code name⟩
  · cases here : Entries.find? (repository.files head) name with
    | some content =>
      have new := leads.newFiles name content here fun old => files (old.trans here.symm)
      exact ⟨_, mem_operations.2 (Or.inl ⟨name, content, new, rfl⟩), rfl, rfl⟩
    | none =>
      have lost := (leads.lostFiles name).2 ⟨fun none => files (none.trans here.symm), here⟩
      exact ⟨_, mem_operations.2 (Or.inr (Or.inr (Or.inl ⟨name, lost, rfl⟩))), rfl, rfl⟩

/-- The pages of a wiki leave the ids of commits alone. -/
theorem not_targets_commit (leads : changes.Leads repository shelf.kind last head)
    (wiki : ¬ shelf.kind.indexesCommits) {operation : Operation}
    (member : operation ∈ shelf.operations changes) (id : String) :
    ¬ operation.Targets shelf.index (Reference.repositoryId .commit shelf.project id) := by
  have pages : shelf.kind.fileKind = .wikiBlob := by
    generalize shelf.kind = kind at wiki
    cases kind with
    | code => exact absurd rfl wiki
    | wiki => rfl
  rintro ⟨-, same⟩
  rcases mem_operations.1 member with ⟨path, _, _, rfl⟩ | ⟨commit, inside, rfl⟩ |
    ⟨path, _, rfl⟩ | ⟨sha, inside, rfl⟩
  · exact Reference.wikiId_ne_repositoryId (by decide) _ _ _ _ (pages ▸ same)
  · exact wiki (leads.commits commit inside).1
  · exact Reference.wikiId_ne_repositoryId (by decide) _ _ _ _ (pages ▸ same)
  · exact wiki ((leads.lostCommits sha).1 inside).1

/-- Changes that lead to a head bring the index in line with it, as long as no name clashes. -/
theorem InLine.advance (inLine : shelf.InLine repository last documents)
    (leads : changes.Leads repository shelf.kind last head) (whole : repository.Whole)
    (first : ∀ id, last = some id → (repository.find? id).isSome)
    (known : ∀ id, head = some id → (repository.find? id).isSome)
    (apart : shelf.kind.indexesCommits → ¬ repository.Clashes last head) :
    shelf.InLine repository head
      (Operation.applyAll [] (shelf.operations changes) documents) := by
  obtain ⟨shows, bare⟩ := inLine_iff.1 inLine
  refine inLine_iff.2 ⟨?_, ?_⟩
  · intro name
    by_cases touched : ∃ operation ∈ shelf.operations changes, operation.Targets shelf.index
        (Reference.repositoryId shelf.kind.fileKind shelf.project name)
    · exact shows_applyAll leads whole known apart (inLine.single whole first name)
        (fun _ member _ => member) touched
    · have alike : repository.Alike shelf.kind last head name :=
        Classical.byContradiction fun unlike => touched (touched_of_unlike leads whole known unlike)
      rw [fileAt, Operation.held_applyAll_other fun operation member targets =>
        touched ⟨operation, member, targets⟩]
      exact (shows name).alike alike
  · intro wiki id
    rw [commitAt, Operation.held_applyAll_other fun operation member =>
      not_targets_commit leads wiki member id]
    exact bare wiki id

/-- Where a name clashes, the index is not in line afterwards: the two share a document, or the
removal of the one takes the other away. -/
theorem InLine.not_clashes (inLine : shelf.InLine repository last documents)
    (after : shelf.InLine repository head
      (Operation.applyAll [] (shelf.operations changes) documents))
    (leads : changes.Leads repository shelf.kind last head) (whole : repository.Whole)
    (first : ∀ id, last = some id → (repository.find? id).isSome)
    (known : ∀ id, head = some id → (repository.find? id).isSome)
    (code : shelf.kind.indexesCommits) : ¬ repository.Clashes last head := by
  rintro ⟨name, file, commit⟩
  have removed := fileAt_removed leads (inLine.single whole first name)
  -- within one head the two share a document; across the run one of them was removed
  rcases file with oldFile | newFile <;> rcases commit with oldCommit | newCommit
  · exact inLine.apart whole first code oldFile oldCommit
  · have gone : Entries.find? (repository.files head) name = none := by
      apply Classical.byContradiction
      exact fun newFile => after.apart whole known code newFile newCommit
    have nothing := removed (Or.inl ((leads.lostFiles name).2 ⟨oldFile, gone⟩))
    obtain ⟨commit, said⟩ := whole.said known newCommit
    have there := after.commits code name commit said newCommit
    rw [commitAt_eq_fileAt code, nothing] at there
    cases there
  · have gone := after.apart whole known code newFile
    have nothing := removed (Or.inr ((leads.lostCommits name).2 ⟨code, oldCommit, gone⟩))
    obtain ⟨content, found⟩ := Option.ne_none_iff_exists'.1 newFile
    obtain ⟨sha, there⟩ := after.files name content found
    rw [nothing] at there
    cases there
  · exact after.apart whole known code newFile newCommit

end Shelf

end SearchRelay
