import SearchRelay.Proofs.Entries
import SearchRelay.Proofs.History.Graph
import SearchRelay.Repository.Memory

/-!
A repository in memory that only grows. What lies behind a commit can always be read, and stays what
it was while commits are added and the head moves.
-/

namespace SearchRelay.MemoryRepository

/-- Every parent is there, every tree is in order, and the head is at a commit that is there. -/
structure Whole (repository : MemoryRepository) : Prop where
  parents : ∀ id stored, repository.find? id = some stored →
    ∀ parent ∈ stored.parents, (repository.find? parent).isSome
  trees : ∀ id stored, repository.find? id = some stored → Entries.Sorted stored.tree
  head : ∀ id, repository.head = some id → (repository.find? id).isSome

/-- Every commit of the earlier repository is in the later one as it was. -/
def Grows (earlier later : MemoryRepository) : Prop :=
  ∀ id stored, earlier.find? id = some stored → later.find? id = some stored

/-- The commit lies in the history of the one that a head is at. -/
def Behind (repository : MemoryRepository) (head : Option String) (id : String) : Prop :=
  ∃ start, head = some start ∧ repository.graph.Reaches start id

def files (repository : MemoryRepository) (head : Option String) : FileTree :=
  ((head.bind repository.find?).map StoredCommit.tree).getD []

/-- A commit as it is stored behind some others. -/
def dated (count : Nat) (id : String) (parents : List String) (message : String)
    (files : List (String × String)) : StoredCommit :=
  ⟨⟨id, message, "Ada Lovelace", Instant.ofSeconds (firstCommit + 60 * count)⟩, parents,
    Entries.ofList files⟩

def commit? (repository : MemoryRepository) (id : String) : Option Commit :=
  (repository.find? id).map StoredCommit.commit

variable {repository earlier later : MemoryRepository}

theorem find?_id {id : String} {stored : StoredCommit}
    (known : repository.find? id = some stored) : stored.commit.id = id := by
  simpa using List.find?_some known

theorem commit?_id {id : String} {commit : Commit} (known : repository.commit? id = some commit) :
    commit.id = id := by
  obtain ⟨stored, found, rfl⟩ := Option.map_eq_some_iff.1 known
  exact find?_id found

theorem parents?_graph (repository : MemoryRepository) (id : String) :
    repository.graph.parents? id = (repository.find? id).map StoredCommit.parents := by
  rw [CommitGraph.parents?, graph, find?, List.find?_map, Option.map_map]
  rfl

theorem Whole.sorted_files (whole : repository.Whole) (head : Option String) :
    Entries.Sorted (repository.files head) := by
  rw [files]
  cases found : head.bind repository.find? with
  | none => exact List.Pairwise.nil
  | some stored =>
    obtain ⟨id, -, known⟩ := Option.bind_eq_some_iff.1 found
    exact whole.trees id stored known

/-! ### Reading histories -/

theorem Whole.reached (whole : repository.Whole) {start id : String}
    (known : (repository.find? start).isSome) (reached : repository.graph.Reaches start id) :
    (repository.find? id).isSome := by
  induction reached with
  | self => exact known
  | parent parents member _ ih =>
    rw [parents?_graph] at parents
    obtain ⟨stored, found, rfl⟩ := Option.map_eq_some_iff.1 parents
    exact ih (whole.parents _ stored found _ member)

theorem Whole.said (whole : repository.Whole) {head : Option String}
    (known : ∀ id, head = some id → (repository.find? id).isSome) {id : String}
    (behind : repository.Behind head id) : ∃ commit, repository.commit? id = some commit := by
  obtain ⟨start, same, reached⟩ := behind
  obtain ⟨stored, found⟩ := Option.isSome_iff_exists.1 (whole.reached (known start same) reached)
  exact ⟨stored.commit, by rw [commit?, found]; rfl⟩

/-- Commits are read just when all of them are there, each as it is stored. -/
theorem storedAll_eq_ok {ids : List String} {commits : List StoredCommit} :
    repository.storedAll ids = .ok commits ↔ ids.map repository.find? = commits.map some := by
  induction ids generalizing commits with
  | nil => cases commits <;> simp [storedAll]
  | cons id ids ih =>
    rw [storedAll, MemoryRepository.stored, List.map_cons]
    cases repository.find? id with
    | none => cases commits <;> simp
    | some stored =>
      dsimp only
      constructor
      · intro read
        split at read
        next => cases read
        next others rest =>
          obtain rfl := Except.ok.inj read
          rw [ih.1 rest, List.map_cons]
      · intro same
        cases commits with
        | nil => cases same
        | cons first others =>
          obtain ⟨here, rest⟩ := List.cons.inj same
          obtain rfl := Option.some.inj here
          rw [ih.2 rest]

section
variable {start : String} {commits : List StoredCommit}

theorem exists_history : (∃ commits, repository.history start = .ok commits) ↔
    ∀ id, repository.graph.Reaches start id → (repository.find? id).isSome := by
  simp only [MemoryRepository.history, storedAll_eq_ok, ← CommitGraph.mem_history]
  induction repository.graph.history start with
  | nil => exact iff_of_true ⟨[], rfl⟩ nofun
  | cons id ids ih =>
    rw [List.forall_mem_cons, ← ih, List.map_cons]
    constructor
    · rintro ⟨commits, read⟩
      cases commits with
      | nil => cases read
      | cons first commits =>
        obtain ⟨known, others⟩ := List.cons.inj read
        exact ⟨known ▸ rfl, commits, others⟩
    · rintro ⟨known, commits, others⟩
      obtain ⟨stored, found⟩ := Option.isSome_iff_exists.1 known
      exact ⟨stored :: commits, by rw [found, others, List.map_cons]⟩

theorem ids_history (read : repository.history start = .ok commits) :
    commits.map (fun stored => stored.commit.id) = repository.graph.history start := by
  rw [MemoryRepository.history, storedAll_eq_ok] at read
  generalize repository.graph.history start = ids at read ⊢
  induction ids generalizing commits with
  | nil => cases commits with | nil => rfl | cons _ _ => cases read
  | cons id ids ih =>
    cases commits with
    | nil => cases read
    | cons first commits =>
      obtain ⟨known, others⟩ := List.cons.inj read
      rw [List.map_cons, find?_id known, ih others]

/-- A history that can be read holds what is reached. -/
theorem mem_of_history (read : repository.history start = .ok commits) {stored : StoredCommit} :
    stored ∈ commits ↔ repository.find? stored.commit.id = some stored ∧
      repository.graph.Reaches start stored.commit.id := by
  have all := storedAll_eq_ok.1 read
  have inside : stored ∈ commits ↔
      ∃ id ∈ repository.graph.history start, repository.find? id = some stored := by
    rw [← List.mem_map, all]
    simp
  rw [inside]
  constructor
  · rintro ⟨id, member, found⟩
    obtain rfl := find?_id found
    exact ⟨found, CommitGraph.mem_history.1 member⟩
  · rintro ⟨found, reached⟩
    exact ⟨_, CommitGraph.mem_history.2 reached, found⟩

end

/-- The history that is not wanted, if there is any. -/
def hidden (repository : MemoryRepository) : Option String → Outcome (List StoredCommit)
  | some id => repository.history id
  | none => .ok []

section
variable {since : Option String} {last : String}

theorem mem_of_hidden {commits : List StoredCommit} (read : repository.hidden since = .ok commits)
    {stored : StoredCommit} :
    stored ∈ commits ↔ repository.find? stored.commit.id = some stored ∧
      repository.Behind since stored.commit.id := by
  cases since with
  | none =>
    obtain rfl := Except.ok.inj read
    simp [Behind]
  | some id => simp [mem_of_history read, Behind]

theorem exists_hidden : (∃ commits, repository.hidden since = .ok commits) ↔
    ∀ id, repository.Behind since id → (repository.find? id).isSome := by
  cases since with
  | none => simp [hidden, Behind]
  | some id => simp [hidden, Behind, exists_history]

/-- What lies between two points is what is left of the history of the later one. -/
theorem between_eq_ok {commits : List Commit} : repository.between since last = .ok commits ↔
    ∃ hidden reached, repository.hidden since = .ok hidden ∧
      repository.history last = .ok reached ∧
      commits = ((reached.filter fun stored =>
        !(hidden.map fun stored => stored.commit.id).contains stored.commit.id).mergeSort
          newerFirst).map StoredCommit.commit := by
  unfold between hidden
  cases since with
  | none =>
    dsimp only
    cases repository.history last with
    | error report => simp
    | ok reached => simp [eq_comm]
  | some id =>
    dsimp only
    cases repository.history id with
    | error report => simp
    | ok hidden =>
      cases repository.history last with
      | error report => simp
      | ok reached => simp [eq_comm]

theorem exists_between : (∃ commits, repository.between since last = .ok commits) ↔
    ∀ id, repository.Behind (some last) id ∨ repository.Behind since id →
      (repository.find? id).isSome := by
  have later : (∃ commits, repository.history last = .ok commits) ↔
      ∀ id, repository.Behind (some last) id → (repository.find? id).isSome :=
    @exists_hidden repository (some last)
  simp only [or_imp, forall_and, ← later, ← exists_hidden, between_eq_ok]
  constructor
  · rintro ⟨commits, hidden, reached, hides, read, -⟩
    exact ⟨⟨reached, read⟩, hidden, hides⟩
  · rintro ⟨⟨reached, read⟩, hidden, hides⟩
    exact ⟨_, hidden, reached, hides, read, rfl⟩

/-- The commits between two points are those behind the later point that are not behind the earlier
one. -/
theorem mem_of_between {commits : List Commit}
    (read : repository.between since last = .ok commits) {commit : Commit} :
    commit ∈ commits ↔ repository.commit? commit.id = some commit ∧
      repository.Behind (some last) commit.id ∧ ¬ repository.Behind since commit.id := by
  obtain ⟨hidden, reached, hides, all, rfl⟩ := between_eq_ok.1 read
  have fresh (stored : StoredCommit) (found : repository.find? stored.commit.id = some stored) :
      (∃ other ∈ hidden, other.commit.id = stored.commit.id) ↔
        repository.Behind since stored.commit.id := by
    constructor
    · rintro ⟨other, inside, same⟩
      rw [← same]
      exact ((mem_of_hidden hides).1 inside).2
    · exact fun behind => ⟨stored, (mem_of_hidden hides).2 ⟨found, behind⟩, rfl⟩
  simp only [List.mem_map, List.mem_mergeSort, List.mem_filter, Bool.not_eq_true',
    Bool.eq_false_iff, ne_eq, List.contains_iff_mem]
  constructor
  · rintro ⟨stored, ⟨inside, unseen⟩, rfl⟩
    obtain ⟨found, path⟩ := (mem_of_history all).1 inside
    refine ⟨by rw [commit?, found]; rfl, ⟨last, rfl, path⟩, ?_⟩
    exact fun behind => unseen ((fresh stored found).2 behind)
  · rintro ⟨found, ⟨start, same, path⟩, unseen⟩
    cases same
    obtain ⟨stored, held, rfl⟩ := Option.map_eq_some_iff.1 found
    refine ⟨stored, ⟨(mem_of_history all).2 ⟨held, path⟩, ?_⟩, rfl⟩
    exact fun seen => unseen ((fresh stored held).1 seen)

/-- In a whole repository the commits between two points can be read. -/
theorem Whole.between (whole : repository.Whole)
    (first : ∀ id, since = some id → (repository.find? id).isSome)
    (known : (repository.find? last).isSome) :
    ∃ commits, repository.between since last = .ok commits ∧
      ∀ commit, commit ∈ commits ↔ repository.commit? commit.id = some commit ∧
        repository.Behind (some last) commit.id ∧ ¬ repository.Behind since commit.id := by
  obtain ⟨commits, read⟩ : ∃ commits, repository.between since last = .ok commits := by
    apply exists_between.2
    rintro id (⟨start, same, reached⟩ | ⟨start, same, reached⟩)
    · cases same
      exact whole.reached known reached
    · exact whole.reached (first start same) reached
  exact ⟨commits, read, fun commit => mem_of_between read⟩

end

theorem isAncestor_graph {ancestor head : String} :
    repository.graph.isAncestor ancestor head = true ↔ repository.Behind (some head) ancestor := by
  rw [CommitGraph.isAncestor_iff]
  simp [Behind]

/-! ### Growing -/

theorem Grows.refl (repository : MemoryRepository) : repository.Grows repository :=
  fun _ _ known => known

theorem Grows.isSome (grows : earlier.Grows later) {id : String}
    (known : (earlier.find? id).isSome) : (later.find? id).isSome := by
  obtain ⟨stored, found⟩ := Option.isSome_iff_exists.1 known
  rw [grows id stored found]
  rfl

theorem Grows.find? (grows : earlier.Grows later) {id : String}
    (known : (earlier.find? id).isSome) : later.find? id = earlier.find? id := by
  obtain ⟨stored, found⟩ := Option.isSome_iff_exists.1 known
  rw [found, grows id stored found]

theorem Grows.reaches (grows : earlier.Grows later) (whole : earlier.Whole) {start id : String}
    (known : (earlier.find? start).isSome) :
    later.graph.Reaches start id ↔ earlier.graph.Reaches start id := by
  constructor
  · intro reached
    induction reached with
    | self => exact .self _
    | parent parents member _ ih =>
      rw [parents?_graph, grows.find? known, ← parents?_graph] at parents
      have next : earlier.graph.Reaches _ _ := .parent parents member (.self _)
      exact next.trans (ih (whole.reached known next))
  · intro reached
    clear known
    induction reached with
    | self => exact .self _
    | parent parents member _ ih =>
      rw [parents?_graph] at parents
      obtain ⟨stored, found, same⟩ := Option.map_eq_some_iff.1 parents
      exact .parent (by rw [parents?_graph, grows _ stored found, ← same]; rfl) member ih

theorem Grows.behind (grows : earlier.Grows later) (whole : earlier.Whole) {head : Option String}
    (known : ∀ id, head = some id → (earlier.find? id).isSome) {id : String} :
    later.Behind head id ↔ earlier.Behind head id := by
  apply exists_congr
  intro start
  apply and_congr_right
  exact fun same => grows.reaches whole (known start same)

theorem Grows.files (grows : earlier.Grows later) {head : Option String}
    (known : ∀ id, head = some id → (earlier.find? id).isSome) :
    later.files head = earlier.files head := by
  cases head with
  | none => rfl
  | some id => simp only [MemoryRepository.files, Option.bind_some, grows.find? (known id rfl)]

theorem Grows.commit? (grows : earlier.Grows later) {id : String} {commit : Commit}
    (known : earlier.commit? id = some commit) : later.commit? id = some commit := by
  obtain ⟨stored, found, rfl⟩ := Option.map_eq_some_iff.1 known
  rw [MemoryRepository.commit?, grows id stored found]
  rfl

theorem find?_commit (repository : MemoryRepository) (id : String) (parents : List String)
    (message : String) (files : List (String × String)) (other : String) :
    (repository.commit id parents message files).find? other =
      if other = id then some (dated repository.commits.length id parents message files)
      else repository.find? other := by
  by_cases same : other = id
  · simp [commit, find?, same, dated]
  · rw [if_neg same, commit, find?, find?, List.find?_cons_of_neg (by simpa using Ne.symm same),
      List.find?_filter]
    congr 1
    funext stored
    by_cases here : stored.commit.id = other
    · simp [here, same]
    · simp [here]

theorem Whole.commit (whole : repository.Whole) {id : String} {parents : List String}
    (fresh : repository.find? id = none)
    (known : ∀ parent ∈ parents, (repository.find? parent).isSome)
    (message : String) (files : List (String × String)) :
    (repository.commit id parents message files).Whole ∧
      repository.Grows (repository.commit id parents message files) := by
  have grows : repository.Grows (repository.commit id parents message files) := by
    intro other stored found
    rw [find?_commit, if_neg, found]
    rintro rfl
    rw [fresh] at found
    cases found
  refine ⟨⟨?_, ?_, ?_⟩, grows⟩
  · intro other stored found parent member
    rw [find?_commit] at found
    split at found
    · cases found
      exact grows.isSome (known parent member)
    · exact grows.isSome (whole.parents other stored found parent member)
  · intro other stored found
    rw [find?_commit] at found
    split at found
    · cases found
      exact Entries.sorted_ofList files
    · exact whole.trees other stored found
  · rintro _ ⟨⟩
    rw [find?_commit, if_pos rfl]
    rfl

theorem Whole.withHead (whole : repository.Whole) {head : Option String}
    (known : ∀ id, head = some id → (repository.find? id).isSome) :
    (repository.withHead head).Whole ∧ repository.Grows (repository.withHead head) :=
  ⟨⟨whole.parents, whole.trees, known⟩, Grows.refl repository⟩

theorem whole_empty : empty.Whole := ⟨nofun, nofun, nofun⟩

end SearchRelay.MemoryRepository
