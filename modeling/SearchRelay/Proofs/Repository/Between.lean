import SearchRelay.Proofs.History.Ancestry
import SearchRelay.Proofs.Repository.Memory

/-!
The commits between two points of a history. Ancestors are looked for in a graph, and commits are
read from where they are stored; both go by the parents that a commit was last added with. So
what is read is the difference of two histories, or an error when one of them has a gap.
-/

namespace SearchRelay

/-- No later than the other point in time. -/
def Instant.NotAfter (first second : Instant) : Prop :=
  first.seconds < second.seconds ∨ first.seconds = second.seconds ∧ first.nanos ≤ second.nanos

namespace MemoryRepository

/-- What is done to a repository from the outside. -/
inductive Edit where
  | commit (id : String) (parents : List String) (message : String) (files : List (String × String))
  | head (head : Option String)

def edit (repository : MemoryRepository) : Edit → MemoryRepository
  | .commit id parents message files => repository.commit id parents message files
  | .head head => repository.withHead head

def built (edits : List Edit) : MemoryRepository := edits.foldl edit empty

/-- The commit that an edit adds, with its parents. -/
def Edit.added? : Edit → Option (String × List String)
  | .commit id parents _ _ => some (id, parents)
  | .head _ => none

def Edit.id? (edit : Edit) : Option String := edit.added?.map Prod.fst

/-- What is stored under an id: the commit that was added last, dated by the number of different
commits before it. -/
def Stores (edits : List Edit) (id : String) : Option StoredCommit → Prop
  | none => ∀ edit ∈ edits, edit.id? ≠ some id
  | some stored => ∃ before parents message files after,
      edits = before ++ .commit id parents message files :: after ∧
      (∀ edit ∈ after, edit.id? ≠ some id) ∧
      stored = dated (before.filterMap Edit.id?).dedup.length id parents message files

/-! ### What edits store -/

theorem built_concat (edits : List Edit) (last : Edit) :
    built (edits ++ [last]) = (built edits).edit last :=
  List.foldl_concat edit empty last edits

theorem isSome_find?_built (edits : List Edit) (id : String) :
    ((built edits).find? id).isSome ↔ id ∈ edits.filterMap Edit.id? := by
  induction edits using List.reverseRecOn with
  | nil => simp [built, empty, find?]
  | append_singleton edits last ih =>
    rw [built_concat, List.filterMap_append, List.mem_append, ← ih]
    cases last with
    | head head => simp [edit, withHead, find?, Edit.id?, Edit.added?]
    | commit other parents message files =>
      rw [edit, find?_commit]
      split
      next same => simp [same, Edit.id?, Edit.added?]
      next different => simp [different, Edit.id?, Edit.added?]

theorem nodup_built (edits : List Edit) :
    ((built edits).commits.map fun stored => stored.commit.id).Nodup := by
  induction edits using List.reverseRecOn with
  | nil => exact List.nodup_nil
  | append_singleton edits last ih =>
    rw [built_concat]
    cases last with
    | head head => exact ih
    | commit id parents message files =>
      refine List.nodup_cons.2 ⟨?_, ih.sublist (List.filter_sublist.map _)⟩
      intro again
      obtain ⟨stored, kept, same⟩ := List.mem_map.1 again
      simpa [same] using (List.mem_filter.1 kept).2

theorem length_built (edits : List Edit) :
    (built edits).commits.length = (edits.filterMap Edit.id?).dedup.length := by
  have same : ((built edits).commits.map fun stored => stored.commit.id).Perm
      (edits.filterMap Edit.id?).dedup := by
    apply (List.perm_ext_iff_of_nodup (nodup_built edits) (List.nodup_dedup _)).2
    intro id
    rw [List.mem_dedup, ← isSome_find?_built, find?, List.find?_isSome]
    simp
  rw [← same.length_eq, List.length_map]

theorem Stores.concat {edits : List Edit} {id : String} {found : Option StoredCommit}
    (stores : Stores edits id found) {last : Edit} (other : last.id? ≠ some id) :
    Stores (edits ++ [last]) id found := by
  cases found with
  | none => exact List.forall_mem_append.2 ⟨stores, List.forall_mem_singleton.2 other⟩
  | some stored =>
    obtain ⟨before, parents, message, files, after, rfl, later, rfl⟩ := stores
    refine ⟨before, parents, message, files, after ++ [last], by simp, ?_, rfl⟩
    exact List.forall_mem_append.2 ⟨later, List.forall_mem_singleton.2 other⟩

theorem stores_built (edits : List Edit) (id : String) : Stores edits id ((built edits).find? id) := by
  induction edits using List.reverseRecOn with
  | nil => exact nofun
  | append_singleton edits last ih =>
    rw [built_concat]
    cases last with
    | head head => exact ih.concat nofun
    | commit other parents message files =>
      rw [edit, find?_commit]
      split
      next same =>
        exact ⟨edits, parents, message, files, [], same ▸ rfl, nofun, by rw [length_built, same]⟩
      next different => exact ih.concat fun same => different (Option.some.inj same).symm

theorem graph_commit (repository : MemoryRepository) (id : String) (parents : List String)
    (message : String) (files : List (String × String)) :
    (repository.commit id parents message files).graph = repository.graph.add id parents := by
  simp only [commit, graph, CommitGraph.add, List.map_cons, List.filter_map]
  rfl

/-- The stored commits have the graph that one gets by adding them to an empty one. -/
theorem graph_built (edits : List Edit) :
    (built edits).graph = CommitGraph.built (edits.filterMap Edit.added?) := by
  have folded (repository : MemoryRepository) : (edits.foldl edit repository).graph =
      (edits.filterMap Edit.added?).foldl (fun graph commit => graph.add commit.1 commit.2)
        repository.graph := by
    induction edits generalizing repository with
    | nil => rfl
    | cons first rest ih =>
      cases first with
      | commit id parents message files =>
        rw [List.foldl_cons, ih, edit, graph_commit]
        rfl
      | head head => exact ih (repository.withHead head)
  exact folded empty

theorem nanos_built (edits : List Edit) :
    ∀ stored ∈ (built edits).commits, stored.commit.time.nanos = 0 := by
  have whole (seconds : Int) : (Instant.ofSeconds seconds).nanos = 0 := by
    unfold Instant.ofSeconds
    dsimp only
    split <;> rfl
  have folded (repository : MemoryRepository)
      (start : ∀ stored ∈ repository.commits, stored.commit.time.nanos = 0) :
      ∀ stored ∈ (edits.foldl edit repository).commits, stored.commit.time.nanos = 0 := by
    induction edits generalizing repository with
    | nil => exact start
    | cons first rest ih =>
      apply ih
      cases first with
      | head head => exact start
      | commit id parents message files =>
        refine List.forall_mem_cons.2 ⟨whole _, ?_⟩
        exact fun stored inside => start stored (List.mem_filter.1 inside).1
  exact folded empty nofun

variable {repository : MemoryRepository} {since : Option String} {last : String}
  {commits : List Commit}

theorem nodup_of_history {start : String} {reached : List StoredCommit}
    (read : repository.history start = .ok reached) :
    (reached.map fun stored => stored.commit.id).Nodup := by
  rw [ids_history read]
  exact repository.graph.nodup_history start

theorem nodup_of_between (read : repository.between since last = .ok commits) :
    (commits.map Commit.id).Nodup := by
  obtain ⟨hidden, reached, -, all, rfl⟩ := between_eq_ok.1 read
  rw [List.map_map]
  apply (((List.mergeSort_perm _ newerFirst).map _).nodup_iff).2
  exact (nodup_of_history all).sublist (List.filter_sublist.map _)

theorem newerFirst_trans (a b c : StoredCommit) (first : newerFirst a b) (second : newerFirst b c) :
    newerFirst a c := by
  simp only [newerFirst, decide_eq_true_eq] at first second ⊢
  exact Int.le_trans second first

theorem newerFirst_total (a b : StoredCommit) : (newerFirst a b || newerFirst b a) = true := by
  simp only [newerFirst, Bool.or_eq_true, decide_eq_true_eq]
  exact Int.le_total _ _

theorem pairwise_of_between (read : repository.between since last = .ok commits) :
    commits.Pairwise fun newer older => older.time.seconds ≤ newer.time.seconds := by
  obtain ⟨hidden, reached, -, -, rfl⟩ := between_eq_ok.1 read
  apply List.pairwise_map.2
  exact (List.pairwise_mergeSort newerFirst_trans newerFirst_total _).imp of_decide_eq_true

/-- Commits are dated by whole seconds, so the order by seconds is the one by time. -/
theorem notAfter_of_between {edits : List Edit}
    (read : (built edits).between since last = .ok commits) :
    commits.Pairwise fun newer older => older.time.NotAfter newer.time := by
  have whole : ∀ commit ∈ commits, commit.time.nanos = 0 := by
    intro commit inside
    obtain ⟨stored, found, rfl⟩ := Option.map_eq_some_iff.1 ((mem_of_between read).1 inside).1
    exact nanos_built edits stored (List.mem_of_find?_eq_some found)
  refine (pairwise_of_between read).imp_of_mem ?_
  intro newer older first second order
  rcases Int.lt_or_eq_of_le order with less | same
  · exact Or.inl less
  · exact Or.inr ⟨same, (whole older second).trans (whole newer first).symm ▸ Nat.le_refl _⟩

/-- A history that lies behind another one and what is between the two make up the later one. -/
theorem history_parts {first : String} {earlier reached : List StoredCommit}
    (read : repository.between (some first) last = .ok commits)
    (before : repository.history first = .ok earlier)
    (all : repository.history last = .ok reached)
    (behind : repository.graph.Reaches last first) :
    (earlier.map StoredCommit.commit ++ commits).Perm (reached.map StoredCommit.commit) := by
  obtain ⟨hidden, others, hides, same, rfl⟩ := between_eq_ok.1 read
  obtain rfl : earlier = hidden := Except.ok.inj (before.symm.trans hides)
  obtain rfl : reached = others := Except.ok.inj (all.symm.trans same)
  let ids := earlier.map fun stored => stored.commit.id
  let fresh := reached.filter fun stored => !ids.contains stored.commit.id
  have old : earlier.Nodup := (nodup_of_history before).of_map
  have distinct : reached.Nodup := (nodup_of_history all).of_map
  have apart : ∀ stored ∈ earlier, stored ∉ fresh := by
    intro stored inside later
    have unseen := (List.mem_filter.1 later).2
    rw [Bool.not_eq_true', ← Bool.not_eq_true, List.contains_iff_mem] at unseen
    exact unseen (List.mem_map_of_mem inside)
  have parts : (earlier ++ fresh).Perm reached := by
    apply (List.perm_ext_iff_of_nodup (old.append (distinct.filter _) apart) distinct).2
    intro stored
    rw [List.mem_append]
    constructor
    · rintro (inside | later)
      · obtain ⟨found, path⟩ := (mem_of_history before).1 inside
        exact (mem_of_history all).2 ⟨found, behind.trans path⟩
      · exact (List.mem_filter.1 later).1
    · intro inside
      obtain ⟨found, -⟩ := (mem_of_history all).1 inside
      by_cases seen : stored.commit.id ∈ ids
      · obtain ⟨other, known, same⟩ := List.mem_map.1 seen
        have held := ((mem_of_history before).1 known).1
        rw [same, found] at held
        exact Or.inl (Option.some.inj held ▸ known)
      · exact Or.inr (List.mem_filter.2 ⟨inside, by simpa using seen⟩)
  rw [← List.map_append]
  exact ((List.Perm.append_left earlier (List.mergeSort_perm fresh newerFirst)).trans parts).map _

/-- However a repository came about, it holds what was added last under each id, and the commits
between two points can be read if and only if no commit is missing in either history. They are those behind the later point that are not behind the
earlier one, each of them once, the newest first. The search for ancestors agrees: it finds the
earlier point just when the later history holds it, and then this history is made of the earlier
one and of what was read. -/
theorem between_partitions (edits : List Edit) (since : Option String) (last : String) :
    let repository := built edits
    (∀ id, Stores edits id (repository.find? id)) ∧
      repository.graph = CommitGraph.built (edits.filterMap Edit.added?) ∧
      ((∃ commits, repository.between since last = .ok commits) ↔
        ∀ id, repository.Behind (some last) id ∨ repository.Behind since id →
          (repository.find? id).isSome) ∧
      ∀ commits, repository.between since last = .ok commits →
        (commits.map Commit.id).Nodup ∧
        (∀ commit, commit ∈ commits ↔ repository.commit? commit.id = some commit ∧
          repository.Behind (some last) commit.id ∧ ¬ repository.Behind since commit.id) ∧
        (commits.Pairwise fun newer older => older.time.NotAfter newer.time) ∧
        ∀ first, since = some first → ∃ earlier reached,
          repository.history first = .ok earlier ∧ repository.history last = .ok reached ∧
          (reached.map fun stored => stored.commit.id).Nodup ∧
          (repository.view.isAncestor first last ↔
            first ∈ reached.map fun stored => stored.commit.id) ∧
          (repository.view.isAncestor first last →
            (earlier.map StoredCommit.commit ++ commits).Perm
              (reached.map StoredCommit.commit)) := by
  intro repository
  refine ⟨stores_built edits, graph_built edits, exists_between, fun commits read => ?_⟩
  refine ⟨nodup_of_between read, fun commit => mem_of_between read, notAfter_of_between read, ?_⟩
  · rintro first rfl
    obtain ⟨earlier, reached, before, all, -⟩ := between_eq_ok.1 read
    have behind : repository.view.isAncestor first last ↔ repository.graph.Reaches last first :=
      CommitGraph.isAncestor_iff
    refine ⟨earlier, reached, before, all, nodup_of_history all, ?_, fun ancestor => ?_⟩
    · rw [ids_history all, CommitGraph.mem_history, behind]
    · exact history_parts read before all (behind.1 ancestor)

end MemoryRepository

end SearchRelay
