import SearchRelay.History.Graph

/-!
Walking a history finds what lies behind a commit and nothing else, each commit once.
-/

namespace SearchRelay.CommitGraph

/-- A commit is reached from another one by going from commits to their parents. -/
inductive Reaches (graph : CommitGraph) : String → String → Prop where
  | self (commit : String) : Reaches graph commit commit
  | parent {commit parent other : String} {parents : List String}
      (known : graph.parents? commit = some parents) (member : parent ∈ parents)
      (rest : Reaches graph parent other) : Reaches graph commit other

theorem Reaches.trans {graph : CommitGraph} {a b c : String} (first : graph.Reaches a b)
    (second : graph.Reaches b c) : graph.Reaches a c := by
  induction first with
  | self => exact second
  | parent known member _ ih => exact .parent known member (ih second)

theorem parents?_add (graph : CommitGraph) (commit : String) (parents : List String)
    (other : String) : (graph.add commit parents).parents? other =
      if other = commit then some parents else graph.parents? other := by
  by_cases same : other = commit
  · simp [add, parents?, same]
  · rw [if_neg same, add, parents?, parents?, List.find?_cons_of_neg (by simpa using Ne.symm same),
      List.find?_filter]
    congr 2
    funext entry
    by_cases here : entry.1 = other
    · simp [here, same]
    · simp [here]

/-- Every parent of a visited commit was visited too or waits in the queue. -/
def Closed (graph : CommitGraph) (seen queue : List String) : Prop :=
  ∀ commit ∈ seen, ∀ parents, graph.parents? commit = some parents →
    ∀ parent ∈ parents, parent ∈ seen ∨ parent ∈ queue

variable {graph : CommitGraph} {seen queue : List String}

theorem seen_subset_visit {commit : String} (member : commit ∈ seen) :
    commit ∈ graph.visit seen queue := by
  fun_induction visit graph seen queue with
  | case1 => exact List.mem_reverse.2 member
  | case2 _ _ _ _ ih => exact ih member
  | case3 _ _ _ _ _ ih => exact ih (List.mem_cons_of_mem _ member)
  | case4 _ _ _ _ _ _ ih => exact ih (List.mem_cons_of_mem _ member)

theorem visit_sound {commit : String} (member : commit ∈ graph.visit seen queue) :
    commit ∈ seen ∨ ∃ start ∈ queue, graph.Reaches start commit := by
  fun_induction visit graph seen queue with
  | case1 => exact Or.inl (List.mem_reverse.1 member)
  | case2 seen first rest _ ih =>
    rcases ih member with old | ⟨start, inside, reached⟩
    · exact Or.inl old
    · exact Or.inr ⟨start, List.mem_cons_of_mem _ inside, reached⟩
  | case3 seen first rest _ _ ih =>
    rcases ih member with old | ⟨start, inside, reached⟩
    · rcases List.mem_cons.1 old with rfl | older
      · exact Or.inr ⟨commit, List.mem_cons_self, .self commit⟩
      · exact Or.inl older
    · exact Or.inr ⟨start, List.mem_cons_of_mem _ inside, reached⟩
  | case4 seen first rest _ parents known ih =>
    rcases ih member with old | ⟨start, inside, reached⟩
    · rcases List.mem_cons.1 old with rfl | older
      · exact Or.inr ⟨commit, List.mem_cons_self, .self commit⟩
      · exact Or.inl older
    · rcases List.mem_append.1 inside with waiting | parent
      · exact Or.inr ⟨start, List.mem_cons_of_mem _ waiting, reached⟩
      · exact Or.inr ⟨first, List.mem_cons_self, .parent known parent reached⟩

/-- The queue is visited, and so is every parent of what is visited. -/
theorem visit_closed (closed : graph.Closed seen queue) :
    (∀ commit ∈ queue, commit ∈ graph.visit seen queue) ∧
      graph.Closed (graph.visit seen queue) [] := by
  fun_induction visit graph seen queue with
  | case1 seen =>
    refine ⟨nofun, ?_⟩
    intro commit member parents known parent inside
    rcases closed commit (List.mem_reverse.1 member) parents known parent inside with old | waiting
    · exact Or.inl (List.mem_reverse.2 old)
    · exact Or.inr waiting
  | case2 seen first rest visited ih =>
    have here : first ∈ seen := List.contains_iff_mem.1 visited
    have still : graph.Closed seen rest := by
      intro commit member parents known parent inside
      rcases closed commit member parents known parent inside with old | waiting
      · exact Or.inl old
      · rcases List.mem_cons.1 waiting with rfl | later
        · exact Or.inl here
        · exact Or.inr later
    obtain ⟨queued, done⟩ := ih still
    exact ⟨List.forall_mem_cons.2 ⟨seen_subset_visit here, queued⟩, done⟩
  | case3 seen first rest _ unknown ih =>
    have still : graph.Closed (first :: seen) rest := by
      intro commit member parents known parent inside
      rcases List.mem_cons.1 member with rfl | older
      · rw [unknown] at known
        cases known
      · rcases closed commit older parents known parent inside with old | waiting
        · exact Or.inl (List.mem_cons_of_mem _ old)
        · rcases List.mem_cons.1 waiting with rfl | later
          · exact Or.inl List.mem_cons_self
          · exact Or.inr later
    obtain ⟨queued, done⟩ := ih still
    exact ⟨List.forall_mem_cons.2 ⟨seen_subset_visit List.mem_cons_self, queued⟩, done⟩
  | case4 seen first rest _ parents known ih =>
    have still : graph.Closed (first :: seen) (rest ++ parents) := by
      intro commit member others found parent inside
      rcases List.mem_cons.1 member with rfl | older
      · obtain rfl : parents = others := Option.some.inj (known.symm.trans found)
        exact Or.inr (List.mem_append_right _ inside)
      · rcases closed commit older others found parent inside with old | waiting
        · exact Or.inl (List.mem_cons_of_mem _ old)
        · rcases List.mem_cons.1 waiting with rfl | later
          · exact Or.inl List.mem_cons_self
          · exact Or.inr (List.mem_append_left _ later)
    obtain ⟨queued, done⟩ := ih still
    refine ⟨List.forall_mem_cons.2 ⟨seen_subset_visit List.mem_cons_self, ?_⟩, done⟩
    exact fun commit inside => queued commit (List.mem_append_left _ inside)

theorem nodup_visit (distinct : seen.Nodup) : (graph.visit seen queue).Nodup := by
  fun_induction visit graph seen queue with
  | case1 => exact (List.reverse_perm _).nodup_iff.2 distinct
  | case2 _ _ _ _ ih => exact ih distinct
  | case3 _ _ _ fresh _ ih =>
    exact ih (List.nodup_cons.2 ⟨mt List.contains_iff_mem.2 fresh, distinct⟩)
  | case4 _ _ _ fresh _ _ ih =>
    exact ih (List.nodup_cons.2 ⟨mt List.contains_iff_mem.2 fresh, distinct⟩)

theorem nodup_history (graph : CommitGraph) (commit : String) : (graph.history commit).Nodup :=
  nodup_visit List.nodup_nil

/-- The history of a commit is what is reached from it. -/
theorem mem_history {commit other : String} :
    other ∈ graph.history commit ↔ graph.Reaches commit other := by
  constructor
  · intro member
    rcases visit_sound member with old | ⟨start, inside, reached⟩
    · exact absurd old List.not_mem_nil
    · exact List.mem_singleton.1 inside ▸ reached
  · intro reached
    have nothing : graph.Closed [] [commit] := nofun
    obtain ⟨queued, closed⟩ := visit_closed nothing
    have start := queued commit List.mem_cons_self
    have whole {first last : String} (path : graph.Reaches first last)
        (visited : first ∈ graph.visit [] [commit]) : last ∈ graph.visit [] [commit] := by
      induction path with
      | self => exact visited
      | parent known member _ ih =>
        rcases closed _ visited _ known _ member with inside | waiting
        · exact ih inside
        · exact absurd waiting List.not_mem_nil
    exact whole reached start

theorem isAncestor_iff {ancestor descendant : String} :
    graph.isAncestor ancestor descendant ↔ graph.Reaches descendant ancestor := by
  rw [isAncestor, List.contains_iff_mem, mem_history]

end SearchRelay.CommitGraph
