import Mathlib
import SearchRelay.Proofs.History.Graph
import SearchRelay.Repository.Status

/-!
The search for an ancestor, step by step. However commits were added, with parents that nobody
knows, with cycles or more than once, the search takes each link from a commit to a parent at most
once, so it ends; until then it has met just the commits that lie behind the first one.
-/

namespace SearchRelay

namespace CommitGraph

variable {graph : CommitGraph}

/-! ### Graphs that were built -/

/-- The graph after commits were added with their parents, one after the other. -/
def built (commits : List (String × List String)) : CommitGraph :=
  commits.foldl (fun graph commit => graph.add commit.1 commit.2) empty

/-- The parent is one of those that the commit was last added with. -/
def IsParent (commits : List (String × List String)) (commit parent : String) : Prop :=
  ∃ parents, (commits.reverse.find? fun added => added.1 == commit) = some (commit, parents) ∧
    parent ∈ parents

theorem parents?_foldl (commits : List (String × List String)) (graph : CommitGraph)
    (commit : String) :
    (commits.foldl (fun graph commit => graph.add commit.1 commit.2) graph).parents? commit =
      ((commits.reverse.find? fun added => added.1 == commit).map Prod.snd).or
        (graph.parents? commit) := by
  induction commits generalizing graph with
  | nil => rfl
  | cons first rest ih =>
    rw [List.foldl_cons, ih, parents?_add, List.reverse_cons, List.find?_append]
    cases rest.reverse.find? fun added => added.1 == commit with
    | some added => rfl
    | none =>
      by_cases same : commit = first.1
      · simp [same]
      · simp [same, Ne.symm same]

theorem parents?_built {commits : List (String × List String)} {commit parent : String} :
    (∃ parents, (built commits).parents? commit = some parents ∧ parent ∈ parents) ↔
      IsParent commits commit parent := by
  have nothing : empty.parents? commit = none := rfl
  rw [built, IsParent]
  simp only [parents?_foldl, nothing, Option.or_none, Option.map_eq_some_iff]
  constructor
  · rintro ⟨_, ⟨⟨key, parents⟩, found, rfl⟩, member⟩
    obtain rfl : key = commit := by simpa using List.find?_some found
    exact ⟨parents, found, member⟩
  · rintro ⟨parents, found, member⟩
    exact ⟨parents, ⟨_, found, rfl⟩, member⟩

theorem reaches_built {commits : List (String × List String)} {commit other : String} :
    (built commits).Reaches commit other ↔
      Relation.ReflTransGen (IsParent commits) commit other := by
  constructor
  · intro reached
    induction reached with
    | self => exact .refl
    | parent known member _ ih => exact .head (parents?_built.1 ⟨_, known, member⟩) ih
  · intro path
    induction path using Relation.ReflTransGen.head_induction_on with
    | refl => exact .self other
    | head link _ ih =>
      obtain ⟨parents, known, member⟩ := parents?_built.2 link
      exact .parent known member ih

/-! ### One step -/

/-- One step of a walk, from the commits that were visited and those that wait: the first one that
waits is passed over if it was visited before, and else visited, and its parents wait. -/
def step (graph : CommitGraph) : List String × List String → List String × List String
  | (seen, []) => (seen, [])
  | (seen, commit :: rest) =>
    if seen.contains commit then (seen, rest)
    else (commit :: seen, rest ++ (graph.parents? commit).getD [])

/-- The number of links to parents from commits that were not visited yet. -/
def links (graph : CommitGraph) (seen : List String) : Nat :=
  (graph.entries.map fun entry => if seen.contains entry.1 then 0 else entry.2.length).sum

/-- A visited commit takes the links to its parents with it. -/
theorem links_cons (graph : CommitGraph) {seen : List String} {commit : String}
    (fresh : ¬ seen.contains commit) :
    graph.links (commit :: seen) + ((graph.parents? commit).getD []).length ≤ graph.links seen := by
  have fewer (entry : String × List String) :
      (if (commit :: seen).contains entry.1 then 0 else entry.2.length) ≤
        if seen.contains entry.1 then 0 else entry.2.length := by
    rw [List.contains_cons]
    cases seen.contains entry.1 <;> cases entry.1 == commit <;> simp
  unfold links parents?
  induction graph.entries with
  | nil => simp
  | cons entry rest ih =>
    simp only [List.map_cons, List.sum_cons, List.find?_cons]
    by_cases here : entry.1 = commit
    · have others := List.sum_le_sum fun entry (_ : entry ∈ rest) => fewer entry
      have now : (commit :: seen).contains entry.1 := by simp [here]
      have before : ¬ seen.contains entry.1 := here ▸ fresh
      rw [if_pos now, if_neg before, beq_iff_eq.2 here, Option.map_some, Option.getD_some]
      omega
    · have first := fewer entry
      simp only [beq_eq_false_iff_ne.2 here]
      omega

/-- A walk ends: every step takes a commit from the queue, and only links that were not taken
before bring new ones. -/
theorem step_ends (seen queue : List String) :
    ∃ steps ≤ graph.links seen + queue.length,
      graph.step^[steps] (seen, queue) = ((graph.visit seen queue).reverse, []) := by
  fun_induction visit graph seen queue with
  | case1 seen => exact ⟨0, Nat.zero_le _, by simp⟩
  | case2 seen commit rest visited ih =>
    obtain ⟨steps, few, done⟩ := ih
    refine ⟨steps + 1, Nat.succ_le_succ few, ?_⟩
    rw [Function.iterate_succ_apply, step, if_pos visited, done]
  | case3 seen commit rest fresh unknown ih =>
    obtain ⟨steps, few, done⟩ := ih
    have left := graph.links_cons fresh
    refine ⟨steps + 1, ?_, ?_⟩
    · rw [List.length_cons]
      omega
    · rw [Function.iterate_succ_apply, step, if_neg fresh, unknown, Option.getD_none,
        List.append_nil, done]
  | case4 seen commit rest fresh parents known ih =>
    obtain ⟨steps, few, done⟩ := ih
    have left := graph.links_cons fresh
    rw [known, Option.getD_some] at left
    refine ⟨steps + 1, ?_, ?_⟩
    · rw [List.length_append] at few
      rw [List.length_cons]
      omega
    · rw [Function.iterate_succ_apply, step, if_neg fresh, known, Option.getD_some, done]

theorem front_iff (seen : List String) (first : String) (rest : List String) {commit : String} :
    (∃ steps, (graph.step^[steps] (seen, first :: rest)).2.head? = some commit) ↔
      commit = first ∨
        ∃ steps, (graph.step^[steps] (graph.step (seen, first :: rest))).2.head? = some commit := by
  rw [← Nat.or_exists_add_one]
  simp only [Function.iterate_succ_apply, Function.iterate_zero, id_eq, List.head?_cons,
    Option.some_inj, eq_comm]

/-- A walk visits what it meets at the front of its queue. -/
theorem mem_visit_iff_front {seen queue : List String} {commit : String} :
    commit ∈ graph.visit seen queue ↔
      commit ∈ seen ∨ ∃ steps, (graph.step^[steps] (seen, queue)).2.head? = some commit := by
  fun_induction visit graph seen queue with
  | case1 seen =>
    have still (steps : Nat) : graph.step^[steps] (seen, []) = (seen, []) :=
      Function.iterate_fixed rfl steps
    simp [still]
  | case2 seen first rest visited ih =>
    rw [ih, front_iff, step, if_pos visited]
    have old : commit = first → commit ∈ seen := fun same => same ▸ List.contains_iff_mem.1 visited
    tauto
  | case3 seen first rest fresh unknown ih =>
    rw [ih, front_iff, step, if_neg fresh, unknown, Option.getD_none, List.append_nil,
      List.mem_cons, or_assoc, or_left_comm]
  | case4 seen first rest fresh parents known ih =>
    rw [ih, front_iff, step, if_neg fresh, known, Option.getD_some, List.mem_cons, or_assoc,
      or_left_comm]

theorem isAncestor_iff_front {ancestor descendant : String} :
    graph.isAncestor ancestor descendant ↔
      ∃ steps, (graph.step^[steps] ([], [descendant])).2.head? = some ancestor := by
  rw [isAncestor, List.contains_iff_mem, history, mem_visit_iff_front]
  simp

end CommitGraph

/-! ### Plans -/

namespace Plan

variable {status : Option Status} {isAncestor : String → String → Bool} {head : String}

theorem decide_incremental {first last : String} :
    decide status isAncestor (some head) = .incremental first last ↔
      status.map Status.lastCommit = some first ∧ last = head ∧ first ≠ head ∧
        isAncestor first head := by
  cases status with
  | none => simp [decide]
  | some status =>
    simp only [decide, Option.map_some, Option.some_inj]
    constructor
    · intro planned
      split at planned
      next => cases planned
      next apart =>
        split at planned
        next behind =>
          obtain ⟨rfl, rfl⟩ := Plan.incremental.inj planned
          exact ⟨rfl, rfl, apart, behind⟩
        next => cases planned
    · rintro ⟨rfl, rfl, apart, behind⟩
      rw [if_neg apart, if_pos behind]

/-- Everything is indexed when nothing is recorded, or the recorded commit is another one and no
ancestor of the head. -/
theorem decide_full {commit : String} :
    decide status isAncestor (some head) = .full commit ↔
      commit = head ∧ ∀ last, status.map Status.lastCommit = some last →
        last ≠ head ∧ ¬ isAncestor last head := by
  cases status with
  | none =>
    simp only [decide, Option.map_none, reduceCtorEq, false_implies, implies_true, and_true,
      Plan.full.injEq]
    exact eq_comm
  | some status =>
    simp only [decide, Option.map_some, Option.some_inj, forall_eq']
    constructor
    · intro planned
      split at planned
      next => cases planned
      next apart =>
        split at planned
        next => cases planned
        next ahead => exact ⟨(Plan.full.inj planned).symm, apart, ahead⟩
    · rintro ⟨rfl, apart, ahead⟩
      rw [if_neg apart, if_neg ahead]

end Plan

/-- Whatever commits were added, the search for an ancestor ends after as many steps as there are
links, and one more. It meets the ancestor just when parents lead there, and plans follow: changes
are enough for a head if the recorded commit lies behind it. -/
theorem CommitGraph.ancestry_exact (commits : List (String × List String))
    (ancestor descendant : String) :
    let graph := built commits
    let Behind := Relation.ReflTransGen (IsParent commits)
    (∃ steps ≤ graph.links [] + 1, (graph.step^[steps] ([], [descendant])).2 = []) ∧
      (graph.isAncestor ancestor descendant ↔
        ∃ steps, (graph.step^[steps] ([], [descendant])).2.head? = some ancestor) ∧
      (graph.isAncestor ancestor descendant ↔ Behind descendant ancestor) ∧
      ∀ (status : Option Status) (head : String),
        let recorded := status.map Status.lastCommit
        let plan := Plan.decide status graph.isAncestor (some head)
        (∀ first last, plan = .incremental first last ↔
          last = head ∧ recorded = some first ∧ first ≠ head ∧ Behind head first) ∧
        ∀ commit, plan = .full commit ↔
          commit = head ∧ (recorded = none ∨ ∃ last, recorded = some last ∧ ¬ Behind head last) := by
  intro graph Behind
  have walked (first last : String) : graph.isAncestor first last ↔ Behind last first := by
    rw [isAncestor_iff, reaches_built]
  refine ⟨?_, isAncestor_iff_front, walked ancestor descendant, ?_⟩
  · obtain ⟨steps, few, done⟩ := graph.step_ends [] [descendant]
    exact ⟨steps, few, congrArg Prod.snd done⟩
  · intro status head recorded plan
    refine ⟨fun first last => ?_, fun commit => ?_⟩
    · rw [Plan.decide_incremental, walked]
      tauto
    · rw [Plan.decide_full]
      apply and_congr_right
      rintro -
      cases status with
      | none => simp [recorded]
      | some status =>
        -- the head lies behind itself, so a commit that does not is another one
        have apart : ¬ Behind head status.lastCommit → status.lastCommit ≠ head :=
          fun ahead same => ahead (same ▸ .refl)
        simp only [recorded, walked, Option.map_some, Option.some_inj, forall_eq', reduceCtorEq,
          false_or, exists_eq_left']
        exact ⟨And.right, fun ahead => ⟨apart ahead, ahead⟩⟩

end SearchRelay
