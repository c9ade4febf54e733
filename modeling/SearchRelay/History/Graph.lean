/-!
Histories as graphs: every known commit and its parents. Walking a history visits each commit once,
nearest first, and ends because every step either shortens the queue or leaves fewer known commits
to visit.
-/

namespace SearchRelay

/-- Known commits with their parents. A parent need not be known. -/
structure CommitGraph where
  entries : List (String × List String)
deriving Repr

namespace CommitGraph

def empty : CommitGraph := ⟨[]⟩

def parents? (graph : CommitGraph) (commit : String) : Option (List String) :=
  (graph.entries.find? fun entry => entry.1 == commit).map Prod.snd

def add (graph : CommitGraph) (commit : String) (parents : List String) : CommitGraph :=
  ⟨(commit, parents) :: graph.entries.filter fun entry => entry.1 != commit⟩

/-- The number of known commits that were not visited yet. -/
def unvisited (graph : CommitGraph) (seen : List String) : Nat :=
  graph.entries.countP fun entry => !seen.contains entry.1

theorem unvisited_cons_le (graph : CommitGraph) (seen : List String) (commit : String) :
    graph.unvisited (commit :: seen) ≤ graph.unvisited seen := by
  apply List.countP_mono_left
  intro entry _ fresh
  simp only [List.contains_cons, Bool.not_or, Bool.and_eq_true] at fresh
  exact fresh.2

theorem unvisited_cons_lt {graph : CommitGraph} {seen : List String} {commit : String}
    {parents : List String} (known : graph.parents? commit = some parents)
    (fresh : seen.contains commit = false) :
    graph.unvisited (commit :: seen) < graph.unvisited seen := by
  obtain ⟨entry, found, -⟩ := Option.map_eq_some_iff.1 known
  have member := List.mem_of_find?_eq_some found
  have same : entry.1 = commit := by simpa using List.find?_some found
  obtain ⟨before, after, split⟩ := List.append_of_mem member
  have left := List.countP_mono_left (l := before)
    (p := fun entry => !(commit :: seen).contains entry.1) (q := fun entry => !seen.contains entry.1)
    (by intro other _ unseen
        simp only [List.contains_cons, Bool.not_or, Bool.and_eq_true] at unseen
        exact unseen.2)
  have right := List.countP_mono_left (l := after)
    (p := fun entry => !(commit :: seen).contains entry.1) (q := fun entry => !seen.contains entry.1)
    (by intro other _ unseen
        simp only [List.contains_cons, Bool.not_or, Bool.and_eq_true] at unseen
        exact unseen.2)
  simp only [unvisited, split, List.countP_append, List.countP_cons, same]
  simp only [List.contains_cons, BEq.rfl, Bool.true_or, Bool.not_true, fresh, Bool.not_false,
    if_true] at *
  simp only [Bool.false_eq_true, if_false]
  omega

/-- Visits what is in the queue and everything behind it. `seen` holds the visited commits, the
last one first. -/
def visit (graph : CommitGraph) (seen : List String) (queue : List String) : List String :=
  match queue with
  | [] => seen.reverse
  | commit :: rest =>
    if _visited : seen.contains commit then graph.visit seen rest
    else
      match _known : graph.parents? commit with
      | none => graph.visit (commit :: seen) rest
      | some parents => graph.visit (commit :: seen) (rest ++ parents)
termination_by (graph.unvisited seen, queue.length)
decreasing_by
  · exact Prod.Lex.right _ (by simp)
  · rcases Nat.lt_or_eq_of_le (graph.unvisited_cons_le seen commit) with fewer | same
    · exact Prod.Lex.left _ _ fewer
    · rw [same]; exact Prod.Lex.right _ (by simp)
  · exact Prod.Lex.left _ _ (unvisited_cons_lt _known (by simpa using _visited))

/-- A commit and everything behind it, nearest first. -/
def history (graph : CommitGraph) (commit : String) : List String := graph.visit [] [commit]

/-- A commit lies in the history of another one. Every commit lies in its own. -/
def isAncestor (graph : CommitGraph) (ancestor descendant : String) : Bool :=
  (graph.history descendant).contains ancestor

end CommitGraph

end SearchRelay
