import SearchRelay.Entries
import SearchRelay.Repository.Basic

/-!
A repository in memory. A commit holds its whole tree. Commits are dated a minute apart.
-/

namespace SearchRelay

structure StoredCommit where
  commit : Commit
  parents : List String
  tree : FileTree

structure MemoryRepository where
  /-- At most one commit for each id. -/
  commits : List StoredCommit
  head : Option String

namespace MemoryRepository

def empty : MemoryRepository := ⟨[], none⟩

def find? (repository : MemoryRepository) (id : String) : Option StoredCommit :=
  repository.commits.find? fun stored => stored.commit.id == id

def firstCommit : Int := 1700000000

/-- Adds a commit in the place of the one with its id, and moves the head to it. -/
def commit (repository : MemoryRepository) (id : String) (parents : List String) (message : String)
    (files : List (String × String)) : MemoryRepository :=
  let time := Instant.ofSeconds (firstCommit + 60 * repository.commits.length)
  let stored : StoredCommit := ⟨⟨id, message, "Ada Lovelace", time⟩, parents, Entries.ofList files⟩
  ⟨stored :: repository.commits.filter fun other => other.commit.id != id, some id⟩

def withHead (repository : MemoryRepository) (head : Option String) : MemoryRepository :=
  { repository with head := head }

def graph (repository : MemoryRepository) : CommitGraph :=
  ⟨repository.commits.map fun stored => (stored.commit.id, stored.parents)⟩

def stored (repository : MemoryRepository) (id : String) : Outcome StoredCommit :=
  match repository.find? id with
  | some commit => .ok commit
  | none => .error (.told ("💀 No commit '" ++ id ++ "' in this repository."))

/-- The commits with these ids; all of them have to be there. -/
def storedAll (repository : MemoryRepository) : List String → Outcome (List StoredCommit)
  | [] => .ok []
  | id :: rest =>
    match repository.stored id with
    | .error report => .error report
    | .ok commit =>
      match repository.storedAll rest with
      | .error report => .error report
      | .ok commits => .ok (commit :: commits)

/-- The history of a commit, nearest first; all of it has to be there. -/
def history (repository : MemoryRepository) (id : String) : Outcome (List StoredCommit) :=
  repository.storedAll (repository.graph.history id)

def newerFirst (left right : StoredCommit) : Bool :=
  right.commit.time.seconds ≤ left.commit.time.seconds

def between (repository : MemoryRepository) (since : Option String) (last : String) :
    Outcome (List Commit) :=
  let hidden : Outcome (List StoredCommit) := match since with
    | some id => repository.history id
    | none => .ok []
  match hidden with
  | .error report => .error report
  | .ok hidden =>
    match repository.history last with
    | .error report => .error report
    | .ok reached =>
      let hiddenIds := hidden.map fun stored => stored.commit.id
      let fresh := reached.filter fun stored => !hiddenIds.contains stored.commit.id
      .ok ((fresh.mergeSort newerFirst).map StoredCommit.commit)

def view (repository : MemoryRepository) : Repository where
  head := .ok repository.head
  tree id := (repository.stored id).map StoredCommit.tree
  between := repository.between
  isAncestor := repository.graph.isAncestor

end MemoryRepository

end SearchRelay
