import SearchRelay.History.Graph
import SearchRelay.Record.Kind
import SearchRelay.Report
import SearchRelay.Time.Instant

/-!
Repositories as far as the index is concerned: a head, the text files of a commit, and the commits
between two points of the history.
-/

namespace SearchRelay

inductive RepositoryKind where
  | code
  | wiki
deriving DecidableEq, Repr

namespace RepositoryKind

def fileKind : RepositoryKind → Kind
  | code => .blob
  | wiki => .wikiBlob

/-- Commits of code are searched, those of wikis are not. -/
def indexesCommits : RepositoryKind → Bool
  | code => true
  | wiki => false

end RepositoryKind

structure Commit where
  id : String
  message : String
  author : String
  time : Instant
deriving DecidableEq, Repr

/-- The text files of a commit: contents by path, in the order of the paths. -/
abbrev FileTree := List (String × String)

structure Repository where
  /-- The commit that the repository is at; an empty one is at none. -/
  head : Outcome (Option String)
  tree : String → Outcome FileTree
  /-- The commits in the history of the second commit that are not in the history of the first one,
  newest first. -/
  between : Option String → String → Outcome (List Commit)
  /-- The first commit lies in the history of the second one. -/
  isAncestor : String → String → Bool

end SearchRelay
