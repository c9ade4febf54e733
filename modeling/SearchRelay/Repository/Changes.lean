import SearchRelay.Entries
import SearchRelay.Repository.Status

/-!
What a plan changes: the files to write and to remove, and the commits that appeared or, after the
history was rewritten, disappeared.
-/

namespace SearchRelay

structure Changes where
  /-- The commit that the files are taken from; a purge takes none. -/
  target : Option String
  files : FileTree
  removedFiles : List String
  commits : List Commit
  removedCommits : List String
deriving DecidableEq, Repr

namespace Changes

def none : Changes := ⟨.none, [], [], [], []⟩

/-- The files of the last indexed commit. A commit that can no longer be read has none, and its
files stay in the index. -/
def earlierFiles (repository : Repository) (previous : Option String) : FileTree :=
  match previous with
  | .none => []
  | some commit =>
    match repository.tree commit with
    | .ok files => files
    | .error _ => []

def laterFiles (repository : Repository) (target : Option String) : Outcome FileTree :=
  match target with
  | .none => .ok []
  | some commit =>
    match repository.tree commit with
    | .ok files => .ok files
    | .error report => .error (report.within ("💀 Could not read the tree at " ++ commit ++ "."))

/-- The files that a plan writes: all of them, or those that are new or different. -/
def writtenFiles (plan : Plan) (earlier later : FileTree) : FileTree :=
  match plan with
  | .full _ => later
  | _ => later.filter fun file => Entries.find? earlier file.1 != some file.2

def lostFiles (earlier later : FileTree) : List String :=
  (earlier.filter fun file => (Entries.find? later file.1).isNone).map Prod.fst

def newCommits (repository : Repository) (plan : Plan) : Outcome (List Commit) :=
  match plan with
  | .incremental first last => repository.between (some first) last
  | .full last => repository.between .none last
  | .upToDate | .purge => .ok []

/-- The commits that only the earlier history knew. Where it cannot be read they stay. -/
def lostCommits (repository : Repository) (plan : Plan) (previous : Option String) : List String :=
  match plan, previous with
  | .incremental _ _, _ | _, .none => []
  | _, some earlier =>
    match repository.between plan.target? earlier with
    | .ok gone => gone.map Commit.id
    | .error _ => []

/-- What a plan changes, from the commit that was indexed last. -/
def collect (repository : Repository) (plan : Plan) (previous : Option String)
    (kind : RepositoryKind) : Outcome Changes :=
  if plan = .upToDate then .ok none
  else
    let earlier := earlierFiles repository previous
    match laterFiles repository plan.target? with
    | .error report => .error report
    | .ok later =>
      let files := writtenFiles plan earlier later
      let removed := lostFiles earlier later
      if kind.indexesCommits then
        match newCommits repository plan with
        | .error report => .error report
        | .ok commits =>
          .ok ⟨plan.target?, files, removed, commits, lostCommits repository plan previous⟩
      else .ok ⟨plan.target?, files, removed, [], []⟩

end Changes

end SearchRelay
