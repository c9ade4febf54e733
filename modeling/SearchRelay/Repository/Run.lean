import SearchRelay.Indexer
import SearchRelay.Repository.Changes

/-!
Runs: bringing the index in line with the head of a repository. Every change becomes an operation,
one flush sends what is left, and the status moves on only if nothing failed. A repository that
cannot be read is reported before anything is sent.
-/

namespace SearchRelay

structure RunSummary where
  plan : Plan
  indexed : Nat
  deleted : Nat
  failed : List Reference
  /-- The status moved on. -/
  recorded : Bool
deriving DecidableEq, Repr

namespace Changes

def fileName (path : String) : String :=
  String.ofList (path.toList.reverse.takeWhile (· != '/')).reverse

def fileDocument (kind : Kind) (project : Nat) (commit path content : String) : Json :=
  .object
    [("type", .str kind.documentType), ("project_id", .ofNat project),
     ("blob", .object
       [("path", .str path), ("file_name", .str (fileName path)), ("content", .str content),
        ("commit_sha", .str commit)])]

def commitDocument (project : Nat) (commit : Commit) : Json :=
  .object
    [("type", .str Kind.commit.documentType), ("project_id", .ofNat project),
     ("commit", .object
       [("sha", .str commit.id), ("message", .str commit.message),
        ("author", .object [("name", .str commit.author)]),
        ("committed_date", .str (String.ofList commit.time.text))])]

def upserts (changes : Changes) (index : String) (kind : RepositoryKind) (project : Nat) :
    List Operation :=
  let target := changes.target.getD ""
  (changes.files.map fun (path, content) =>
    ⟨index, .ofRepository kind.fileKind project path,
      some (fileDocument kind.fileKind project target path content)⟩) ++
  changes.commits.map fun commit =>
    ⟨index, .ofRepository .commit project commit.id, some (commitDocument project commit)⟩

def removals (changes : Changes) (index : String) (kind : RepositoryKind) (project : Nat) :
    List Operation :=
  (changes.removedFiles.map fun path =>
    ⟨index, .ofRepository kind.fileKind project path, .none⟩) ++
  changes.removedCommits.map fun commit => ⟨index, .ofRepository .commit project commit, .none⟩

end Changes

namespace Indexer

def submitAll (backend : Backend σ) (indexer : Indexer) (operations : List Operation) (state : σ) :
    Indexer × σ :=
  operations.foldl (fun (indexer, state) operation => indexer.submit backend operation state)
    (indexer, state)

end Indexer

structure RunState (σ : Type) where
  indexer : Indexer
  statuses : StatusTable
  backend : σ

def indexRepository (backend : Backend σ) (repository : Repository) (project : Nat)
    (kind : RepositoryKind) (now : Instant) (state : RunState σ) :
    Outcome RunSummary × RunState σ :=
  match repository.head with
  | .error report => (.error (report.within "💀 Could not read the repository head."), state)
  | .ok head =>
    let status := state.statuses.find? project
    let plan := Plan.decide status repository.isAncestor head
    if plan = .upToDate then (.ok ⟨plan, 0, 0, [], false⟩, state)
    else
      match Changes.collect repository plan (status.map Status.lastCommit) kind with
      | .error report => (.error report, state)
      | .ok changes =>
        let upserts := changes.upserts state.indexer.index kind project
        let removals := changes.removals state.indexer.index kind project
        let (indexer, after) := state.indexer.submitAll backend (upserts ++ removals) state.backend
        let (failed, indexer, after) := indexer.flush backend after
        let recorded := failed.isEmpty
        let statuses :=
          if recorded then state.statuses.recordSuccess project plan now else state.statuses
        (.ok ⟨plan, upserts.length, removals.length, failed, recorded⟩, ⟨indexer, statuses, after⟩)

end SearchRelay
