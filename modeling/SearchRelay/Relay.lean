import SearchRelay.Backend.Remote
import SearchRelay.Indexing
import SearchRelay.Repository.Run
import SearchRelay.Settings.Basic

/-!
The runs of the program over a world of files, repositories and a network: a dump of references or
a repository goes into the index of the cluster, and a query is put to it. The first thing that is
missing ends a run, and it is looked for in a fixed order: the cluster, then what is read, then
what is sent.
-/

namespace SearchRelay.Relay

def connect (outside : Outside σ) (settings : ClusterSettings) (state : σ) : Outcome Client × σ :=
  let (client, state) := Client.ofSettings outside settings state
  (client.mapError fun report =>
    report.within ("💀 Could not build a client for '" ++ settings.url ++ "'."), state)

def indexDump (outside : Outside σ) (settings : Settings) (enabled : Option (Nat → Bool))
    (records dump : File) (state : σ) : Outcome IndexingSummary × σ :=
  match connect outside settings.cluster state with
  | (.error report, state) => (.error report, state)
  | (.ok client, state) =>
    match RecordTable.ofFile records with
    | .error report => (.error report, state)
    | .ok table =>
      let (summary, _, state) := indexReferences (Client.backend outside) table.source
        ⟨settings.cluster.index, settings.bulkLimit, settings.limited⟩ enabled dump.name
        (Dump.ofFile dump) (client, state)
      (summary, state)

structure RepositoryRun where
  summary : RunSummary
  /-- The statuses to keep, if the run recorded any progress. -/
  statuses : Option StatusTable

def indexProject (outside : Outside σ) (settings : Settings) (repository : Outcome Repository)
    (project : Nat) (kind : RepositoryKind) (statuses : Outcome StatusTable) (now : Instant)
    (state : σ) : Outcome RepositoryRun × σ :=
  match connect outside settings.cluster state with
  | (.error report, state) => (.error report, state)
  | (.ok client, state) =>
    match repository, statuses with
    | .error report, _ => (.error report, state)
    | .ok _, .error report => (.error report, state)
    | .ok repository, .ok statuses =>
      let indexer := Indexer.new settings.cluster.index settings.bulkLimit none
      let (summary, run) := indexRepository (Client.backend outside) repository project kind now
        ⟨indexer, statuses, (client, state)⟩
      (summary.map fun summary =>
        ⟨summary, if summary.recorded then some run.statuses else none⟩, run.backend.2)

def ask (settings : Settings) (query : String) (visibility : Visibility) (narrowing : Narrowing) :
    Results :=
  .ask ⟨settings.cluster.index, query, visibility, narrowing, settings.perPage⟩

end SearchRelay.Relay
