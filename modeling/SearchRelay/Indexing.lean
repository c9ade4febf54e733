import SearchRelay.Dump
import SearchRelay.Indexer

/-!
Indexing a dump: every line is a reference for the indexer or is set aside, and one flush at the
end sends what is left. A line whose record cannot be looked up ends the run; what was sent before
it stays sent.
-/

namespace SearchRelay

structure IndexingSummary where
  /-- How many lines were references. -/
  processed : Nat
  /-- The other lines. -/
  invalid : List String
  /-- The references that failed, each named once, in the order in which they failed first. -/
  failed : List Reference
deriving DecidableEq, Repr

/-- An indexer at work on lines, over a backend with a state. -/
structure IndexingState (σ : Type) where
  processed : Nat
  /-- The lines that were no references, the last one first. -/
  invalid : List String
  indexer : Indexer
  backend : σ

namespace IndexingState

def start (indexer : Indexer) (backend : σ) : IndexingState σ := ⟨0, [], indexer, backend⟩

/-- Indexes the reference of a line, or sets the line aside. -/
def takeLine (backend : Backend σ) (source : RecordSource) (line : String)
    (state : IndexingState σ) : Outcome Unit × IndexingState σ :=
  match Reference.parse line with
  | .error _ => (.ok (), { state with invalid := line :: state.invalid })
  | .ok reference =>
    let (answer, indexer, after) := state.indexer.process backend source reference state.backend
    let processed := if answer.isOk then state.processed + 1 else state.processed
    (answer.mapError fun report =>
        report.within ("💀 IndexerWorker failed on '" ++ reference.wire ++ "'"),
      ⟨processed, state.invalid, indexer, after⟩)

/-- Takes lines one after the other, up to the first one that fails. -/
def takeLines (backend : Backend σ) (source : RecordSource) :
    List String → IndexingState σ → Outcome Unit × IndexingState σ
  | [], state => (.ok (), state)
  | line :: rest, state =>
    match state.takeLine backend source line with
    | (.error report, state) => (.error report, state)
    | (.ok _, state) => takeLines backend source rest state

def finish (backend : Backend σ) (state : IndexingState σ) : IndexingSummary × IndexingState σ :=
  let (_, indexer, after) := state.indexer.flush backend state.backend
  (⟨state.processed, state.invalid.reverse, indexer.failures.toList.eraseDups⟩,
    { state with indexer := indexer, backend := after })

end IndexingState

/-- Indexing stopped at a line. -/
def gaveUp (report : Report) : Report := report.within "💀 The indexer worker gave up mid-run."

def indexLines (backend : Backend σ) (source : RecordSource) (lines : List String)
    (state : IndexingState σ) : Outcome IndexingSummary × IndexingState σ :=
  match state.takeLines backend source lines with
  | (.error report, state) => (.error (gaveUp report), state)
  | (.ok _, state) =>
    let (summary, state) := state.finish backend
    (.ok summary, state)

/-- The dump of a name could not be read. -/
def unreadDump (name : String) (report : Report) : Report :=
  report.within ("💀 Could not read references from '" ++ name ++ "'.")

/-- The lines of a dump; one that could not be opened has none. -/
def dumpLines : Outcome Dump → List String
  | .ok dump => dump.lines
  | .error _ => []

/-- Why a dump could not be read to its end, if it could not. -/
def dumpFailure? (name : String) : Outcome Dump → Option Report
  | .ok dump => dump.unreadable.map (Dump.unreadableAt name)
  | .error report => some report

/-- What is told of the lines that were indexed, when more of the dump could not be read. -/
def concluded (name : String) (unread : Option Report) :
    Outcome IndexingSummary → Outcome IndexingSummary
  | .error report => .error report
  | .ok summary =>
    match unread with
    | some report => .error (unreadDump name report)
    | none => .ok summary

/-- Indexes the dump of a name. The lines before a bad one are indexed nevertheless. -/
def indexDump (backend : Backend σ) (source : RecordSource) (name : String) (dump : Outcome Dump)
    (state : IndexingState σ) : Outcome IndexingSummary × IndexingState σ :=
  let (answer, state) := indexLines backend source (dumpLines dump) state
  (concluded name (dumpFailure? name dump) answer, state)

structure IndexingSettings where
  index : String
  /-- The largest request in bytes. -/
  bulkLimit : Nat
  /-- Only enabled projects are indexed. -/
  limited : Bool

/-- Indexing is limited, and nothing says to which projects. -/
def noPolicy : Report := .told <|
  "💀 limit_indexing is on but no indexing policy was given. Every document would be deleted."

namespace IndexingSettings

/-- The indexer with these settings. A limited one has to know which projects are enabled. -/
def indexer (settings : IndexingSettings) (enabled : Option (Nat → Bool)) : Outcome Indexer :=
  if settings.limited then
    match enabled with
    | none => .error noPolicy
    | some enabled =>
      .ok (.new settings.index settings.bulkLimit (some (.ofPolicy enabled)))
  else .ok (.new settings.index settings.bulkLimit none)

end IndexingSettings

def indexReferences (backend : Backend σ) (source : RecordSource) (settings : IndexingSettings)
    (enabled : Option (Nat → Bool)) (name : String) (dump : Outcome Dump) (state : σ) :
    Outcome IndexingSummary × σ :=
  match settings.indexer enabled with
  | .error report => (.error report, state)
  | .ok indexer =>
    let (answer, after) := indexDump backend source name dump (.start indexer state)
    (answer, after.backend)

end SearchRelay
