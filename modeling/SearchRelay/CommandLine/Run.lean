import SearchRelay.CommandLine.Arguments
import SearchRelay.Relay
import SearchRelay.Text.Table

/-!
Running a command line: the settings come first, then the cluster, then the work. What a run prints
is a value, so is what it wants to keep, and a run that fails prints no results.
-/

namespace SearchRelay.CommandLine

structure Surroundings where
  «variables» : List (String × String)
  file : String → File
  repository : String → Outcome Repository
  now : Instant

structure Ending where
  code : Nat
  /-- The results. -/
  output : String
  /-- What is said about them. -/
  notes : String
  /-- A file to keep: its name and its text. -/
  kept : Option (String × String)
deriving DecidableEq, Repr

namespace Ending

def success (output notes : String) : Ending := ⟨0, output, notes, none⟩

/-- The arguments made no sense. -/
def misuse : Ending :=
  ⟨2, "", "For more information, try '--help'.\n", none⟩

def reasonText : Reason → String
  | .told text => text
  | .outside .document => "the document is not well-formed"
  | .outside .file => "the file could not be used"
  | .outside .network => "error sending request"
  | .outside .settings => "the settings are not well-formed"
  | .outside .address => "the address is not well-formed"
  | .outside .repository => "the repository could not be read"
  | .outside .signing => "the request could not be signed"

def isUnreachable (report : Report) : Bool := report.causes.contains (.outside .network)

/-- A run that failed, with everything that is known about why. -/
def failure (report : Report) : Ending where
  code := 1
  output := ""
  notes := "💀 error: " ++ reasonText report.reason ++ "\n" ++
    String.join (report.causes.map fun cause => "⚠️  cause: " ++ reasonText cause ++ "\n") ++
    if isUnreachable report then
      "🔧 hint: the search cluster doesn't look reachable. Check \x60elasticsearch.url\x60, " ++
      "and that the cluster is actually running. If you're using Docker, \x60docker ps\x60 " ++
      "is a good first stop. ☕\n"
    else ""
  kept := none

end Ending

/-! ### Indexing -/

def plainRow (cells : List String) : List (String × Text.Alignment) := cells.map (·, .left)

/-- References, one on a line, as they can be indexed again. -/
def wireLines (references : List Reference) : String :=
  String.join (references.map fun reference => reference.wire ++ "\n")

def showIndexing (summary : IndexingSummary) : Ending :=
  let table : Text.Table := ⟨["processed", "invalid", "failed"],
    [plainRow [toString summary.processed, toString summary.invalid.length,
      toString summary.failed.length]]⟩
  .success (wireLines summary.failed) table.text

def planText : Plan → String
  | .upToDate => "UpToDate"
  | .purge => "Purge"
  | .full commit => "Full \x7b to: " ++ Text.quoted commit ++ " \x7d"
  | .incremental first last =>
    "Incremental \x7b from: " ++ Text.quoted first ++ ", to: " ++ Text.quoted last ++ " \x7d"

def showRun (summary : RunSummary) : Ending :=
  let table : Text.Table := ⟨["plan", "indexed", "deleted", "failed", "recorded"],
    [plainRow [planText summary.plan, toString summary.indexed, toString summary.deleted,
      toString summary.failed.length, toString summary.recorded]]⟩
  .success (wireLines summary.failed) table.text

/-- Where statuses are kept when nobody says where. Those of wikis are kept apart. -/
def defaultStatusFile : RepositoryKind → String
  | .code => "srx-index-status.json"
  | .wiki => "srx-wiki-index-status.json"

def runIndex (outside : Outside σ) (around : Surroundings) (settings : Settings)
    (records refs : String) (enabled : List Nat) (state : σ) : Outcome Ending × σ :=
  let policy := if enabled.isEmpty then none else some fun project => enabled.contains project
  let (summary, state) := Relay.indexDump outside settings policy (around.file records)
    (around.file refs) state
  ((summary.map showIndexing).mapError (·.within "💀 The indexing run did not finish."), state)

def runRepository (outside : Outside σ) (around : Surroundings) (settings : Settings)
    (project : Nat) (path : String) (wiki : Bool) (statusFile : Option String) (state : σ) :
    Outcome Ending × σ :=
  let kind := if wiki then RepositoryKind.wiki else .code
  let name := statusFile.getD (defaultStatusFile kind)
  let (run, state) := Relay.indexProject outside settings (around.repository path) project kind
    (StatusTable.ofFile (around.file name)) around.now state
  let ending := run.map fun run =>
    { showRun run.summary with kept := run.statuses.map fun statuses => (name, statuses.text) }
  (ending.mapError (·.within <| "💀 Indexing the repository at '" ++ path ++ "' did not finish."),
    state)

/-! ### Searching -/

/-- A result on lines: a document with its source, or a place in a file with what is there. -/
def itemText : ResultItem → String
  | .document found => found.searchId ++ "\t" ++ found.source.render ++ "\n"
  | .snippet found => found.path ++ ":" ++ toString found.startLine ++ " @ " ++ found.refName ++
      "\n" ++ found.data ++ "\n"

def showPage (page : Page ResultItem) : Ending :=
  .success (String.join (page.items.map itemText)) <|
    "page " ++ toString page.request.page ++ " of " ++ toString page.totalPages ++ " (" ++
      toString page.total ++ " results)\n"

def showCounts (counts : List (Scope × Nat)) : Ending :=
  let table : Text.Table := ⟨["scope", "results"], counts.map fun (scope, count) =>
    [(scope.name, .left), (Text.grouped count, .right)]⟩
  .success table.text ""

def noScope (name : String) : Report := .told <|
  "💀 '" ++ name ++ "' is not a scope. Try one of: " ++
    ", ".intercalate (Scope.all.map Scope.name) ++ "."

/-- Who searches: an administrator whose session is active, or nobody. -/
def searcher (admin : Bool) : Actor × Membership :=
  if admin then (.user 0 true, Membership.empty.elevate 0) else (.anonymous, .empty)

def runSearch (outside : Outside σ) (settings : Settings) (query : String) (projects : List Nat)
    (admin : Bool) (narrowing : Narrowing) (scope : Option String) (page : String) (state : σ) :
    Outcome Ending × σ :=
  match Relay.connect outside settings.cluster state with
  | (.error report, state) => (.error report, state)
  | (.ok client, state) =>
    let (actor, membership) := searcher admin
    let projects := if projects.isEmpty then ProjectScope.all else .only projects
    let visibility := Visibility.resolve actor projects membership.policy
    let results := Relay.ask settings query visibility narrowing
    let backend := Client.backend outside
    match scope with
    | none =>
      let (counts, _, _, state) := results.countAll backend Scope.all (client, state)
      ((counts.map showCounts).mapError (·.within "💀 Counting results failed."), state)
    | some name =>
      match Scope.ofName? name with
      | none => (.error (noScope name), state)
      | some scope =>
        let request := PageRequest.parse page.toList settings.perPage
        let (found, _, _, state) := results.page backend scope request (client, state)
        (found.map showPage, state)

/-! ### The program -/

def runCommand (outside : Outside σ) (around : Surroundings) (settings : Settings)
    (command : Command) (state : σ) : Outcome Ending × σ :=
  match command with
  | .index records refs enabled _ => runIndex outside around settings records refs enabled state
  | .indexRepository project path wiki statusFile =>
    runRepository outside around settings project path wiki statusFile state
  | .search query projects admin wanted sort scope page =>
    runSearch outside settings query projects admin ⟨wanted, none, sort.bind SortBy.ofName?⟩ scope
      page state

def run (outside : Outside σ) (around : Surroundings) (args : List String) (state : σ) :
    Ending × σ :=
  match readArguments args with
  | .misuse => (.misuse, state)
  | .print text => (.success text "", state)
  | .run config command =>
    match Settings.load (config.map around.file) around.«variables» with
    | .error report =>
      (.failure (report.within ("💀 In srx-cli, we couldn't load the configuration. " ++
        "Check the file and any SRX_* variables.")), state)
    | .ok settings =>
      let (ending, state) := runCommand outside around settings command state
      match ending with
      | .ok ending => (ending, state)
      | .error report => (.failure report, state)

end SearchRelay.CommandLine
