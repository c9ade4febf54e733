import SearchRelay.File
import SearchRelay.Json.Decode
import SearchRelay.Json.Print
import SearchRelay.Repository.Basic

/-!
How far the index has read a project's repository, and what follows for the next run. Only a run
without failures moves a status on.
-/

namespace SearchRelay

structure Status where
  projectId : Nat
  lastCommit : String
  indexedAt : Instant
deriving DecidableEq, Repr

/-- What the next run has to do. -/
inductive Plan where
  | upToDate
  /-- The changes between two commits. -/
  | incremental (first last : String)
  /-- Everything in the history of a commit. -/
  | full (commit : String)
  /-- The repository is empty, and everything has to go. -/
  | purge
deriving DecidableEq, Repr

namespace Plan

/-- The plan for a repository at `head`. The changes are enough when the last indexed commit is
still in its history. -/
def decide (status : Option Status) (isAncestor : String → String → Bool) (head : Option String) :
    Plan :=
  match head, status with
  | none, some _ => purge
  | none, none => upToDate
  | some head, none => full head
  | some head, some status =>
    if status.lastCommit = head then upToDate
    else if isAncestor status.lastCommit head then incremental status.lastCommit head
    else full head

def target? : Plan → Option String
  | incremental _ last => some last
  | full commit => some commit
  | upToDate | purge => none

end Plan

/-- Statuses in the order of their projects, at most one for each. -/
structure StatusTable where
  statuses : List Status
deriving DecidableEq, Repr

namespace StatusTable

def empty : StatusTable := ⟨[]⟩

def find? (table : StatusTable) (project : Nat) : Option Status :=
  table.statuses.find? fun status => status.projectId == project

def insert (status : Status) : List Status → List Status
  | [] => [status]
  | first :: rest =>
    if status.projectId = first.projectId then status :: rest
    else if status.projectId < first.projectId then status :: first :: rest
    else first :: insert status rest

def record (table : StatusTable) (status : Status) : StatusTable :=
  ⟨insert status table.statuses⟩

/-- Forgets a project; says whether it was known. -/
def remove (table : StatusTable) (project : Nat) : StatusTable × Bool :=
  (⟨table.statuses.filter fun status => status.projectId != project⟩,
    (table.find? project).isSome)

def recordSuccess (table : StatusTable) (project : Nat) (plan : Plan) (now : Instant) :
    StatusTable :=
  match plan with
  | .upToDate => table
  | .purge => (table.remove project).1
  | .incremental _ commit | .full commit => table.record ⟨project, commit, now⟩

def statusJson (status : Status) : Json :=
  .obj [("project_id", .ofNat status.projectId), ("last_commit", .str status.lastCommit),
    ("indexed_at", .str (String.ofList status.indexedAt.zuluText))]

def text (table : StatusTable) : String :=
  String.ofList (Json.indented 0 (.arr (table.statuses.map statusJson)))

def timeDecoder : Json.Decoder Instant := fun depth tree =>
  (Json.Decoder.string depth tree).bind fun text => Instant.parse? text.toList

def statusDecoder : Json.Decoder Status :=
  .record ["project_id", "last_commit", "indexed_at"] fun members => do
    let projectId ← members.required "project_id" .word
    let lastCommit ← members.required "last_commit" .string
    let indexedAt ← members.required "indexed_at" timeDecoder
    return ⟨projectId, lastCommit, indexedAt⟩

/-- Reads the file. Of several statuses of one project the last one counts. -/
def ofText? (text : List Char) : Option StatusTable :=
  (Json.decode? (.list statusDecoder) text).map fun statuses => statuses.foldl record empty

/-- Reads the file by its name; what is wrong with its text is reported. -/
def load (name : String) (text : List Char) : Outcome StatusTable :=
  match ofText? text with
  | some table => .ok table
  | none => .error <| (Report.outside .document).within <|
      "💀 '" ++ name ++ "' does not hold index statuses."

/-- The file was there and could not be read. -/
def unreadable (name : String) : Report :=
  (Report.outside .file).within ("💀 Could not read index statuses from '" ++ name ++ "'.")

/-- Reads the file; one that is not there holds no statuses. -/
def ofFile (file : File) : Outcome StatusTable :=
  match file.content with
  | .bytes bytes => load file.name (Text.decodeDocument bytes)
  | .missing => .ok empty
  | .unreadable => .error (unreadable file.name)

/-- The file could not be written. -/
def unwritable (name : String) : Report :=
  (Report.outside .file).within ("💀 Could not write index statuses to '" ++ name ++ "'.")

end StatusTable

end SearchRelay
