import SearchRelay.Json.Decode
import SearchRelay.Record.Kind
import SearchRelay.Report

/-!
Records: what a live domain object tells the indexer, and the line of a records file that stands
for one.
-/

namespace SearchRelay

/-- What the index should hold for a record. -/
inductive Content where
  | document (body : Json)
  /-- The record no longer belongs in the index. -/
  | excluded
  /-- The record could not produce a document. -/
  | refused (reason : String)
deriving BEq

structure Record where
  className : String
  id : Nat
  projectId : Option Nat
  content : Content

namespace Record

/-- A record that tells nothing but its class and number: it has no project, and the index should
not hold it. -/
def bare (className : String) (id : Nat) : Record := ⟨className, id, none, .excluded⟩

def kind? (record : Record) : Option Kind := Kind.ofClassName? record.className

/-- Puts an underscore before every capital except the first character, in lower case. -/
def underscored (name : List Char) : List Char :=
  let lower := fun c : Char => if c.isUpper then ['_', c.toLower] else [c]
  match name with
  | [] => []
  | first :: rest => first.toLower :: rest.flatMap lower

def searchId (record : Record) : String :=
  match record.kind? with
  | some kind => kind.searchId record.id
  | none => String.ofList (underscored record.className.toList ++ '_' :: Text.decimal record.id)

/-- The routing of the record's document: its project, for kinds that are routed. -/
def routing (record : Record) : Option String :=
  match record.kind? with
  | some kind => if kind.routedByProject then record.projectId.map projectRouting else none
  | none => none

def refusal (record : Record) (reason : String) : String :=
  "💀 " ++ record.className ++ " " ++ toString record.id ++ " refused to become JSON: " ++ reason

/-- The document, its absence, or the refusal as a report. -/
def indexed (record : Record) : Outcome (Option Json) :=
  match record.content with
  | .document body => .ok (some body)
  | .excluded => .ok none
  | .refused reason => .error (.told (record.refusal reason))

end Record

structure RecordLine where
  className : String
  id : Nat
  projectId : Option Nat
  document : Json
  shouldDelete : Bool
  failure : Option String
deriving BEq

namespace RecordLine

/-- A line for a plain record without a project. -/
def ofDocument (kind : Kind) (id : Nat) (document : Json) : RecordLine :=
  ⟨kind.className, id, none, document, false, none⟩

def inProject (line : RecordLine) (project : Nat) : RecordLine :=
  { line with projectId := some project }

def excluded (line : RecordLine) : RecordLine := { line with shouldDelete := true }

def failing (line : RecordLine) (reason : String) : RecordLine :=
  { line with failure := some reason }

/-- The record of a line. A project is its own project, and a failure outweighs everything else. -/
def toRecord (line : RecordLine) : Record where
  className := line.className
  id := line.id
  projectId :=
    if line.className = Kind.project.className then some line.id else line.projectId
  content :=
    match line.failure with
    | some reason => .refused reason
    | none => if line.shouldDelete then .excluded else .document line.document

def decoder : Json.Decoder RecordLine :=
  .record ["class", "id", "project_id", "document", "should_delete", "failure"] fun members => do
    let className ← members.required "class" .string
    let id ← members.required "id" .word
    let projectId ← members.withDefault "project_id" (.optional .word) none
    let document ← members.withDefault "document" .value .null
    let shouldDelete ← members.withDefault "should_delete" .bool false
    let failure ← members.withDefault "failure" (.optional .string) none
    return ⟨className, id, projectId, document, shouldDelete, failure⟩

end RecordLine

end SearchRelay
