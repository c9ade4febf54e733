import SearchRelay.Record.Basic
import SearchRelay.Text.Decimal
import SearchRelay.Text.Percent
import SearchRelay.Text.Quoted
import SearchRelay.Text.Space

/-!
References: the name tags that records wear in a queue. A reference finds the record again by kind
and number, and its document by search id and routing, so it is of use also after the record is
gone. On the wire its three or four fields stand on one line with a blank between them.
-/

namespace SearchRelay

structure Reference where
  kind : Kind
  databaseId : Nat
  searchId : String
  routing : Option String
deriving DecidableEq, Repr

inductive ReferenceError where
  | wrongFieldCount (count : Nat)
  | unknownClass (name : String)
  | invalidId (text : String)
  | unindexable (className : String)
  | invalidField (field : String)
deriving DecidableEq, Repr

def ReferenceError.message : ReferenceError → String
  | wrongFieldCount count =>
    "💀 a document reference needs 3 or 4 fields, got " ++ toString count
  | unknownClass name => "💀 '" ++ name ++ "' is not a registered indexable class"
  | invalidId text => "💀 '" ++ text ++ "' is not a valid database id"
  | unindexable name => "💀 " ++ name ++ " records cannot be indexed"
  | invalidField field =>
    "💀 reference field " ++ Text.quoted field ++ " is empty or contains whitespace"

namespace Reference

/-- A key without blanks: percent signs and blanks are written by their bytes. -/
def escapeKey (key : List Char) : List Char :=
  Text.percentEncode (fun c => c == '%' || Text.isSpace c) key

/-- The document id of an object in a project's repository. Wiki pages have a mark of their own,
so a page never takes the id of a file. -/
def repositoryId (kind : Kind) (project : Nat) (key : String) : String :=
  String.ofList <| (if kind = .wikiBlob then "wiki_".toList else []) ++ Text.decimal project ++
    '_' :: escapeKey key.toList

/-- A file, a wiki page or a commit: the key is a path or a commit id. -/
def ofRepository (kind : Kind) (project : Nat) (key : String) : Reference where
  kind := kind
  databaseId := project
  searchId := repositoryId kind project key
  routing := some (projectRouting project)

def ofRecord (record : Record) : Except ReferenceError Reference :=
  match record.kind? with
  | some kind => .ok ⟨kind, record.id, record.searchId, record.routing⟩
  | none => .error (.unindexable record.className)

/-- The reference with class name, number, search id and routing given as fields. -/
def build (className id searchId : String) (routing : Option String) :
    Except ReferenceError Reference :=
  match Kind.ofClassName? className with
  | none => .error (.unknownClass className)
  | some kind =>
    match Text.readWord? id.toList with
    | none => .error (.invalidId id)
    | some number => .ok ⟨kind, number, searchId, routing⟩

def ofFields : List String → Except ReferenceError Reference
  | [className, id, searchId] => build className id searchId none
  | [className, id, searchId, routing] => build className id searchId (some routing)
  | fields => .error (.wrongFieldCount fields.length)

def parse (wire : String) : Except ReferenceError Reference :=
  ofFields ((Text.words wire.toList).map String.ofList)

def joined (fields : List String) : String := " ".intercalate fields

def fields (reference : Reference) : List String :=
  [reference.kind.className, String.ofList (Text.decimal reference.databaseId),
    reference.searchId] ++ reference.routing.toList

def wire (reference : Reference) : String := joined reference.fields

/-- Puts fields on the wire; each of them has to survive as a field. -/
def wireOfFields (fields : List String) : Except ReferenceError String :=
  if fields.length = 3 ∨ fields.length = 4 then
    match fields.find? fun field => !Text.isWord field.toList with
    | some bad => .error (.invalidField bad)
    | none => .ok (joined fields)
  else .error (.wrongFieldCount fields.length)

end Reference

end SearchRelay
