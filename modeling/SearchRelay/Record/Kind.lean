import SearchRelay.Text.Decimal

/-!
The closed registry of record kinds. A kind gives the class name that travels in references, the
type stamped on documents, and whether documents are stored beside their project.
-/

namespace SearchRelay

inductive Kind where
  | project
  | issue
  | mergeRequest
  | note
  | milestone
  | snippet
  | user
  | commit
  | blob
  | wikiBlob
deriving DecidableEq, Repr

namespace Kind

/-- Every kind, in the order of the registry. -/
def all : List Kind :=
  [.project, .issue, .mergeRequest, .note, .milestone, .snippet, .user, .commit, .blob, .wikiBlob]

def className : Kind → String
  | project => "Project"
  | issue => "Issue"
  | mergeRequest => "MergeRequest"
  | note => "Note"
  | milestone => "Milestone"
  | snippet => "Snippet"
  | user => "User"
  | commit => "Commit"
  | blob => "Blob"
  | wikiBlob => "WikiBlob"

def documentType : Kind → String
  | project => "project"
  | issue => "issue"
  | mergeRequest => "merge_request"
  | note => "note"
  | milestone => "milestone"
  | snippet => "snippet"
  | user => "user"
  | commit => "commit"
  | blob => "blob"
  | wikiBlob => "wiki_blob"

def ofClassName? (name : String) : Option Kind := all.find? fun kind => kind.className == name

/-- The document id of a record: its type and its number. -/
def searchId (kind : Kind) (id : Nat) : String :=
  String.ofList (kind.documentType.toList ++ '_' :: Text.decimal id)

def routedByProject : Kind → Bool
  | snippet | user => false
  | _ => true

/-- The kind lives in a repository and not in a table of records. -/
def inRepository : Kind → Bool
  | commit | blob | wikiBlob => true
  | _ => false

end Kind

def projectRouting (project : Nat) : String :=
  String.ofList ("project_".toList ++ Text.decimal project)

end SearchRelay
