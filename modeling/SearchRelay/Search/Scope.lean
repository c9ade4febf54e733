/-!
Scopes: the tabs of a results page. A scope fixes the type of its documents, the fields that a
query runs against, and which of the visibility rules and filters apply.
-/

namespace SearchRelay

inductive Scope where
  | projects
  | issues
  | mergeRequests
  | milestones
  | notes
  | blobs
  | wikiBlobs
  | commits
  | users
deriving DecidableEq, Repr

namespace Scope

/-- Every scope, in the order of the tabs. -/
def all : List Scope :=
  [.projects, .issues, .mergeRequests, .milestones, .notes, .blobs, .wikiBlobs, .commits, .users]

def name : Scope → String
  | projects => "projects"
  | issues => "issues"
  | mergeRequests => "merge_requests"
  | milestones => "milestones"
  | notes => "notes"
  | blobs => "blobs"
  | wikiBlobs => "wiki_blobs"
  | commits => "commits"
  | users => "users"

def ofName? (name : String) : Option Scope := all.find? fun scope => scope.name == name

def documentType : Scope → String
  | projects => "project"
  | issues => "issue"
  | mergeRequests => "merge_request"
  | milestones => "milestone"
  | notes => "note"
  | blobs => "blob"
  | wikiBlobs => "wiki_blob"
  | commits => "commit"
  | users => "user"

def textFields : Scope → List String
  | projects => ["name", "path", "description"]
  | issues | mergeRequests | milestones => ["title", "description"]
  | notes => ["note"]
  | blobs | wikiBlobs => ["blob.content", "blob.path"]
  | commits => ["commit.message", "commit.sha"]
  | users => ["username", "name"]

def highlightFields : Scope → List String
  | projects => ["name", "description"]
  | issues | mergeRequests | milestones => ["title", "description"]
  | notes => ["note"]
  | blobs | wikiBlobs => ["blob.content"]
  | commits | users => []

def supportsHighlight : Scope → Bool
  | projects | issues | mergeRequests | milestones | notes => true
  | _ => false

/-- The field with the project that a document belongs to, for documents that belong to one. -/
def projectField : Scope → Option String
  | projects => some "id"
  | users => none
  | _ => some "project_id"

def hasConfidentiality : Scope → Bool
  | issues | notes => true
  | _ => false

def hasState : Scope → Bool
  | issues | mergeRequests | milestones => true
  | _ => false

def isBlob : Scope → Bool
  | blobs | wikiBlobs => true
  | _ => false

theorem mem_all (scope : Scope) : scope ∈ all := by cases scope <;> decide

end Scope

end SearchRelay
