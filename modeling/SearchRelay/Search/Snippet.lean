import SearchRelay.Query.Answer
import SearchRelay.Query.Filter
import SearchRelay.Query.Request
import SearchRelay.Report
import SearchRelay.Text.Line

/-!
Snippets of files. The line of the first match is found in the marked copy of the content, by the
line feeds before the mark, and the snippet is that line and the two lines before it.
-/

namespace SearchRelay

/-- The lines shown before the line of the match. -/
def leadingLines : Nat := 2

structure Snippet where
  path : String
  basename : String
  refName : String
  /-- The number of the first line shown, from one on. -/
  startLine : Nat
  /-- The number of the line with the match, if the content was marked. -/
  matchLine : Option Nat
  data : String
  projectId : Option Nat
deriving DecidableEq, Repr

namespace Snippet

/-- A path without the last extension of its file name. A name that only begins with a dot has no
extension. -/
def basenameOf (path : List Char) : List Char :=
  let name := path.reverse.takeWhile (· != '/')
  let extension := name.takeWhile (· != '.')
  if name.length ≤ extension.length + 1 then path
  else path.take (path.length - (extension.length + 1))

/-- A string member, or the empty string. -/
def stringMember (value : Json) (key : String) : String :=
  match value.get? key with
  | some (.str text) => text
  | _ => ""

def wordMember? (value : Json) (key : String) : Option Nat :=
  match value.get? key with
  | some (.num number) => number.toWord?
  | _ => none

def linesBeforeMark (marked : List Char) : Option Nat :=
  (Text.cut? startMark marked).map fun (before, _) => before.count '\n'

/-- Some lines of a content, ending with the line `last`. -/
def window (lines : List (List Char)) (last : Nat) : List (List Char) :=
  let first := last - leadingLines
  (lines.drop first).take (last + 1 - first)

/-- The snippet of a hit. A project that is given counts before that of the document. -/
def ofHit (hit : Hit) (project : Option Nat) : Outcome Snippet :=
  match hit.source.lookup "blob" with
  | none => .error <| .told <| "💀 hit '" ++ hit.id ++
      "' has no blob in its _source. A blob hit without a blob."
  | some blob =>
    let path := stringMember blob "path"
    let marked := ((hit.marked? "blob.content").bind List.head?).bind
      fun fragment => linesBeforeMark fragment.toList
    let lines := Text.wholeLines (stringMember blob "content").toList
    let last := min (marked.getD 0) (lines.length - 1)
    .ok {
      path := path
      basename := String.ofList (basenameOf path.toList)
      refName := stringMember blob "commit_sha"
      startLine := last - leadingLines + 1
      matchLine := marked.map fun _ => last + 1
      data := String.ofList (window lines last).flatten
      projectId := project.or (wordMember? hit.source "project_id") }

end Snippet

end SearchRelay
