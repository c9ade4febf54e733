import SearchRelay.File
import SearchRelay.Gzip.Member
import SearchRelay.Report
import SearchRelay.Text.Line
import SearchRelay.Text.Space

/-!
Dumps of references: one reference on a line, blank lines between them. A dump may be compressed,
which its first bytes tell and not its name. Reading ends at the first line that is no text.
-/

namespace SearchRelay

structure Dump where
  /-- The lines that are not blank, without the blanks around them. -/
  lines : List String
  /-- The number of the line that could not be read, if there is one. -/
  unreadable : Option Nat
deriving DecidableEq, Repr

namespace Dump

/-- Reads lines, the first of them with a number, up to the first one that is no text. `whole` says
that nothing is missing after them; otherwise the line after the last one cannot be read. `done`
holds the lines before, the last one first. -/
def readLines (whole : Bool) : (number : Nat) → (done : List String) → List Text.Bytes → Dump
  | number, done, [] => ⟨done.reverse, if whole then none else some number⟩
  | number, done, bytes :: rest =>
    match Text.decode? bytes with
    | none => ⟨done.reverse, some number⟩
    | some text =>
      let line := Text.trim text
      let done := if line.isEmpty then done else String.ofList line :: done
      readLines whole (number + 1) done rest

def feed : UInt8 := 0x0A

/-- The lines of bytes. What follows the last line feed is a line only if nothing is missing after
it. -/
def byteLines (content : Text.Bytes) (whole : Bool) : List Text.Bytes :=
  let lines := Text.splitLines feed [] [] content
  if whole then lines else lines.filter fun line => line.getLast? == some feed

/-- The content of a dump, compressed or not, and whether nothing is missing after it. -/
def unpack (bytes : Text.Bytes) : Text.Bytes × Bool :=
  if Gzip.magic.isPrefixOf bytes then Gzip.unpack bytes else (bytes, true)

def ofBytes (bytes : Text.Bytes) : Dump :=
  let (content, whole) := unpack bytes
  readLines whole 1 [] (byteLines content whole)

/-- The dump of a name could not be read to its end. -/
def unreadableAt (name : String) (line : Nat) : Report :=
  (Report.outside .file).within <|
    "💀 Line " ++ toString line ++ " of '" ++ name ++ "' could not be read."

/-- The dump of a name could not be opened. -/
def unopened (name : String) : Report :=
  (Report.outside .file).within ("💀 The refs file '" ++ name ++ "' would not open.")

/-- The dump was opened, and nothing could be read. -/
def unpeeked : Report :=
  (Report.outside .file).within "💀 Could not peek at the first bytes of the refs file."

/-- Reads a dump, which has to be there. -/
def ofFile (file : File) : Outcome Dump :=
  match file.content with
  | .bytes bytes => .ok (ofBytes bytes)
  | .missing => .error (unopened file.name)
  | .unreadable => .error unpeeked

end Dump

end SearchRelay
