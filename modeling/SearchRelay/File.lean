import SearchRelay.Text.Utf8

/-!
Files that were named. A name may stand for no file at all, or for one whose bytes cannot be read,
such as a directory.
-/

namespace SearchRelay

inductive FileContent where
  | missing
  | unreadable
  | bytes (bytes : Text.Bytes)

structure File where
  name : String
  content : FileContent

namespace File

def of (name : String) : Option Text.Bytes → File
  | some bytes => ⟨name, .bytes bytes⟩
  | none => ⟨name, .missing⟩

/-- The bytes of a file, if they can be read. -/
def bytes? (file : File) : Option Text.Bytes :=
  match file.content with
  | .bytes bytes => some bytes
  | .missing | .unreadable => none

end File

end SearchRelay
