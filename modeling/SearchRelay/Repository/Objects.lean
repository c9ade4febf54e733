import SearchRelay.Entries
import SearchRelay.Repository.Basic
import SearchRelay.Text.Utf8

/-!
Repositories of stored objects. Commits are named by forty hexadecimal digits; paths and contents
are bytes. Only text files are read: a file that looks binary or is not well-formed text is passed
over, and so is a file whose name is not.
-/

namespace SearchRelay

structure TreeEntry where
  path : Text.Bytes
  /-- A file or a link; other entries have no content of their own. -/
  isFile : Bool
  /-- The content, unless it was lost. -/
  content : Option Text.Bytes

structure CommitObject where
  id : String
  parents : List String
  /-- Seconds since the beginning of 1970. -/
  time : Int
  author : String
  message : String
  entries : List TreeEntry

/-- What the head of a repository names. -/
inductive HeadRef where
  | branch
  | commit (id : String)
  /-- The head cannot be made sense of. -/
  | broken
deriving DecidableEq, Repr

structure ObjectStore where
  commits : List CommitObject
  head : HeadRef
  /-- The commit of the branch that the head names, if the branch exists. -/
  branch : Option String

namespace ObjectStore

def failure : Report := .outside .repository

/-! ### Texts and binaries -/

/-- The bytes that tell a text from a binary. -/
def inspected : Nat := 8000

def isPrintable (byte : UInt8) : Bool :=
  (0x1F < byte && byte != 0x7F) || byte == 0x08 || byte == 0x0C || byte == 0x1B

def isBlankByte (byte : UInt8) : Bool := (0x09 ≤ byte && byte ≤ 0x0D) || byte == 0x20

/-- The bytes after a byte-order mark of eight-bit text. Other marks are those of a binary. -/
def afterMark : Text.Bytes → Option Text.Bytes
  | 0xEF :: 0xBB :: 0xBF :: rest => some rest
  | 0xFE :: 0xFF :: _ => none
  | 0xFF :: 0xFE :: _ => none
  | bytes => some bytes

/-- A content looks binary when it has a zero byte, or too many bytes that nobody prints. -/
def isBinary (content : Text.Bytes) : Bool :=
  match afterMark (content.take inspected) with
  | none => true
  | some bytes =>
    let printable := bytes.countP isPrintable
    let others := bytes.countP fun byte => !isPrintable byte && !isBlankByte byte
    bytes.contains 0 || printable / 128 < others

/-- The text of a file, if it is one. -/
def textOf? (content : Text.Bytes) : Option String :=
  if isBinary content then none else (Text.decode? content).map String.ofList

/-! ### Names of commits -/

def isHex (c : Char) : Bool :=
  c.isDigit || ('a' ≤ c && c ≤ 'f') || ('A' ≤ c && c ≤ 'F')

/-- The full name that a text stands for: up to forty digits, filled up with zeros. -/
def fullId? (text : String) : Option String :=
  let chars := text.toList
  if chars.isEmpty || 40 < chars.length || !chars.all isHex then none
  else some (String.ofList (chars.map Char.toLower ++ List.replicate (40 - chars.length) '0'))

/-- The full name, or a report that the text is none. -/
def readId (text : String) : Outcome String :=
  match fullId? text with
  | some id => .ok id
  | none => .error (failure.within ("💀 '" ++ text ++ "' is not a commit id."))

def find? (store : ObjectStore) (id : String) : Option CommitObject :=
  store.commits.find? fun commit => commit.id == id

def lookup (store : ObjectStore) (text : String) : Outcome CommitObject :=
  match readId text with
  | .error report => .error report
  | .ok id =>
    match store.find? id with
    | some commit => .ok commit
    | none => .error failure

/-! ### Trees -/

/-- Cuts a path into its directory, slash included, and its name. -/
def splitPath (path : Text.Bytes) : Text.Bytes × Text.Bytes :=
  let name := (path.reverse.takeWhile (· != 0x2F)).reverse
  (path.take (path.length - name.length), name)

/-- The order of bytes, in which the entries of a tree are walked. -/
def bytesLe : Text.Bytes → Text.Bytes → Bool
  | [], _ => true
  | _ :: _, [] => false
  | a :: as, b :: bs => if a = b then bytesLe as bs else a < b

def collectFiles (commit : String) (files : FileTree) : List TreeEntry → Outcome FileTree
  | [] => .ok files
  | entry :: rest =>
    let (directory, name) := splitPath entry.path
    match Text.decode? directory, Text.decode? name with
    | none, _ => .error failure
    | some directory, name =>
      match entry.isFile, name with
      | true, some name =>
        match entry.content with
        | none => .error (failure.within ("💀 A blob under " ++ commit ++ " is missing."))
        | some content =>
          match textOf? content with
          | some text =>
            collectFiles commit (Entries.insert (String.ofList (directory ++ name)) text files) rest
          | none => collectFiles commit files rest
      | _, _ => collectFiles commit files rest

def tree (store : ObjectStore) (text : String) : Outcome FileTree :=
  match store.lookup text with
  | .error report => .error report
  | .ok commit =>
    collectFiles text [] (commit.entries.mergeSort fun left right => bytesLe left.path right.path)

/-! ### Histories -/

def graph (store : ObjectStore) : CommitGraph :=
  ⟨store.commits.map fun commit => (commit.id, commit.parents)⟩

/-- What surrounds a name without belonging to it. -/
def isCrud (c : Char) : Bool :=
  c.toNat ≤ 32 || ['.', ',', ':', ';', '<', '>', '"', '\\', '\''].contains c

/-- A name without what surrounds it. -/
def trimName (name : List Char) : List Char :=
  ((name.dropWhile isCrud).reverse.dropWhile isCrud).reverse

def toCommit (commit : CommitObject) : Commit where
  id := commit.id
  message := String.ofList (commit.message.toList.dropWhile (· == '\n'))
  author := String.ofList (trimName commit.author.toList)
  time := .ofSeconds commit.time

/-- The history of a commit, newest first. -/
def historyOf (store : ObjectStore) (id : String) : List CommitObject :=
  let ids := store.graph.history id
  let reached := store.commits.filter fun commit => ids.contains commit.id
  reached.mergeSort fun left right => right.time ≤ left.time

def between (store : ObjectStore) (since : Option String) (last : String) :
    Outcome (List Commit) :=
  match store.lookup last with
  | .error report => .error report
  | .ok last =>
    match since with
    | none => .ok ((store.historyOf last.id).map toCommit)
    | some since =>
      match store.lookup since with
      | .error report => .error report
      | .ok since =>
        let hidden := store.graph.history since.id
        let fresh := (store.historyOf last.id).filter fun commit => !hidden.contains commit.id
        .ok (fresh.map toCommit)

/-- Names that stand for the same commit are in each other's history, known or not; otherwise both
commits have to be known. -/
def isAncestor (store : ObjectStore) (ancestor descendant : String) : Bool :=
  match fullId? ancestor, fullId? descendant with
  | some ancestor, some descendant =>
    ancestor == descendant ||
      ((store.find? ancestor).isSome && (store.find? descendant).isSome &&
        store.graph.isAncestor ancestor descendant)
  | _, _ => false

/-! ### The head -/

def headCommit (store : ObjectStore) : Outcome (Option String) :=
  match store.head with
  | .branch => .ok store.branch
  | .commit id => if (store.find? id).isSome then .ok (some id) else .error failure
  | .broken => .error (failure.within "💀 HEAD is unreadable.")

def view (store : ObjectStore) : Repository where
  head := store.headCommit
  tree := store.tree
  between := store.between
  isAncestor := store.isAncestor

def notARepository (name : String) : Report :=
  failure.within <| "💀 '" ++ name ++
    "' is not a git repository. Or it is, and libgit2 disagrees."

end ObjectStore

end SearchRelay
