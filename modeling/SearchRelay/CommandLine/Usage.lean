/-!
What may stand on the command line: subcommands, their options, and the help that describes them.
The help is laid out from the same table that the arguments are read with, so nothing can be
described that is not understood.
-/

namespace SearchRelay.CommandLine

inductive OptionKind where
  /-- Nothing; it may be given once. -/
  | flag
  | text
  /-- The name of a file, which is not empty. -/
  | path
  | number
  /-- Numbers between commas; it may be given more than once. -/
  | numbers
deriving DecidableEq, Repr

structure OptionSpec where
  name : String
  kind : OptionKind
  hint : String
  letter : Option Char := none
  required : Bool := false
  default : Option String := none
deriving DecidableEq, Repr

structure CommandSpec where
  name : String
  about : String
  /-- The name of the one argument that is no option, if there is one. -/
  argument : Option String
  options : List OptionSpec
deriving DecidableEq, Repr

def programName : String := "srx-cli"

def versionText : String := programName ++ " 0.1.0\n"

def configOption : OptionSpec where
  name := "config"
  kind := .path
  hint := "TOML config file. Without one, only SRX_* environment variables are used"
  letter := some 'c'

def indexSpec : CommandSpec where
  name := "index"
  about := "Stream serialized document references into the index"
  argument := none
  options := [
    { name := "records", kind := .path, hint := "NDJSON file of records, one per line",
      required := true },
    { name := "refs", kind := .path,
      hint := "Serialized references, one per line. May be gzipped", required := true },
    { name := "enabled-projects", kind := .numbers,
      hint := "Projects enabled for indexing when \x60limit_indexing\x60 is on" },
    { name := "no-progress", kind := .flag, hint := "No progress bar, for logs and CI" }]

def repositorySpec : CommandSpec where
  name := "index-repository"
  about := "Index a project's git repository from where the last run left off"
  argument := none
  options := [
    { name := "project-id", kind := .number, hint := "", required := true },
    { name := "path", kind := .path, hint := "The repository on disk, work tree or bare",
      required := true },
    { name := "wiki", kind := .flag,
      hint := "It's the project's wiki: pages are indexed, history is not" },
    { name := "status-file", kind := .path,
      hint := "Where index statuses are kept between runs. Keep code and wiki apart" }]

def searchSpec : CommandSpec where
  name := "search"
  about := "Count matches per scope, or list one scope's page"
  argument := some "QUERY"
  options := [
    { name := "project-ids", kind := .numbers,
      hint := "Only these projects. Omit for every project" },
    { name := "admin", kind := .flag, hint := "Search as an administrator in admin mode" },
    { name := "state", kind := .text,
      hint := "\x60opened\x60, \x60closed\x60, \x60merged\x60, or \x60all\x60" },
    { name := "sort", kind := .text,
      hint := "\x60created_desc\x60, \x60created_asc\x60, \x60updated_desc\x60, \x60updated_asc\x60" },
    { name := "scope", kind := .text,
      hint := "List this scope's results instead of counting every scope" },
    { name := "page", kind := .text, hint := "", default := some "1" }]

def commands : List CommandSpec := [indexSpec, repositorySpec, searchSpec]

/-! ### Help -/

/-- The width that a line of help should have. -/
def lineWidth : Nat := 100

def blanks (count : Nat) : String := String.ofList (List.replicate count ' ')

structure Entry where
  /-- The letter that is short for it. -/
  letter : Option Char
  call : String
  hint : String

def OptionSpec.call (option : OptionSpec) : String :=
  let place := String.ofList (option.name.toList.map fun c => if c = '-' then '_' else c.toUpper)
  "--" ++ option.name ++ if option.kind = .flag then "" else " <" ++ place ++ ">"

def OptionSpec.entry (option : OptionSpec) : Entry :=
  let hint := match option.default with
    | none => option.hint
    | some value =>
      (if option.hint.isEmpty then "" else option.hint ++ " ") ++ "[default: " ++ value ++ "]"
  ⟨option.letter, option.call, hint⟩

/-- How an entry is called, behind its letter if it has one. -/
def Entry.start (entry : Entry) : String :=
  let letter := match entry.letter with
    | some c => String.ofList ['-', c, ',', ' ']
    | none => blanks 4
  "  " ++ letter ++ entry.call

/-- The line of an entry whose hint starts in a column. A long hint stays on its line. -/
def Entry.beside (column : Nat) (entry : Entry) : String :=
  entry.start ++ blanks (column - entry.start.length) ++ entry.hint ++ "\n"

def Entry.above (entry : Entry) : String :=
  entry.start ++ "\n" ++ blanks 10 ++ entry.hint ++ "\n"

/-- A section of options. Hints move below their options when these take too much of the line. -/
def optionSection (entries : List Entry) : String :=
  let longest := entries.foldl (fun longest entry => max longest entry.call.length) 0
  let taken := longest + 12
  let below := 2 * lineWidth < 5 * taken &&
    entries.any fun entry => lineWidth - taken < entry.hint.length
  String.join (entries.map fun entry =>
    if below then entry.above else entry.beside (longest + 8))

def helpEntry : Entry := ⟨some 'h', "--help", "Print help"⟩
def versionEntry : Entry := ⟨some 'V', "--version", "Print version"⟩

def programHelp : String :=
  let names := (commands.map fun spec => (spec.name, spec.about)) ++
    [("help", "Print this message or the help of the given subcommand(s)")]
  let longest := names.foldl (fun longest name => max longest name.1.length) 0
  let line (entry : String × String) : String :=
    "  " ++ entry.1 ++ blanks (longest + 2 - entry.1.length) ++ entry.2 ++ "\n"
  "🔍 Bulk-index records into a search cluster, and search them back\n\n" ++
    "Usage: " ++ programName ++ " [OPTIONS] <COMMAND>\n\nCommands:\n" ++
    String.join (names.map line) ++ "\nOptions:\n" ++
    optionSection [configOption.entry, helpEntry, versionEntry]

def CommandSpec.help (spec : CommandSpec) : String :=
  let needed := (spec.options.filter OptionSpec.required).map fun option => " " ++ option.call
  let argument := spec.argument.elim "" fun name => " <" ++ name ++ ">"
  let listing := spec.argument.elim "" fun name => "Arguments:\n  <" ++ name ++ ">  \n\n"
  spec.about ++ "\n\nUsage: " ++ programName ++ " " ++ spec.name ++ " [OPTIONS]" ++
    String.join needed ++ argument ++ "\n\n" ++ listing ++ "Options:\n" ++
    optionSection ((configOption :: spec.options).map OptionSpec.entry ++ [helpEntry])

def helpHelp : String :=
  "Print this message or the help of the given subcommand(s)\n\nUsage: " ++ programName ++
    " help [COMMAND]...\n\nArguments:\n  [COMMAND]...  Print help for the subcommand(s)\n"

end SearchRelay.CommandLine
