import SearchRelay.CommandLine.Usage
import SearchRelay.Text.Decimal

/-!
Reading the command line. Arguments are read from left to right; the first one that cannot be
understood, or that asks for help, decides. What is missing is found out at the end.
-/

namespace SearchRelay.CommandLine

inductive Command where
  | index (records refs : String) (enabled : List Nat) (progress : Bool)
  | indexRepository (project : Nat) (path : String) (wiki : Bool) (statusFile : Option String)
  | search (query : String) (projects : List Nat) (admin : Bool) (state sort scope : Option String)
      (page : String)
deriving DecidableEq, Repr

inductive Wish where
  | run (config : Option String) (command : Command)
  /-- A text, and nothing else. -/
  | print (text : String)
  /-- The arguments make no sense. -/
  | misuse
deriving DecidableEq, Repr

/-- The options and the argument that were given so far. -/
structure Given where
  values : List (String × String)
  argument : Option String
deriving DecidableEq, Repr

namespace Given

def empty : Given := ⟨[], none⟩

def value? (given : Given) (name : String) : Option String := given.values.lookup name

def isSet (given : Given) (name : String) : Bool := (given.value? name).isSome

def numbers? (text : String) : Option (List Nat) :=
  (text.toList.splitOnP (· == ',')).mapM Text.readWord?

def numbers (given : Given) (name : String) : List Nat :=
  (given.values.filter fun entry => entry.1 == name).flatMap fun entry =>
    (numbers? entry.2).getD []

def accepts (option : OptionSpec) (value : String) : Bool :=
  match option.kind with
  | .flag | .text => true
  | .path => !value.isEmpty
  | .number => (Text.readWord? value.toList).isSome
  | .numbers => (numbers? value).isSome

/-- Takes an option with its value, if it can take it and was not given before. -/
def add? (given : Given) (option : OptionSpec) (value : String) : Option Given :=
  if accepts option value && (option.kind == .numbers || !given.isSet option.name) then
    some { given with values := given.values ++ [(option.name, value)] }
  else none

def addArgument? (given : Given) (spec : CommandSpec) (value : String) : Option Given :=
  if spec.argument.isSome && given.argument.isNone then some { given with argument := some value }
  else none

end Given

inductive Argument where
  /-- Two hyphens: no option follows. -/
  | rest
  /-- The long name of an option, perhaps with its value. -/
  | long (name : String) (value : Option String)
  /-- The letter of an option with what is attached to it. -/
  | short (letter : Char) (attached : String)
  | plain (text : String)

def Argument.ofText (text : String) : Argument :=
  match text.toList with
  | ['-', '-'] => .rest
  | '-' :: '-' :: name =>
    .long (String.ofList (name.takeWhile (· ≠ '='))) <|
      if name.contains '=' then some (String.ofList ((name.dropWhile (· ≠ '=')).drop 1)) else none
  | '-' :: letter :: attached => .short letter (String.ofList attached)
  | _ => .plain text

def canBeValue (text : String) : Bool :=
  match Argument.ofText text with
  | .plain _ => true
  | _ => false

/-- What is attached to the letter of an option: a value, perhaps behind an equals sign. -/
def attached? (text : String) : Option String :=
  match text.toList with
  | [] => none
  | '=' :: value => some (String.ofList value)
  | _ => some text

/-- What reading options came to: a wish that is already decided, or what was given, and whatever
was not read. -/
inductive Reading where
  | decided (wish : Wish)
  | given (given : Given) (unread : List String)

/-- Reads the value of an option, attached to it or behind it. -/
def takeValue (option : OptionSpec) (attached : Option String) (rest : List String) (given : Given) :
    Option (Given × List String) :=
  match option.kind, attached, rest with
  | .flag, none, rest => (given.add? option "").map (·, rest)
  | .flag, some _, _ => none
  | _, some value, rest => (given.add? option value).map (·, rest)
  | _, none, value :: rest =>
    if canBeValue value then (given.add? option value).map (·, rest) else none
  | _, none, [] => none

theorem length_le_of_takeValue {option : OptionSpec} {attached : Option String}
    {rest after : List String} {given next : Given}
    (taken : takeValue option attached rest given = some (next, after)) :
    after.length ≤ rest.length := by
  unfold takeValue at taken
  split at taken
  · simp only [Option.map_eq_some_iff, Prod.mk.injEq] at taken
    obtain ⟨_, _, _, rfl⟩ := taken; exact Nat.le_refl _
  · simp at taken
  · simp only [Option.map_eq_some_iff, Prod.mk.injEq] at taken
    obtain ⟨_, _, _, rfl⟩ := taken; exact Nat.le_refl _
  · split at taken
    · simp only [Option.map_eq_some_iff, Prod.mk.injEq] at taken
      obtain ⟨_, _, _, rfl⟩ := taken; exact Nat.le_succ _
    · simp at taken
  · simp at taken

def readPlain (spec : CommandSpec) (given : Given) : List String → Reading
  | [] => .given given []
  | text :: rest =>
    match given.addArgument? spec text with
    | some given => readPlain spec given rest
    | none => .decided .misuse

/-- Reads the options of a command. Reading stops at the first argument that is no option if the
command takes none. -/
def readOptions (spec : CommandSpec) (help : String) (version : Option String) (given : Given) :
    List String → Reading
  | [] => .given given []
  | text :: rest =>
    let take (option : Option OptionSpec) (attached : Option String) : Reading :=
      match option with
      | none => .decided .misuse
      | some option =>
        match h : takeValue option attached rest given with
        | some (given, after) =>
          have := length_le_of_takeValue h
          readOptions spec help version given after
        | none => .decided .misuse
    match Argument.ofText text with
    | .rest => readPlain spec given rest
    | .long "help" none => .decided (.print help)
    | .long name value =>
      match version with
      | some version =>
        if name = "version" ∧ value = none then .decided (.print version)
        else take (spec.options.find? (·.name == name)) value
      | none => take (spec.options.find? (·.name == name)) value
    | .short letter attached =>
      if letter = 'h' then .decided (.print help)
      else if letter = 'V' ∧ version.isSome then .decided (.print (version.getD ""))
      else take (spec.options.find? (·.letter == some letter)) (attached? attached)
    | .plain text =>
      if spec.argument.isNone then .given given (text :: rest)
      else
        match given.addArgument? spec text with
        | some given => readOptions spec help version given rest
        | none => .decided .misuse
  termination_by args => args.length

/-- The command for what was given to a subcommand, if nothing is missing. -/
def command? (name : String) (given : Given) : Option Command :=
  match name with
  | "index" => do
    return .index (← given.value? "records") (← given.value? "refs")
      (given.numbers "enabled-projects") (!given.isSet "no-progress")
  | "index-repository" => do
    let project ← (given.value? "project-id").bind fun text => Text.readWord? text.toList
    return .indexRepository project (← given.value? "path") (given.isSet "wiki")
      (given.value? "status-file")
  | _ => do
    return .search (← given.argument) (given.numbers "project-ids") (given.isSet "admin")
      (given.value? "state") (given.value? "sort") (given.value? "scope")
      ((given.value? "page").getD "1")

def helpOf? (name : String) : Option String :=
  if name = "help" then some helpHelp
  else (commands.find? (·.name == name)).map CommandSpec.help

def readHelp : List String → Wish
  | [] => .print programHelp
  | [name] => (helpOf? name).elim .misuse .print
  | _ => .misuse

/-- The arguments of a subcommand. A settings file that is named here goes before one that was
named earlier. -/
def readCommand (config : Option String) (spec : CommandSpec) (args : List String) : Wish :=
  let full : CommandSpec := { spec with options := configOption :: spec.options }
  match readOptions full spec.help none .empty args with
  | .decided wish => wish
  | .given _ (_ :: _) => .misuse
  | .given given [] =>
    match command? spec.name given with
    | some command => .run ((given.value? "config").or config) command
    | none => .misuse

def readArguments (args : List String) : Wish :=
  match readOptions ⟨programName, "", none, [configOption]⟩ programHelp versionText .empty args with
  | .decided wish => wish
  | .given _ [] => .misuse
  | .given given (name :: rest) =>
    if name = "help" then readHelp rest
    else
      match commands.find? (·.name == name) with
      | some spec => readCommand (given.value? "config") spec rest
      | none => .misuse

end SearchRelay.CommandLine
