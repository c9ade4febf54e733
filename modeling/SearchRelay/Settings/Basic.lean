import SearchRelay.File
import SearchRelay.Indexer
import SearchRelay.Search.Results
import SearchRelay.Settings.Cluster
import SearchRelay.Settings.Environment
import SearchRelay.Toml.Document

/-!
The settings of the program. Those of a file go over those of the environment, and every setting
has a default, so no settings at all are an unsigned connection to a cluster on this machine.
-/

namespace SearchRelay

structure Settings where
  cluster : ClusterSettings := {}
  /-- The largest request with operations, in bytes. -/
  bulkLimit : Nat := defaultBulkLimit
  /-- Only enabled projects are indexed. -/
  limited : Bool := false
  /-- The size of a page when nobody asks for another one. -/
  perPage : Nat := Question.defaultPerPage
  /-- How many lines of a dump may wait to be indexed. -/
  queueCapacity : Nat := 1024
deriving DecidableEq, Repr

namespace SettingValue

def text? : SettingValue → Option String
  | .text value => some value
  | _ => none

def boolean? : SettingValue → Option Bool
  | .boolean value => some value
  | _ => none

def word? : SettingValue → Option Nat
  | .integer value => if 0 ≤ value ∧ value < Int.pow 2 64 then some value.toNat else none
  | _ => none

end SettingValue

namespace Settings

/-- A setting in a section: its place, and the names it goes by. A section may also be a list of
its settings by place. A setting that is given under two names is given twice, which is an
error. -/
def lookup (part : SettingValue) (place : Nat) (names : List String) :
    Option (Option SettingValue) :=
  match part with
  | .group entries =>
    match names.filterMap (Entries.find? entries) with
    | [] => some none
    | [value] => some (some value)
    | _ => none
  | .list items => some items[place]?
  | _ => none

/-- Reads a setting; a missing one has its default. -/
def read (part : SettingValue) (place : Nat) (names : List String) (as? : SettingValue → Option α)
    (default : α) : Option α :=
  match lookup part place names with
  | none => none
  | some none => some default
  | some (some value) => as? value

def readCluster (part : SettingValue) : Option ClusterSettings := do
  let plain : ClusterSettings := {}
  let url ← read part 0 ["url"] SettingValue.text? plain.url
  let index ← read part 1 ["index_name"] SettingValue.text? plain.index
  let signed ← read part 2 ["aws"] SettingValue.boolean? plain.signed
  let region ← read part 3 ["aws_region"] SettingValue.text? plain.region
  let accessKey ← read part 4 ["aws_access_key"] (fun v => v.text?.map some) plain.accessKey
  let secretKey ← read part 5 ["aws_secret_access_key"] (fun v => v.text?.map some) plain.secretKey
  let connectTimeout ← read part 6 ["connect_timeout_secs"] SettingValue.word? plain.connectTimeout
  let timeout ← read part 7 ["timeout_secs"] SettingValue.word? plain.timeout
  return ⟨url, index, signed, region, accessKey, secretKey, connectTimeout, timeout⟩

/-- The settings that values stand for. Values that no setting asks for do not matter. -/
def ofValue? (value : SettingValue) : Option Settings := do
  let plain : Settings := {}
  let part (place : Nat) (name : String) : Option SettingValue :=
    read value place [name] some (.group [])
  let cluster ← readCluster (← part 0 "elasticsearch")
  let indexing ← part 1 "indexer"
  let bulkLimit ← read indexing 0 ["bulk_limit_bytes"] SettingValue.word? plain.bulkLimit
  let limited ← read indexing 1 ["limit_indexing"] SettingValue.boolean? plain.limited
  let perPage ← read (← part 2 "search") 0 ["default_per_page"] SettingValue.word? plain.perPage
  let queueCapacity ← read (← part 3 "runtime") 0 ["queue_capacity", "channel_size"]
    SettingValue.word? plain.queueCapacity
  return ⟨cluster, bulkLimit, limited, perPage, queueCapacity⟩

/-- What a file gives. A file that is not there gives nothing. -/
def fileValue? (file : File) : Option SettingValue :=
  match file.bytes? with
  | none => some (.group [])
  | some bytes => (Text.decode? bytes).bind Toml.document?

/-- What could not be read. -/
def unreadable (file : Option File) : Report :=
  (Report.outside .settings).within <| match file with
    | some file => "💀 Failed to parse configuration from file '" ++ file.name ++
        "' and environment variables (SRX_*)."
    | none => "💀 Failed to parse configuration from environment variables (SRX_*). " ++
        "No file was provided, so this one's all on the environment."

/-- Loads the settings of a file, if one was named, over those of the environment. -/
def load (file : Option File) (environment : List (String × String)) : Outcome Settings :=
  let given := match file with
    | some file => fileValue? file
    | none => some (.group [])
  match given.bind fun upper => ofValue? ((Environment.settings environment).overlay upper) with
  | some settings => .ok settings
  | none => .error (unreadable file)

end Settings

end SearchRelay
