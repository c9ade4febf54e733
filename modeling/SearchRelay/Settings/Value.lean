import SearchRelay.Entries

/-!
Values that settings are read from, before anything is known about their meaning.
-/

namespace SearchRelay

inductive SettingValue where
  | text (value : String)
  | integer (value : Int)
  /-- Any other number. No setting is one, so nothing is known about it. -/
  | real
  | boolean (value : Bool)
  | list (items : List SettingValue)
  /-- Values by name, in increasing order of the names. -/
  | group (entries : List (String × SettingValue))
deriving Repr, Inhabited

namespace SettingValue

mutual

/-- The upper value over the lower one. Groups are merged name by name. -/
def overlay (lower upper : SettingValue) : SettingValue :=
  match lower, upper with
  | .group below, .group above => .group (overlayEntries below above)
  | _, upper => upper

def overlayEntries (below : List (String × SettingValue)) :
    List (String × SettingValue) → List (String × SettingValue)
  | [] => below
  | (name, value) :: rest =>
    let merged := match Entries.find? below name with
      | some lower => overlay lower value
      | none => value
    overlayEntries (Entries.insert name merged below) rest

end

/-- A value under names within names, the outermost one first. An empty name ends them. -/
def nested (names : List String) (value : SettingValue) : SettingValue :=
  match names with
  | [] => value
  | name :: rest => if name.isEmpty then value else .group [(name, nested rest value)]

end SettingValue

end SearchRelay
