import Rulebook.Settings.Path

/-!
# Variables

The variables of a process, and the settings that they make. A variable whose name begins with
`RULES_`, in any case, is a setting: the rest of its name is read in small letters, two underscores
leading into a section. Its value is a truth value, a whole number or another number if it can be
read as one, and a text otherwise.
-/

namespace Rulebook

/-- Variables with their values, each name once. -/
abbrev Variables := List (String × String)

namespace Variables

/-- The value of a variable. -/
def get? (vs : Variables) (name : String) : Option String :=
  Entries.find? name vs

/-- Sets a variable, unless it is set. -/
def setNew (vs : Variables) (name value : String) : Variables :=
  if (vs.get? name).isSome then vs else vs ++ [(name, value)]

/-- What the names of settings begin with. -/
def settingMark : List Char := "rules_".toList

/-- The text with a dot for every two underscores. -/
def dotted : List Char → List Char
  | '_' :: '_' :: cs => '.' :: dotted cs
  | c :: cs => c :: dotted cs
  | [] => []

/-- The path of the setting that a variable makes, if it makes one. Letters other than ASCII ones do
not occur in the names of settings. -/
def settingName? (name : String) : Option String :=
  let cs := name.toList.map Char.toLower
  if settingMark.isPrefixOf cs then some (String.ofList (dotted (cs.drop settingMark.length)))
  else none

/-- The setting that a value makes. -/
def setting (value : String) : Setting :=
  let w := Setting.lowered value
  if w = "true" then .flag true
  else if w = "false" then .flag false
  -- a numeral beyond 64 bits is still a number, but not a whole one
  else match Text.int64? value.toList with
    | some i => .integer i.toInt
    | none =>
      match Binary64.ofText? value.toList with
      | some x => .float x
      | none => .text value

/-- The settings that variables make. -/
def settings (vs : Variables) : List (String × Setting) :=
  vs.filterMap fun v => (settingName? v.1).map fun name => (name, setting v.2)

end Variables

end Rulebook
