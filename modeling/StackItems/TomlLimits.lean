/-
Limits in TOML.

Limits are the members of a document under the names of the fields; other
members are skipped.  The text must be well-formed as a whole; after that the
first member in the order of the document that has a wrong value decides what is
reported.

* `Limits.ofToml` — limits from a text;
* `Setting.toToml` — a setting as a line.
-/
import StackItems.Settings
import StackItems.ShortestDecimal
import StackItems.TomlText

namespace StackItems

namespace TomlValue

/-- What a value is, for a message. -/
def found : TomlValue → Found
  | string s => .string s
  | integer n => .integer n
  | float x => .float (FloatStyle.plain.text x)
  | boolean b => .boolean b
  | datetime | table .. => .map
  | array _ | tables _ => .sequence

/-- A value as a machine word. -/
def word : TomlValue → Except DocumentFault UInt64
  | integer n =>
    if 0 ≤ n then .ok (UInt64.ofNat n.toNat) else .error (.invalidValue (.integer n) "usize")
  | v => .error (.invalidType v.found "usize")

/-- The check of the value under a name that stands as the only key of a table:
there must be nothing in it. -/
def asNothing : TomlValue → Except DocumentFault Unit
  | tables elements => if elements.isEmpty then .ok () else .error .nonemptySequence
  | array elements => if elements.isEmpty then .ok () else .error .nonemptyTable
  | table _ members => if members.isEmpty then .ok () else .error .nonemptyTable
  | string _ => .error (.noTable .string)
  | integer _ => .error (.noTable .integer)
  | float _ => .error (.noTable .float)
  | boolean _ => .error (.noTable .boolean)
  | datetime => .error (.noTable .datetime)

/-- A mode of removal by its name. -/
def modeNamed (name : String) : Except DocumentFault RemovalMode :=
  match RemovalMode.ofName? name with
  | some mode => .ok mode
  | none => .error (.unknownName name RemovalMode.names)

/-- A value as a mode of removal: a name, or a table with the name as its only
key. -/
def mode : TomlValue → Except DocumentFault RemovalMode
  | string s => modeNamed s
  | table _ [] => .error .emptyTable
  | table _ [(name, value)] => do
    let mode ← modeNamed name
    value.asNothing
    return mode
  | table _ _ => .error .crowdedTable
  | _ => .error .neitherStringNorTable

/-- A value as that of a field. -/
def setting (value : TomlValue) : Field → Except DocumentFault Setting
  | .count field => value.word.map (.count field)
  | .removalMode => value.mode.map .removalMode

end TomlValue

/-- The settings among the members of a document. -/
def Members.settings : Members → Except DocumentFault (List Setting)
  | [] => .ok []
  | (name, value) :: rest =>
    match Field.ofName? name with
    | none => Members.settings rest
    | some field => do
      let s ← value.setting field
      return s :: (← Members.settings rest)

/-- The settings that a text gives. -/
def Setting.ofToml (text : String) : Except DocumentFault (List Setting) :=
  match Members.ofToml? text with
  | none => .error .malformed
  | some members => members.settings

/-- The limits that a text gives. -/
def Limits.ofToml (text : String) : Except DocumentFault Limits :=
  (Setting.ofToml text).map Limits.ofSettings

/-- A setting as a line. -/
def Setting.toToml : Setting → String
  | .count field n => field.name ++ " = " ++ toString n.toNat ++ "\n"
  | .removalMode mode => Field.removalMode.name ++ " = \"" ++ mode.name ++ "\"\n"

end StackItems
