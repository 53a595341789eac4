/-
Settings: limits field by field.

A document sets some of the fields of limits, in any order; the others keep
their default values.

* `Limits.ofSettings` — the limits that a list of settings gives;
* `Limits.setting` — the setting that one field of limits is.
-/
import StackItems.DocumentFault
import StackItems.Limits

namespace StackItems

/-- The fields of limits that hold a number. -/
inductive CountField where
  | maxStructDepth
  | maxCloneLength
  | maxComparableItems
  | maxItemSize
  | maxItems
  deriving DecidableEq

/-- The fields of limits. -/
inductive Field where
  | count (field : CountField)
  | removalMode
  deriving DecidableEq

/-- The name of a numeric field in documents. -/
def CountField.name : CountField → String
  | maxStructDepth => "max_struct_depth"
  | maxCloneLength => "max_clone_length"
  | maxComparableItems => "max_comparable_items"
  | maxItemSize => "max_item_size"
  | maxItems => "max_items"

namespace Field

/-- All fields, in the order in which a list of values gives them. -/
def all : List Field :=
  [count .maxStructDepth, count .maxCloneLength, count .maxComparableItems, count .maxItemSize,
    count .maxItems, removalMode]

/-- The name of a field in documents. -/
def name : Field → String
  | count field => field.name
  | removalMode => "remove_at_mode"

/-- The field with the given name, if there is one. -/
def ofName? (s : String) : Option Field := all.find? (·.name == s)

theorem ofName?_name (f : Field) : ofName? f.name = some f := by
  cases f with
  | count field => cases field <;> rfl
  | removalMode => rfl

end Field

/-- A field with its value. -/
inductive Setting where
  | count (field : CountField) (value : UInt64)
  | removalMode (mode : RemovalMode)
  deriving DecidableEq

/-- The field that a setting is for. -/
def Setting.field : Setting → Field
  | count field _ => .count field
  | removalMode _ => .removalMode

namespace Limits

/-- The value of a numeric field. -/
def get (limits : Limits) : CountField → UInt64
  | .maxStructDepth => limits.maxStructDepth
  | .maxCloneLength => limits.maxCloneLength
  | .maxComparableItems => limits.maxComparableItems
  | .maxItemSize => limits.maxItemSize
  | .maxItems => limits.maxItems

/-- The limits with one field set. -/
def set (limits : Limits) : Setting → Limits
  | .count .maxStructDepth n => { limits with maxStructDepth := n }
  | .count .maxCloneLength n => { limits with maxCloneLength := n }
  | .count .maxComparableItems n => { limits with maxComparableItems := n }
  | .count .maxItemSize n => { limits with maxItemSize := n }
  | .count .maxItems n => { limits with maxItems := n }
  | .removalMode mode => { limits with removalMode := mode }

/-- The default limits with some fields set. -/
def ofSettings (settings : List Setting) : Limits := settings.foldl set .default

/-- One field of limits with its value. -/
def setting (limits : Limits) : Field → Setting
  | .count field => .count field (limits.get field)
  | .removalMode => .removalMode limits.removalMode

end Limits

/-- The names of the modes of removal. -/
def RemovalMode.names : List String := [exact.name, legacy.name]

end StackItems
