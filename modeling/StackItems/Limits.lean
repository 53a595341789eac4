/-
The limits that bound every walk over stack items.

`Limits` holds five machine words and a mode.  The words are the numbers below
`2 ^ 64`, the range in which a limit can be configured; walks count in natural
numbers and start from the word's value.
-/
namespace StackItems

/-- How removal from an array reads its index. -/
inductive RemovalMode where
  /-- The element at the index is removed. -/
  | exact
  /-- The element before the index is removed; index zero has none. -/
  | legacy
  deriving DecidableEq

namespace RemovalMode

/-- The name of a mode in documents. -/
def name : RemovalMode → String
  | exact => "exact"
  | legacy => "legacy"

/-- The mode with the given name, if there is one. -/
def ofName? : String → Option RemovalMode
  | "exact" => some exact
  | "legacy" => some legacy
  | _ => none

theorem ofName?_name (m : RemovalMode) : ofName? m.name = some m := by cases m <;> rfl

end RemovalMode

/-- The limits on walks over items; the default values are those in force where
a caller names none. -/
structure Limits where
  /-- A walk enters no container at this nesting depth or deeper; the container
  it starts from is at depth zero. -/
  maxStructDepth : UInt64 := 10
  /-- The most children that one copy of a struct visits. -/
  maxCloneLength : UInt64 := 1024
  /-- The most elements that one comparison visits. -/
  maxComparableItems : UInt64 := 2048
  /-- The most bytes of a stored byte string. -/
  maxItemSize : UInt64 := 1048576
  /-- The most items of one stored value, map keys included. -/
  maxItems : UInt64 := 2048
  /-- How removal from an array reads its index. -/
  removalMode : RemovalMode := .exact
  deriving DecidableEq

namespace Limits

/-- The limits in force where a caller names none. -/
def default : Limits := {}

instance : Inhabited Limits := ⟨default⟩

/-- The same limits with another nesting depth. -/
def withMaxStructDepth (limits : Limits) (depth : UInt64) : Limits :=
  { limits with maxStructDepth := depth }

/-- The same limits with another reading of the index in removals. -/
def withRemovalMode (limits : Limits) (mode : RemovalMode) : Limits :=
  { limits with removalMode := mode }

end Limits

end StackItems
