/-
The kinds of stack items and their tag bytes.

An item is a truth value, an integer, a byte string, an array, a struct, a map
or a handle of a host object.  Every kind has a tag byte, which opens its
stored form:

* `ofTag?_eq_some_iff` — reading a tag inverts writing it, so no two kinds
  share a tag.

Design notes: arrays and structs are both sequences and differ only in how they
are copied and compared, so `SeqKind` names the two and the sequence operations
are written once.
-/
namespace StackItems

/-- The two kinds of sequence: an array is shared on copy and compared by
identity, a struct is duplicated on copy and compared by its elements. -/
inductive SeqKind where
  | array
  | struct
  deriving DecidableEq

/-- The kind of a stack item. -/
inductive Kind where
  | boolean
  | integer
  | bytes
  | array
  | struct
  | map
  | interop
  deriving DecidableEq

/-- The kind of an item that holds a sequence. -/
def SeqKind.kind : SeqKind → Kind
  | .array => .array
  | .struct => .struct

namespace Kind

/-- All kinds, in the order of their tags. -/
def all : List Kind := [boolean, integer, bytes, array, struct, map, interop]

/-- The byte that opens the stored form of an item of this kind. -/
def tag : Kind → UInt8
  | boolean => 0x20
  | integer => 0x21
  | bytes => 0x28
  | array => 0x40
  | struct => 0x41
  | map => 0x48
  | interop => 0x60

/-- The kind with the given tag, if there is one. -/
def ofTag? (b : UInt8) : Option Kind := all.find? (·.tag == b)

/-- The name of a kind in messages and documents. -/
def name : Kind → String
  | boolean => "Boolean"
  | integer => "Integer"
  | bytes => "ByteArray"
  | array => "Array"
  | struct => "Struct"
  | map => "Map"
  | interop => "InteropInterface"

/-- The kind with the given name, if there is one. -/
def ofName? (s : String) : Option Kind := all.find? (·.name == s)

/-- Truth values, integers and byte strings hold no handles; exactly these may
be keys of a map. -/
def isPrimitive : Kind → Bool
  | boolean | integer | bytes => true
  | _ => false

/-- Arrays, structs and maps hold other items. -/
def isCompound : Kind → Bool
  | array | struct | map => true
  | _ => false

theorem tag_injective : Function.Injective tag := by
  intro a b
  cases a <;> cases b <;> decide

theorem ofTag?_tag (k : Kind) : ofTag? k.tag = some k := by cases k <;> decide

theorem ofTag?_eq_some_iff {b : UInt8} {k : Kind} : ofTag? b = some k ↔ k.tag = b :=
  ⟨fun h => by simpa using List.find?_some h, fun h => h ▸ ofTag?_tag k⟩

theorem ofName?_name (k : Kind) : ofName? k.name = some k := by cases k <;> decide

end Kind

end StackItems
