/-
Stack items.

A primitive is a truth value, an integer or a byte string.  An item is a
primitive or a handle: of a sequence, a map or a host object.  Handles are
positions in the tables of a heap, and two handles are equal exactly when they
lead to the same storage.

Design notes: exactly the primitives may be keys of a map, so `Primitive` is
also the type of keys and no separate key type is needed.
-/
import StackItems.Fault
import StackItems.TwosComplement

namespace StackItems

/-- An item without storage of its own; also a key of a map. -/
inductive Primitive where
  | boolean (value : Bool)
  | integer (value : Int)
  | bytes (value : List UInt8)
  deriving BEq, ReflBEq, LawfulBEq

instance : DecidableEq Primitive := instDecidableEqOfLawfulBEq

instance : Inhabited Primitive := ⟨.boolean false⟩

namespace Primitive

/-- The kind of a primitive. -/
def kind : Primitive → Kind
  | boolean _ => .boolean
  | integer _ => .integer
  | bytes _ => .bytes

/-- A primitive as bytes: an integer in its shortest two's complement form, a
truth value as a single byte. -/
def toBytes : Primitive → List UInt8
  | boolean value => [if value then 1 else 0]
  | integer value => TwosComplement.encode value
  | bytes value => value

/-- The integer one. -/
def one : Primitive := integer 1

end Primitive

/-- The handle of a sequence. -/
structure SeqRef where
  kind : SeqKind
  slot : Nat
  deriving DecidableEq

/-- The handle of a map. -/
structure MapRef where
  slot : Nat
  deriving DecidableEq

/-- The handle of a host object. -/
structure HostRef where
  slot : Nat
  deriving DecidableEq

/-- A value on the stack: a primitive, or a handle of shared storage. -/
inductive Item where
  | prim (value : Primitive)
  | seq (ref : SeqRef)
  | map (ref : MapRef)
  | host (ref : HostRef)
  deriving DecidableEq

instance : Inhabited Item := ⟨.prim default⟩

namespace Item

/-- The kind of an item. -/
def kind : Item → Kind
  | prim p => p.kind
  | seq r => r.kind.kind
  | map _ => .map
  | host _ => .interop

/-- The fault of asking an item for something that it cannot give. -/
def noConversion (x : Item) (target : Target) : Fault := .conversion x.kind target

/-- The integer in an item; only an integer has one. -/
def toInteger : Item → Except Fault Int
  | prim (.integer n) => .ok n
  | x => .error (x.noConversion .integer)

/-- The truth value in an item; only a truth value has one. -/
def toBoolean : Item → Except Fault Bool
  | prim (.boolean b) => .ok b
  | x => .error (x.noConversion .boolean)

/-- The bytes of a primitive. -/
def toBytes : Item → Except Fault (List UInt8)
  | prim p => .ok p.toBytes
  | x => .error (x.noConversion .bytes)

/-- An item as a key of a map. -/
def toKey : Item → Except Fault Primitive
  | prim p => .ok p
  | x => .error (.invalidKey x.kind)

/-- The host object behind an item. -/
def toHost : Item → Except Fault HostRef
  | host r => .ok r
  | x => .error (x.noConversion .interface)

/-- An item as a sequence of exactly the given kind. -/
def toSeq (kind : SeqKind) : Item → Except Fault SeqRef
  | seq r => if r.kind = kind then .ok r else .error ((seq r).noConversion kind.target)
  | x => .error (x.noConversion kind.target)

/-- An item as a sequence of either kind; the target only names what was asked
for. -/
def toAnySeq (asked : SeqKind) : Item → Except Fault SeqRef
  | seq r => .ok r
  | x => .error (x.noConversion asked.target)

/-- An item as a map. -/
def toMap : Item → Except Fault MapRef
  | map r => .ok r
  | x => .error (x.noConversion .map)

end Item

end StackItems
