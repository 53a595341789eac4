/-
The faults that operations on stack items end in.

A fault says what went wrong; `Fault.message` is the only place where a fault is
put into words.  `Fault.isLimit` picks out the faults that come from a nesting
depth or an element budget, as opposed to a misused item or malformed data.
-/
import StackItems.Kind

namespace StackItems

/-- What a conversion was asked to give. -/
inductive Target where
  | integer
  | boolean
  | bytes
  | interface
  | array
  | struct
  | map
  /-- A host object of the named type. -/
  | named (type : String)
  deriving DecidableEq

/-- A target in the words of a message. -/
def Target.text : Target → String
  | integer => "integer"
  | boolean => "boolean"
  | bytes => "byte array"
  | interface => "interface"
  | array => "array"
  | struct => "struct"
  | map => "map"
  | named type => type

/-- The target of taking an item for a sequence of the given kind. -/
def SeqKind.target : SeqKind → Target
  | .array => .array
  | .struct => .struct

/-- Two lower-case hexadecimal digits. -/
def hexByte (b : UInt8) : String :=
  String.ofList [Nat.digitChar (b.toNat / 16), Nat.digitChar (b.toNat % 16)]

/-- Why stored data is malformed, or why an item has no stored form. -/
inductive FormatFault where
  | unknownTag (tag : UInt8)
  | invalidBoolean (byte : UInt8)
  | unexpectedEnd
  | nonCanonicalLength
  | lengthTooLarge (value : Nat) (max : UInt64)
  | duplicateKey
  | trailingBytes (count : Nat)
  | integerTooLarge
  | bytesTooLarge
  /-- A cause that is given in words. -/
  | described (text : String)
  deriving DecidableEq

/-- A cause in the words of a message. -/
def FormatFault.text : FormatFault → String
  | unknownTag tag => "unknown stack item type 0x" ++ hexByte tag
  | invalidBoolean byte => "invalid boolean byte 0x" ++ hexByte byte
  | unexpectedEnd => "unexpected end of data"
  | nonCanonicalLength => "non-canonical var int"
  | lengthTooLarge value max => "var int " ++ toString value ++ " exceeds " ++ toString max
  | duplicateKey => "duplicate map key"
  | trailingBytes count => toString count ++ " trailing bytes after stack item"
  | integerTooLarge => "integer too large"
  | bytesTooLarge => "byte array too large"
  | described text => text

/-- Why an operation on stack items failed. -/
inductive Fault where
  /-- An item of this kind cannot be taken for the target. -/
  | conversion (source : Kind) (target : Target)
  /-- A walk met a container at the limit of nesting. -/
  | depthExceeded (limit : UInt64)
  /-- An index lies outside a sequence of the given length. -/
  | indexOutOfRange (index len : Nat)
  /-- An item of this kind cannot be a key of a map. -/
  | invalidKey (kind : Kind)
  /-- A walk met more items than its budget. -/
  | itemLimitExceeded (limit : UInt64)
  /-- An item of this kind has no stored form. -/
  | unsupported (kind : Kind)
  /-- Stored data is malformed, or a value has no stored form. -/
  | format (cause : FormatFault)
  deriving DecidableEq

namespace Fault

/-- A fault in words. -/
def message : Fault → String
  | conversion source target => "Not support " ++ source.name ++ " to " ++ target.text
  | depthExceeded limit => "Over max struct depth: " ++ toString limit
  | indexOutOfRange index len =>
    "Index out of range: " ++ toString index ++ " (len " ++ toString len ++ ")"
  | invalidKey kind => kind.name ++ " cannot be used as a map key"
  | itemLimitExceeded limit => "Over max item count: " ++ toString limit
  | unsupported kind => "Unsupported stack item type for serialization: " ++ kind.name
  | format cause => "Format error: " ++ cause.text

/-- Whether a fault comes from a nesting depth or an element budget. -/
def isLimit : Fault → Bool
  | depthExceeded _ | itemLimitExceeded _ => true
  | _ => false

end Fault

end StackItems
