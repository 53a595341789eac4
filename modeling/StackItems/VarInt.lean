/-
Lengths of variable width.

A length below `0xFD` is one byte.  A longer one is a marker byte `0xFD`, `0xFE`
or `0xFF` followed by two, four or eight bytes, the lowest first.  Of several
possible forms only the shortest is accepted.

* `encode`, `decode` — the two directions;
* `bytesLE_valueLE` — bytes of fixed width are the only ones with their number.
-/
import StackItems.Fault

namespace StackItems

/-- The `w` lowest bytes of a number, the lowest first. -/
def bytesLE : Nat → Nat → List UInt8
  | 0, _ => []
  | w + 1, n => UInt8.ofNat (n % 256) :: bytesLE w (n / 256)

/-- The number with the given bytes, the lowest first. -/
def valueLE : List UInt8 → Nat
  | [] => 0
  | b :: bs => b.toNat + 256 * valueLE bs

@[simp] theorem length_bytesLE (w n : Nat) : (bytesLE w n).length = w := by
  induction w generalizing n with
  | zero => rfl
  | succ w ih => simp [bytesLE, ih]

theorem bytesLE_valueLE (bs : List UInt8) : bytesLE bs.length (valueLE bs) = bs := by
  induction bs with
  | nil => rfl
  | cons b bs ih =>
    have hb := b.toNat_lt
    have h1 : (b.toNat + 256 * valueLE bs) % 256 = b.toNat := by omega
    have h2 : (b.toNat + 256 * valueLE bs) / 256 = valueLE bs := by omega
    simp [bytesLE, valueLE, h1, h2, ih]

/-- The first `n` bytes of the input and the rest. -/
def takeBytes (n : Nat) (input : List UInt8) : Except FormatFault (List UInt8 × List UInt8) :=
  let (taken, rest) := input.splitAt n
  if taken.length = n then .ok (taken, rest) else .error .unexpectedEnd

namespace VarInt

/-- The form of a length in bytes: after the marker, if there is one, come so
many bytes. -/
def encode (n : Nat) : List UInt8 :=
  if n < 0xFD then [UInt8.ofNat n]
  else if n ≤ 0xFFFF then 0xFD :: bytesLE 2 n
  else if n ≤ 0xFFFFFFFF then 0xFE :: bytesLE 4 n
  else 0xFF :: bytesLE 8 n

/-- What a marker announces: the number of bytes behind it and the least length
that needs so many. -/
def announced? (marker : UInt8) : Option (Nat × Nat) :=
  if marker = 0xFD then some (2, 0xFD)
  else if marker = 0xFE then some (4, 0x10000)
  else if marker = 0xFF then some (8, 0x100000000)
  else none

/-- A length that was read, if it is not larger than `max`. -/
def bounded (max : UInt64) (value : Nat) (rest : List UInt8) :
    Except FormatFault (Nat × List UInt8) :=
  if value ≤ max.toNat then .ok (value, rest) else .error (.lengthTooLarge value max)

/-- Reads a length of at most `max` from the front of the input. -/
def decode (max : UInt64) : List UInt8 → Except FormatFault (Nat × List UInt8)
  | [] => .error .unexpectedEnd
  | b :: input =>
    match announced? b with
    | none => bounded max b.toNat input
    | some (w, least) =>
      match takeBytes w input with
      | .error cause => .error cause
      | .ok (payload, rest) =>
        if valueLE payload < least then .error .nonCanonicalLength
        else bounded max (valueLE payload) rest

end VarInt

end StackItems
