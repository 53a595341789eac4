/-
Integers as little-endian two's complement byte strings.

`encode n` is the shortest byte string whose sign-extended value is `n`; zero
has no bytes.  `decode` reads a byte string of any width, padded or not.

Design notes: the width is found from the binary logarithm and the digits are
then written at that width, so neither definition searches.
-/
namespace StackItems.TwosComplement

/-- The lowest byte of an integer. -/
def lowByte (n : Int) : UInt8 := UInt8.ofNat (n % 256).toNat

/-- The `w` lowest bytes of an integer, the lowest first. -/
def digits : Nat → Int → List UInt8
  | 0, _ => []
  | w + 1, n => lowByte n :: digits w (n / 256)

/-- The natural number that has the bits of `n` which differ from its sign. -/
def magnitude (n : Int) : Nat := if 0 ≤ n then n.toNat else (-n - 1).toNat

/-- The number of bytes of the shortest form: room for the magnitude and for one
sign bit, and none for zero. -/
def width (n : Int) : Nat :=
  if n = 0 then 0
  else if magnitude n = 0 then 1
  else (Nat.log2 (magnitude n) + 1) / 8 + 1

/-- The shortest two's complement form, the lowest byte first. -/
def encode (n : Int) : List UInt8 := digits (width n) n

/-- The sign-extended value of a byte string, the lowest byte first. -/
def decode : List UInt8 → Int
  | [] => 0
  | [b] => if b.toNat < 128 then b.toNat else b.toNat - 256
  | b :: bs => b.toNat + 256 * decode bs

@[simp] theorem length_digits (w : Nat) (n : Int) : (digits w n).length = w := by
  induction w generalizing n with
  | zero => rfl
  | succ w ih => simp [digits, ih]

@[simp] theorem length_encode (n : Int) : (encode n).length = width n := length_digits ..

theorem toNat_lowByte (n : Int) : ((lowByte n).toNat : Int) = n % 256 := by
  have h : 0 ≤ n % 256 := Int.emod_nonneg n (by decide)
  have h' : n % 256 < 256 := Int.emod_lt_of_pos n (by decide)
  simp only [lowByte, UInt8.toNat_ofNat']
  omega

theorem decode_cons {bs : List UInt8} (b : UInt8) (h : bs ≠ []) :
    decode (b :: bs) = b.toNat + 256 * decode bs := by
  cases bs with
  | nil => exact absurd rfl h
  | cons => rfl

end StackItems.TwosComplement
