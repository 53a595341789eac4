/-
The signed value of a byte string.

`signExtended` says what a little-endian byte string of any width stands for: the
unsigned number, less `256 ^ width` if the highest bit is set.

* `decode_eq_signExtended` — reading two's complement gives this value;
* `width_decode_le` — no byte string is shorter than the shortest form of its
  value;
* `isShortest_iff` — the shortest byte string with a value is the one that `encode`
  writes, and there is no second one.
-/
import StackItems.ByteWidth

namespace StackItems.TwosComplement

/-- The sign-extended value of a byte string, the lowest byte first; no bytes
stand for zero. -/
def signExtended (bs : List UInt8) : Int :=
  valueLE bs - if 128 ≤ (bs.getLastD 0).toNat then 256 ^ bs.length else 0

theorem decode_eq_signExtended (bs : List UInt8) : decode bs = signExtended bs := by
  induction bs with
  | nil => rfl
  | cons b bs ih =>
    cases bs with
    | nil =>
      have hb := b.toNat_lt
      rw [decode, signExtended, valueLE, valueLE, List.getLastD_cons, List.getLastD_nil,
        List.length_singleton]
      split
      · next h => rw [if_neg (by omega)]; omega
      · next h => rw [if_pos (by omega)]; omega
    | cons c cs =>
      have hp : (256 : Int) ^ (b :: c :: cs).length = 256 * 256 ^ (c :: cs).length := by
        rw [List.length_cons, pow_succ, mul_comm]
      have hlast : (b :: c :: cs).getLastD 0 = (c :: cs).getLastD 0 := by
        rw [List.getLastD_cons, List.getLastD_cons, List.getLastD_cons]
      have hv : valueLE (b :: c :: cs) = b.toNat + 256 * valueLE (c :: cs) := rfl
      rw [decode_cons b (by simp), ih, signExtended, signExtended, hlast, hp, hv]
      push_cast
      split <;> omega

theorem signExtended_encode (n : Int) : signExtended (encode n) = n := by
  rw [← decode_eq_signExtended, decode_encode]

/-- A byte string of width `w + 1` holds an integer of so many bits and a sign. -/
theorem decode_bounds (bs : List UInt8) {w : Nat} (h : bs.length = w + 1) :
    -2 ^ (8 * w + 7) ≤ decode bs ∧ decode bs < 2 ^ (8 * w + 7) := by
  induction bs generalizing w with
  | nil => exact absurd h (by simp)
  | cons b bs ih =>
    have hb := b.toNat_lt
    cases bs with
    | nil =>
      obtain rfl : w = 0 := by simpa using h.symm
      rw [decode]
      split <;> constructor <;> omega
    | cons c cs =>
      obtain ⟨w, rfl⟩ : ∃ w', w = w' + 1 := ⟨w - 1, by simp at h; omega⟩
      have hp : (2 : Int) ^ (8 * (w + 1) + 7) = 256 * 2 ^ (8 * w + 7) := by ring
      obtain ⟨lo, hi⟩ := ih (w := w) (by simpa using h)
      rw [decode_cons b (by simp), hp]
      constructor <;> omega

theorem magnitude_lt_of_bounds {n : Int} {k : Nat} (lo : -2 ^ k ≤ n) (hi : n < 2 ^ k) :
    magnitude n < 2 ^ k := by
  have h : (magnitude n : Int) < 2 ^ k := by
    rw [magnitude]
    split <;> omega
  exact_mod_cast h

/-- No byte string is shorter than the shortest form of its value. -/
theorem width_decode_le (bs : List UInt8) : width (decode bs) ≤ bs.length := by
  cases hl : bs.length with
  | zero =>
    obtain rfl := List.length_eq_zero_iff.1 hl
    exact Nat.le_refl 0
  | succ w =>
    obtain ⟨lo, hi⟩ := decode_bounds bs hl
    have hm := magnitude_lt_of_bounds lo hi
    rw [width]
    split
    · exact Nat.zero_le _
    · split
      · omega
      · next hm0 =>
        have hlog := (Nat.log2_lt hm0).2 hm
        omega

/-! ### The shortest form -/

/-- No shorter byte string has the same value. -/
def IsShortest (bs : List UInt8) : Prop :=
  ∀ bs' : List UInt8, signExtended bs' = signExtended bs → bs.length ≤ bs'.length

theorem lowByte_eq_of_emod {n : Int} {b : UInt8} (h : n % 256 = b.toNat) : lowByte n = b := by
  have hlow := toNat_lowByte n
  rw [← UInt8.toNat_inj]
  omega

/-- A byte string is found again from its length and its value. -/
theorem digits_decode (bs : List UInt8) : digits bs.length (decode bs) = bs := by
  induction bs with
  | nil => rfl
  | cons b bs ih =>
    have hb := b.toNat_lt
    rw [List.length_cons, digits]
    by_cases hbs : bs = []
    · subst hbs
      have hlow : decode [b] % 256 = b.toNat := by
        rw [decode]
        split <;> omega
      rw [lowByte_eq_of_emod hlow]
      rfl
    · have hvalue := decode_cons b hbs
      have hlow : decode (b :: bs) % 256 = b.toNat := by omega
      have hhigh : decode (b :: bs) / 256 = decode bs := by omega
      rw [lowByte_eq_of_emod hlow, hhigh, ih]

/-- No byte string is shorter than the one that is written for its value. -/
theorem length_encode_signExtended_le (bs : List UInt8) :
    (encode (signExtended bs)).length ≤ bs.length := by
  rw [length_encode, ← decode_eq_signExtended]
  exact width_decode_le bs

/-- Of the byte strings with one value, the shortest is the one that is written for it. -/
theorem isShortest_iff {bs : List UInt8} : IsShortest bs ↔ encode (signExtended bs) = bs := by
  constructor
  · intro shortest
    have hle : bs.length ≤ (encode (signExtended bs)).length :=
      shortest _ (signExtended_encode _)
    have hge := length_encode_signExtended_le bs
    rw [length_encode] at hle hge
    have hw : width (signExtended bs) = bs.length := by omega
    rw [encode, hw, ← decode_eq_signExtended, digits_decode]
  · intro written bs' same
    have hle := length_encode_signExtended_le bs'
    rw [same, written] at hle
    exact hle

end StackItems.TwosComplement
