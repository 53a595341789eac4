/-
How much fits into a number of bytes.

* `valueLE_bytesLE` — `w` bytes hold every number below `256 ^ w`;
* `decode_digits` — in two's complement they hold every integer from
  `-2 ^ (8w - 1)` up to but not including `2 ^ (8w - 1)`;
* `decode_encode` — the shortest two's complement form reads back to the integer
  it was written for.
-/
import Mathlib.Tactic.Ring
import StackItems.TwosComplement
import StackItems.VarInt

namespace StackItems

/-! ### Natural numbers -/

theorem valueLE_bytesLE {w n : Nat} (h : n < 256 ^ w) : valueLE (bytesLE w n) = n := by
  induction w generalizing n with
  | zero =>
    rw [pow_zero] at h
    rw [bytesLE, valueLE]
    omega
  | succ w ih =>
    have hn : n / 256 < 256 ^ w := by
      rw [pow_succ] at h
      omega
    rw [bytesLE, valueLE, ih hn, UInt8.toNat_ofNat']
    omega

theorem valueLE_lt (bs : List UInt8) : valueLE bs < 256 ^ bs.length := by
  induction bs with
  | nil => rw [valueLE]; exact Nat.one_pos
  | cons b bs ih =>
    have hb := b.toNat_lt
    rw [valueLE, List.length_cons, pow_succ]
    omega

namespace TwosComplement

/-! ### Integers -/

theorem decode_digits {w : Nat} {n : Int} (lo : -2 ^ (8 * w + 7) ≤ n)
    (hi : n < 2 ^ (8 * w + 7)) : decode (digits (w + 1) n) = n := by
  induction w generalizing n with
  | zero =>
    have h := toNat_lowByte n
    rw [digits, digits, decode]
    split <;> omega
  | succ w ih =>
    have h := toNat_lowByte n
    have hp : (2 : Int) ^ (8 * (w + 1) + 7) = 256 * 2 ^ (8 * w + 7) := by ring
    have ih' := @ih (n / 256) (by omega) (by omega)
    rw [digits, decode_cons _ (by simp [digits]), ih', h]
    omega

theorem magnitude_lt (n : Int) : magnitude n < 2 ^ (Nat.log2 (magnitude n) + 1) :=
  Nat.lt_log2_self

theorem lt_width {n : Int} (h : n ≠ 0) : magnitude n < 2 ^ (8 * (width n - 1) + 7) := by
  by_cases h0 : magnitude n = 0
  · rw [h0]
    exact Nat.two_pow_pos _
  · refine Nat.lt_of_lt_of_le (magnitude_lt n) (Nat.pow_le_pow_right (by decide) ?_)
    simp only [width, h, h0, if_false]
    omega

theorem decode_encode (n : Int) : decode (encode n) = n := by
  by_cases h : n = 0
  · subst h
    rfl
  · obtain ⟨w, hw⟩ : ∃ w, width n = w + 1 := by
      refine ⟨width n - 1, ?_⟩
      have : 0 < width n := by
        simp only [width, h, if_false]
        split <;> omega
      omega
    have hm : (magnitude n : Int) < 2 ^ (8 * w + 7) := by
      have := lt_width h
      rw [hw] at this
      exact_mod_cast this
    rw [encode, hw]
    -- An integer lies between its magnitude and the complement of it.
    apply decode_digits
    · simp only [magnitude] at hm
      split at hm <;> omega
    · simp only [magnitude] at hm
      split at hm <;> omega

end TwosComplement

end StackItems
