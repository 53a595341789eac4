/-
The bytes of integers, and which integers can be stored.

An integer is given as the shortest byte string whose sign-extended value it is, and a stored
integer has at most 32 such bytes.

* `eq_encode_or_lt` — every other byte string with the value of an integer is longer than the
  one that is written for it;
* `width_le_iff` — `w + 1` bytes hold exactly the integers from `-2 ^ (8w + 7)` up to but not
  including `2 ^ (8w + 7)`;
* `integer_storable_iff` — **an integer is stored exactly if it fits into 256 bits with a sign,
  whatever the limits on nesting and on byte strings, and then is read back as it was.**
-/
import Mathlib.Algebra.Order.Ring.Int
import StackItems.Proofs.RoundTrip

namespace StackItems

namespace TwosComplement

variable {n m : Int} {bs : List UInt8} {w : Nat}

/-! ### The shortest bytes -/

/-- The byte string that is written for an integer is shorter than all others with its value. -/
theorem eq_encode_or_lt (value : signExtended bs = n) :
    bs = encode n ∨ (encode n).length < bs.length := by
  have hle : (encode n).length ≤ bs.length := value ▸ length_encode_signExtended_le bs
  rcases Nat.lt_or_eq_of_le hle with hlt | heq
  · exact .inr hlt
  · -- As long as the written one, it is no longer than any other, and there is one shortest.
    have shortest : IsShortest bs := by
      intro bs' same
      rw [← heq, ← value, ← same]
      exact length_encode_signExtended_le bs'
    rw [← isShortest_iff.1 shortest, value]
    exact .inl rfl

theorem encode_injective (h : encode m = encode n) : m = n := by
  rw [← signExtended_encode m, h, signExtended_encode]

/-! ### The range of a width -/

/-- An integer fits into `w + 1` bytes exactly if it has so many bits besides its sign. -/
theorem width_le_iff : width n ≤ w + 1 ↔ -2 ^ (8 * w + 7) ≤ n ∧ n < 2 ^ (8 * w + 7) := by
  constructor
  · intro hw
    cases hv : width n with
    | zero =>
      -- Only zero has no bytes.
      have hnil : encode n = [] := List.length_eq_zero_iff.1 ((length_encode n).trans hv)
      have hzero : n = 0 := by rw [← decode_encode n, hnil, decode]
      have hpos : (0 : Int) < 2 ^ (8 * w + 7) := pow_pos (by decide) _
      omega
    | succ v =>
      obtain ⟨lo, hi⟩ := decode_bounds (encode n) ((length_encode n).trans hv)
      rw [decode_encode] at lo hi
      have hpow : (2 : Int) ^ (8 * v + 7) ≤ 2 ^ (8 * w + 7) := by
        apply pow_le_pow_right₀ (by decide)
        omega
      omega
  · rintro ⟨lo, hi⟩
    have hw := width_decode_le (digits (w + 1) n)
    rwa [decode_digits lo hi, length_digits] at hw

end TwosComplement

namespace Heap

open TwosComplement

variable {limits : Limits} {h store : Heap}

/-! ### Stored integers -/

/-- Where one item may be stored, a primitive is stored unless it is too large. -/
theorem serialize_prim (items : 1 ≤ limits.maxItems.toNat) (p : Primitive) :
    (h.serialize limits (.prim p)).result = match p.storageFault? limits with
      | none => .ok p.encode
      | some fault => .error fault := by
  obtain ⟨k, hk⟩ : ∃ k, limits.maxItems.toNat = k + 1 := ⟨limits.maxItems.toNat - 1, by omega⟩
  rw [serialize_eq, tree, Budgeted.runFrom, hk, treeAt]
  cases hp : p.storageFault? limits with
  | none =>
    have hvisit : visitPrimitive limits p (k + 1) = .ok ((), k) :=
      visitPrimitive_eq_ok_iff.2 ⟨hp, Nat.add_comm ..⟩
    rw [bind_of_ok hvisit]
    rfl
  | some fault =>
    have hvisit : visitPrimitive limits p (k + 1) = .error (.fault fault) := by
      rw [visitPrimitive, bind_of_ok (t := k) rfl, hp]
      rfl
    rw [bind_of_error hvisit]
    rfl

theorem storageFault?_integer (limits : Limits) (n : Int) :
    (Primitive.integer n).storageFault? limits
      = if -2 ^ 255 ≤ n ∧ n ≤ 2 ^ 255 - 1 then none else some (.format .integerTooLarge) := by
  have hwidth := @width_le_iff n 31
  rw [Primitive.storageFault?, maxIntegerSize]
  by_cases hw : width n ≤ 31 + 1
  · have hrange := hwidth.1 hw
    rw [if_neg (Nat.not_lt.2 hw), if_pos (by omega)]
  · have hrange := mt hwidth.2 hw
    rw [if_pos (Nat.lt_of_not_le hw), if_neg (by omega)]

/-- An integer has one shortest form in bytes, none at all for zero, and no other integer has
the same.  It is stored exactly if it lies in the signed range of 256 bits, and is refused as
too large otherwise; what was stored reads back as the same integer. -/
theorem integer_storable_iff (h store : Heap) (n : Int) :
    (∃ bs, (Item.prim (.integer n)).toBytes = .ok bs ∧ signExtended bs = n ∧
        (n = 0 → bs = []) ∧
        ∀ bs', signExtended bs' = n → bs' = bs ∨ bs.length < bs'.length) ∧
      (∀ m, (Item.prim (.integer m)).toBytes = (Item.prim (.integer n)).toBytes → m = n) ∧
      ∀ limits : Limits, 1 ≤ limits.maxItems.toNat →
        ((∃ b, (h.serialize limits (.prim (.integer n))).result = .ok b) ↔
            -2 ^ 255 ≤ n ∧ n ≤ 2 ^ 255 - 1) ∧
          (∀ f, (h.serialize limits (.prim (.integer n))).result = .error f →
            f = .format .integerTooLarge) ∧
          ∀ b, (h.serialize limits (.prim (.integer n))).result = .ok b →
            ∀ limits' : Limits, 1 ≤ limits'.maxItems.toNat →
              (store.deserialize limits' b).result = .ok (.prim (.integer n), store) := by
  refine ⟨⟨encode n, rfl, signExtended_encode n, ?_, fun bs' => eq_encode_or_lt⟩, ?_, ?_⟩
  · rintro rfl
    rfl
  · intro m same
    exact encode_injective (Except.ok.inj same)
  intro limits items
  rw [serialize_prim items, storageFault?_integer]
  by_cases hn : -2 ^ 255 ≤ n ∧ n ≤ 2 ^ 255 - 1
  · rw [if_pos hn]
    refine ⟨⟨fun _ => hn, fun _ => ⟨_, rfl⟩⟩, fun f hf => absurd hf (by simp), ?_⟩
    intro b hb limits' items'
    have small : (Primitive.integer n).storageFault? limits' = none := by
      rw [storageFault?_integer, if_pos hn]
    rw [← Except.ok.inj hb]
    exact deserialize_eq_ok_iff.2 ⟨.prim (.integer n), Tree.form_encode_prim small, items', rfl⟩
  · rw [if_neg hn]
    refine ⟨⟨fun ⟨b, hb⟩ => absurd hb (by simp), fun h => absurd h hn⟩, ?_, ?_⟩
    · intro f hf
      exact (Except.error.inj hf).symm
    · intro b hb
      exact absurd hb (by simp)

/-- The range is not symmetric: of the powers of two at its ends the negative one is stored,
even if no byte strings and no containers may be. -/
theorem integer_storable_ends :
    1 ≤ ({ maxItems := 1, maxItemSize := 0, maxStructDepth := 0 } : Limits).maxItems.toNat ∧
      (∃ b, (empty.serialize { maxItems := 1, maxItemSize := 0, maxStructDepth := 0 }
          (.prim (.integer (-2 ^ 255)))).result = .ok b ∧
        (empty.deserialize .default b).result = .ok (.prim (.integer (-2 ^ 255)), empty)) ∧
      ¬ ∃ b, (empty.serialize { maxItems := 1, maxItemSize := 0, maxStructDepth := 0 }
        (.prim (.integer (2 ^ 255)))).result = .ok b := by
  have items : 1 ≤ ({ maxItems := 1, maxItemSize := 0, maxStructDepth := 0 } :
      Limits).maxItems.toNat := by decide
  obtain ⟨stored, -, back⟩ := (integer_storable_iff empty empty (-2 ^ 255)).2.2 _ items
  obtain ⟨b, hb⟩ := stored.2 (by omega)
  refine ⟨items, ⟨b, hb, back b hb .default (by decide)⟩, ?_⟩
  rw [((integer_storable_iff empty empty (2 ^ 255)).2.2 _ items).1]
  omega

end Heap

end StackItems
