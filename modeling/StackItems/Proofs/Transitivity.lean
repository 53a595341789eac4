/-
What two comparisons say about a third.

If one comparison finds `x` and `y` equal and another `y` and `z`, a comparison of `x`
and `z` finds them equal and spends no more than the two together: whatever pair it
meets, at least one of the two has met a pair at the same place.

* `settles_all_trans` — what two containers hold at some places, if each place is
  transitive;
* `Settles.trans` — equal items, with the cost and the nesting;
* `compare_trans` — **what is found equal within two budgets is found equal within
  their sum, and is never found different.**

Design notes: the places at which two maps are compared are listed in the order of the
first one.  The second comparison is reordered to go through the places of `x` before
the two are laid side by side.
-/
import StackItems.Proofs.Symmetry

namespace StackItems.Heap

section

variable {h : Heap} {x y z : Item} {n d n' d' : Nat}

/-- Two items are found equal within a number of visits and a nesting. -/
def EqualWithin (h : Heap) (x y : Item) (n d : Nat) : Prop :=
  ∃ k e, h.Settles (.pair x y) true k e ∧ k ≤ n ∧ e ≤ d

/-- If `x` and `y` are found equal at some places, and so are `y` and `z`, then so are `x`
and `z`, provided that this is so for the items at each of them. -/
theorem settles_all_trans {bound : Nat}
    (inner : ∀ {a b c : Item} {n d n' d' : Nat}, d ≤ bound → h.Settles (.pair a b) true n d →
      h.Settles (.pair b c) true n' d' → h.EqualWithin a c (n + n') (max d d'))
    {l : List Place} (hd : d ≤ bound)
    (hxy : h.Settles (.all (l.map (h.pairAt x y))) true n d)
    (hyz : h.Settles (.all (l.map (h.pairAt y z))) true n' d') :
    ∃ k e, h.Settles (.all (l.map (h.pairAt x z))) true k e ∧ k ≤ n + n' ∧ e ≤ max d d' := by
  induction l generalizing n d n' d' with
  | nil => exact ⟨0, 0, .nil, Nat.zero_le _, Nat.zero_le _⟩
  | cons p l ih =>
    rw [List.map_cons] at hxy hyz ⊢
    cases hab : h.pairAt x y p with
    | none =>
      rw [hab] at hxy
      cases hxy
    | some ab =>
      cases hbc : h.pairAt y z p with
      | none =>
        rw [hbc] at hyz
        cases hyz
      | some bc =>
        obtain ⟨a, b⟩ := ab
        obtain ⟨b', c⟩ := bc
        obtain ⟨ha, hb⟩ := pairAt_eq_some_iff.1 hab
        obtain ⟨hb', hc⟩ := pairAt_eq_some_iff.1 hbc
        -- Both comparisons meet the same item of `y` at this place.
        rw [hb, Option.some_inj] at hb'
        subst hb'
        rw [hab] at hxy
        rw [hbc] at hyz
        rw [pairAt_eq_some_iff.2 ⟨ha, hc⟩]
        cases hxy with
        | @next _ _ _ _ n₁ d₁ m₁ e₁ first others =>
          cases hyz with
          | @next _ _ _ _ n₂ d₂ m₂ e₂ first' others' =>
            obtain ⟨k, e, hac, hk, he⟩ := inner (by omega) first first'
            obtain ⟨k', e', hrest, hk', he'⟩ := ih (by omega) others others'
            exact ⟨1 + k + k', max e e', .next hac hrest, by omega, by omega⟩

/-- Items that are found equal to one and the same item are found equal, at no more than
the two costs together and no deeper than the deeper of the two. -/
theorem Settles.trans (hxy : h.Settles (.pair x y) true n d)
    (hyz : h.Settles (.pair y z) true n' d') : h.EqualWithin x z (n + n') (max d d') := by
  -- The induction is on a bound for the levels that the first comparison enters.
  obtain ⟨bound, hd⟩ : ∃ bound, d ≤ bound := ⟨d, Nat.le_refl d⟩
  induction bound generalizing x y z n d n' d' with
  | zero =>
    have hxy' : x = y := by
      by_contra hne
      obtain ⟨-, -, -, e, -, he⟩ := (settles_true_iff hne).1 hxy
      omega
    subst hxy'
    exact ⟨n', d', hyz, by omega, by omega⟩
  | succ bound ih =>
    by_cases hxy' : x = y
    · subst hxy'
      exact ⟨n', d', hyz, by omega, by omega⟩
    by_cases hyz' : y = z
    · subst hyz'
      exact ⟨n, d, hxy, by omega, by omega⟩
    by_cases hxz : x = z
    · subst hxz
      exact ⟨0, 0, settles_self_iff.2 ⟨rfl, rfl⟩, by omega, by omega⟩
    obtain ⟨same, hx, size, e, inside, he⟩ := (settles_true_iff hxy').1 hxy
    obtain ⟨same', -, size', e', inside', he'⟩ := (settles_true_iff hyz').1 hyz
    -- The places of `y` are those of `x`, so the second comparison may follow those.
    have perm := places_perm size (mem_places_of_settles inside)
    have reordered := settles_all_perm (perm.symm.map (h.pairAt y z)) inside'
    obtain ⟨k, f, hall, hk, hf⟩ :=
      settles_all_trans (fun hd hab hbc => ih hab hbc hd) (show e ≤ bound by omega) inside reordered
    refine ⟨k, f + 1, ?_, hk, by omega⟩
    exact (settles_true_iff hxz).2 ⟨same.trans same', hx, size.trans size', f, hall, rfl⟩

theorem compare_eq_ok_true_iff {limits : Limits} :
    (h.compare limits x y).result = .ok true ↔
      h.EqualWithin x y limits.maxComparableItems.toNat limits.maxStructDepth.toNat :=
  compare_eq_ok_iff

/-! ### Three comparisons -/

/-- If one comparison finds `x` and `y` equal and another `y` and `z`, within one limit of
nesting, then `x` and `z` are found equal within the sum of their budgets.  Whatever the
limits, equal answers for `x` and `y` and for `y` and `z` are never contradicted. -/
theorem compare_trans (h : Heap) (x y z : Item) :
    (∀ (limits : Limits) (n n' : UInt64), n.toNat + n'.toNat < 2 ^ 64 →
      (h.compare { limits with maxComparableItems := n } x y).result = .ok true →
      (h.compare { limits with maxComparableItems := n' } y z).result = .ok true →
      (h.compare { limits with maxComparableItems := n + n' } x z).result = .ok true) ∧
    ∀ limits limits' limits'' : Limits, (h.compare limits x y).result = .ok true →
      (h.compare limits' y z).result = .ok true →
      (h.compare limits'' x z).result ≠ .ok false := by
  constructor
  · intro limits n n' hsum hxy hyz
    obtain ⟨k, d, hxy, hk, hd⟩ := compare_eq_ok_true_iff.1 hxy
    obtain ⟨k', d', hyz, hk', hd'⟩ := compare_eq_ok_true_iff.1 hyz
    obtain ⟨m, e, hxz, hm, he⟩ := hxy.trans hyz
    have htotal : (n + n').toNat = n.toNat + n'.toNat := by
      rw [UInt64.toNat_add, Nat.mod_eq_of_lt hsum]
    refine compare_eq_ok_true_iff.2 ⟨m, e, hxz, ?_, ?_⟩
    · show m ≤ (n + n').toNat
      have hk : k ≤ n.toNat := hk
      have hk' : k' ≤ n'.toNat := hk'
      omega
    · show e ≤ limits.maxStructDepth.toNat
      have hd : d ≤ limits.maxStructDepth.toNat := hd
      have hd' : d' ≤ limits.maxStructDepth.toNat := hd'
      omega
  · intro limits limits' limits'' hxy hyz hxz
    obtain ⟨k, d, hxy, -, -⟩ := compare_eq_ok_true_iff.1 hxy
    obtain ⟨k', d', hyz, -, -⟩ := compare_eq_ok_true_iff.1 hyz
    obtain ⟨m, e, htrue, -, -⟩ := hxy.trans hyz
    obtain ⟨m', e', hfalse, -, -⟩ := compare_eq_ok_iff.1 hxz
    exact absurd (htrue.unique hfalse).1 (by simp)

end

/-- Three maps with the same keys in different orders; the first two hold the same struct
under the one key, and the last two under the other. -/
def chain : Heap where
  structs := #[#[.prim (.boolean true)], #[.prim (.boolean true)],
    #[.prim (.boolean false)], #[.prim (.boolean false)]]
  maps := #[
    .ofList [(.integer 1, .seq ⟨.struct, 0⟩), (.integer 2, .seq ⟨.struct, 2⟩)],
    .ofList [(.integer 2, .seq ⟨.struct, 3⟩), (.integer 1, .seq ⟨.struct, 0⟩)],
    .ofList [(.integer 1, .seq ⟨.struct, 1⟩), (.integer 2, .seq ⟨.struct, 3⟩)]]

/-- The comparison of the first map with the last enters both structs, each of the others
only one: the budget of either is not enough, their sum is. -/
theorem compare_trans_chain :
    (chain.compare { maxComparableItems := 3 } (.map ⟨0⟩) (.map ⟨1⟩)).result = .ok true ∧
      (chain.compare { maxComparableItems := 3 } (.map ⟨1⟩) (.map ⟨2⟩)).result = .ok true ∧
      (chain.compare { maxComparableItems := 3 } (.map ⟨0⟩) (.map ⟨2⟩)).result
        = .error (.itemLimitExceeded 3) ∧
      (chain.compare { maxComparableItems := 3 + 3 } (.map ⟨0⟩) (.map ⟨2⟩)).result = .ok true ∧
      ∀ limits, (chain.compare limits (.map ⟨0⟩) (.map ⟨2⟩)).result ≠ .ok false := by
  obtain ⟨within, never⟩ := compare_trans chain (.map ⟨0⟩) (.map ⟨1⟩) (.map ⟨2⟩)
  have hxy : (chain.compare { maxComparableItems := 3 } (.map ⟨0⟩) (.map ⟨1⟩)).result
      = .ok true := rfl
  have hyz : (chain.compare { maxComparableItems := 3 } (.map ⟨1⟩) (.map ⟨2⟩)).result
      = .ok true := rfl
  have hsum : (3 : UInt64).toNat + (3 : UInt64).toNat < 2 ^ 64 := by decide
  exact ⟨hxy, hyz, rfl, within .default 3 3 hsum hxy hyz,
    fun limits => never _ _ limits hxy hyz⟩

end StackItems.Heap
