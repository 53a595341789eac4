/-
What limits do to a comparison: they cut it off, and do not change its answer.

* `visits`, `nesting` — how many elements a comparison of two items visits and how
  many levels of containers it enters, either of them perhaps without end;
* `settles_of_bounded` — a comparison comes to an answer if the first item has no
  positions beyond some length;
* `compare_cutOff` — a comparison within limits gives an answer exactly if both
  numbers are within the limits, and then the answer is right.

Design notes: the two numbers are read off the comparison without limits, so they
depend on the heap and the items only.
-/
import Mathlib.Data.ENat.Basic
import Mathlib.Data.Set.Finite.Lattice
import StackItems.Proofs.Answer
import StackItems.Proofs.Position

namespace StackItems

/-- The kinds that a comparison enters. -/
def Kind.isCompared : Kind → Bool
  | .struct | .map => true
  | _ => false

open Classical in
/-- The least number with a property, if any number has it. -/
noncomputable def least (P : Nat → Prop) : ℕ∞ := if hP : ∃ n, P n then Nat.find hP else ⊤

theorem least_le_iff {P : Nat → Prop} {k : Nat} : least P ≤ k ↔ ∃ n, P n ∧ n ≤ k := by
  classical
  rw [least]
  split
  · next hP =>
    rw [Nat.cast_le, Nat.find_le_iff]
    constructor
    · rintro ⟨n, hn, hPn⟩
      exact ⟨n, hPn, hn⟩
    · rintro ⟨n, hPn, hn⟩
      exact ⟨n, hn, hPn⟩
  · next hP =>
    constructor
    · intro htop
      exact absurd htop (by simp)
    · rintro ⟨n, hPn, -⟩
      exact absurd ⟨n, hPn⟩ hP

theorem least_ne_top {P : Nat → Prop} {n : Nat} (hn : P n) : least P ≠ ⊤ := by
  have hle : least P ≤ n := least_le_iff.2 ⟨n, hn, Nat.le_refl n⟩
  exact ne_top_of_le_ne_top (ENat.natCast_ne_top n) hle

namespace Heap

/-- The number of elements that a comparison of two items visits. -/
noncomputable def visits (h : Heap) (x y : Item) : ℕ∞ :=
  least fun n => ∃ equal d, h.Settles (.pair x y) equal n d

/-- The number of levels of containers that a comparison of two items enters. -/
noncomputable def nesting (h : Heap) (x y : Item) : ℕ∞ :=
  least fun d => ∃ equal n, h.Settles (.pair x y) equal n d

section

variable {h : Heap} {x y : Item} {limits : Limits}

theorem compare_eq_ok_iff {equal : Bool} :
    (h.compare limits x y).result = .ok equal ↔
      ∃ n d, h.Settles (.pair x y) equal n d ∧ n ≤ limits.maxComparableItems.toNat ∧
        d ≤ limits.maxStructDepth.toNat := by
  have walk := compareAt_eq_ok_iff (h := h) limits limits.maxStructDepth.toNat 0 x y
    limits.maxComparableItems.toNat
  rw [compare]
  constructor
  · intro hrun
    split at hrun
    · next equal' left hout =>
      injection hrun with he
      subst he
      obtain ⟨n, d, hs, hd, hn⟩ := (walk equal' left).1 hout
      exact ⟨n, d, hs, by omega, hd⟩
    · injection hrun
  · rintro ⟨n, d, hs, hn, hd⟩
    have hout := (walk equal (limits.maxComparableItems.toNat - n)).2 ⟨n, d, hs, hd, by omega⟩
    simp only [hout]

theorem settles_within_iff {n d : Nat} :
    (∃ equal n' d', h.Settles (.pair x y) equal n' d' ∧ n' ≤ n ∧ d' ≤ d) ↔
      h.visits x y ≤ n ∧ h.nesting x y ≤ d := by
  rw [visits, nesting, least_le_iff, least_le_iff]
  constructor
  · rintro ⟨equal, n', d', hs, hn, hd⟩
    exact ⟨⟨n', ⟨equal, d', hs⟩, hn⟩, d', ⟨equal, n', hs⟩, hd⟩
  -- The least number of visits and the least nesting belong to one comparison.
  · rintro ⟨⟨n', ⟨equal, d', hs⟩, hn⟩, d'', ⟨equal', n'', hs'⟩, hd⟩
    obtain ⟨-, -, rfl⟩ := hs.unique hs'
    exact ⟨equal, n', d', hs, hn, hd⟩

/-! ### Comparisons that come to an end -/

/-- A list settles if each of its pairs does. -/
theorem settles_all {pairs : List (Option (Item × Item))}
    (each : ∀ a b, some (a, b) ∈ pairs → ∃ equal n d, h.Settles (.pair a b) equal n d) :
    ∃ equal n d, h.Settles (.all pairs) equal n d := by
  induction pairs with
  | nil => exact ⟨_, _, _, .nil⟩
  | cons pair rest ih =>
    cases pair with
    | none => exact ⟨_, _, _, .alone rest⟩
    | some pair =>
      obtain ⟨a, b⟩ := pair
      obtain ⟨equal, n, d, hs⟩ := each a b (List.mem_cons_self ..)
      cases equal with
      | false => exact ⟨_, _, _, .differ hs rest⟩
      | true =>
        obtain ⟨equal', n', d', hs'⟩ := ih fun a b hab => each a b (List.mem_cons_of_mem _ hab)
        exact ⟨_, _, _, .next hs hs'⟩

/-- A comparison enters structs and maps only, and compares what the first of the
two holds. -/
theorem mem_contents_of_entered {pairs : List (Option (Item × Item))}
    (opens : h.opening x y = .entered (some pairs)) :
    x.kind.isCompared = true ∧ ∀ a b, some (a, b) ∈ pairs → a ∈ h.contents x := by
  rcases opening_cases opens with ⟨r, s, rfl, rfl, hr, -, -, hpairs⟩ | ⟨r, s, rfl, rfl, -, hpairs⟩
  · constructor
    · rw [Item.kind, hr]
      rfl
    · split at hpairs
      · injection hpairs with hpairs
        subst hpairs
        intro a b hab
        obtain ⟨⟨a', b'⟩, hmem, heq⟩ := List.mem_map.1 hab
        injection heq with heq
        injection heq with ha hb
        subst ha
        exact (List.of_mem_zip hmem).1
      · injection hpairs
  · constructor
    · rfl
    · split at hpairs
      · injection hpairs with hpairs
        subst hpairs
        intro a b hab
        obtain ⟨entry, hmem, heq⟩ := List.mem_map.1 hab
        obtain ⟨b', -, hpair⟩ := Option.map_eq_some_iff.1 heq
        injection hpair with ha hb
        rw [← ha]
        exact List.mem_map_of_mem hmem
      · injection hpairs

theorem settles_of_bounded {k : Nat}
    (bounded : ∀ path, (h.at? Kind.isCompared x path).isSome → path.length < k) (y : Item) :
    ∃ equal n d, h.Settles (.pair x y) equal n d := by
  induction k generalizing x y with
  | zero => exact absurd (bounded [] rfl) (Nat.not_lt_zero _)
  | succ k ih =>
    cases hopen : h.opening x y with
    | told equal => exact ⟨_, _, _, .told hopen⟩
    | entered pairs =>
      cases pairs with
      | none => exact ⟨_, _, _, .sizes hopen⟩
      | some pairs =>
        obtain ⟨hx, hmem⟩ := mem_contents_of_entered hopen
        obtain ⟨equal, n, d, hs⟩ := settles_all fun a b hab => by
          refine ih (x := a) (fun path hpath => ?_) b
          -- A position in what `x` holds is a position in `x` behind one more index.
          obtain ⟨i, hi⟩ := List.getElem?_of_mem (hmem a b hab)
          have hlen := bounded (i :: path) (by rw [at?_cons_of_follow hx, hi]; exact hpath)
          exact Nat.lt_of_succ_lt_succ hlen
        exact ⟨_, _, _, .entered hopen hs⟩

theorem settles_of_finite
    (finite : {path | (h.at? Kind.isCompared x path).isSome}.Finite) (y : Item) :
    ∃ equal n d, h.Settles (.pair x y) equal n d := by
  obtain ⟨k, hk⟩ := (finite.image List.length).bddAbove
  refine settles_of_bounded (k := k + 1) (fun path hpath => ?_) y
  exact Nat.lt_succ_of_le (hk (Set.mem_image_of_mem _ hpath))

/-! ### Comparisons within limits -/

/-- A comparison gives an answer exactly if its visits and its nesting are within the
limits, every answer is right, and it fails for no other reason than a limit.  Both
numbers are finite if the first item has finitely many positions along structs and
maps. -/
theorem compare_cutOff (h : Heap) (x y : Item) :
    (∀ limits : Limits, (∃ equal, (h.compare limits x y).result = .ok equal) ↔
        h.visits x y ≤ limits.maxComparableItems.toNat ∧
          h.nesting x y ≤ limits.maxStructDepth.toNat) ∧
      (∀ (limits : Limits) (equal : Bool), (h.compare limits x y).result = .ok equal →
        (equal = true ↔ h.Alike x y)) ∧
      (∀ (limits : Limits) (fault : Fault), (h.compare limits x y).result = .error fault →
        fault = .depthExceeded limits.maxStructDepth ∨
          fault = .itemLimitExceeded limits.maxComparableItems) ∧
      ({path | (h.at? Kind.isCompared x path).isSome}.Finite →
        h.visits x y ≠ ⊤ ∧ h.nesting x y ≠ ⊤) := by
  refine ⟨?_, ?_, ?_, ?_⟩
  · intro limits
    rw [← settles_within_iff]
    exact exists_congr fun equal => compare_eq_ok_iff
  · intro limits equal hrun
    obtain ⟨n, d, hs, -, -⟩ := compare_eq_ok_iff.1 hrun
    exact hs.iff_alike
  · intro limits fault hrun
    rw [compare] at hrun
    split at hrun
    · injection hrun
    · next cause hout =>
      injection hrun with hfault
      subst hfault
      cases cause with
      | depth reached => exact .inl rfl
      | budget => exact .inr rfl
  · intro finite
    obtain ⟨equal, n, d, hs⟩ := settles_of_finite finite y
    exact ⟨least_ne_top ⟨equal, d, hs⟩, least_ne_top ⟨equal, n, hs⟩⟩

end

/-- Two structs that hold the same truth value. -/
def twins : Heap := { structs := #[#[.prim (.boolean true)], #[.prim (.boolean true)]] }

/-- Two structs of different storage are found to be equal, and with good reason. -/
theorem compare_cutOff_twins :
    (twins.compare .default (.seq ⟨.struct, 0⟩) (.seq ⟨.struct, 1⟩)).result = .ok true ∧
      twins.Alike (.seq ⟨.struct, 0⟩) (.seq ⟨.struct, 1⟩) ∧
      twins.visits (.seq ⟨.struct, 0⟩) (.seq ⟨.struct, 1⟩) ≠ ⊤ ∧
      twins.nesting (.seq ⟨.struct, 0⟩) (.seq ⟨.struct, 1⟩) ≠ ⊤ := by
  obtain ⟨-, answers, -, ends⟩ := compare_cutOff twins (.seq ⟨.struct, 0⟩) (.seq ⟨.struct, 1⟩)
  have hrun : (twins.compare .default (.seq ⟨.struct, 0⟩) (.seq ⟨.struct, 1⟩)).result
      = .ok true := rfl
  have finite : {path | (twins.at? Kind.isCompared (.seq ⟨.struct, 0⟩) path).isSome}.Finite := by
    refine (Set.finite_singleton [0]).insert [] |>.subset ?_
    intro path hpath
    match path, hpath with
    | [], _ => exact Set.mem_insert ..
    | [0], _ => exact Set.mem_insert_of_mem _ rfl
    | 0 :: _ :: _, hpath => exact absurd hpath Bool.false_ne_true
    | (_ + 1) :: _, hpath => exact absurd hpath Bool.false_ne_true
  exact ⟨hrun, (answers .default true hrun).1 rfl, ends finite⟩

end Heap

end StackItems
