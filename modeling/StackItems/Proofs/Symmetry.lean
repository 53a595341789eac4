/-
The two directions of a comparison.

A comparison of maps goes through the entries of the first one in their order, so the
two directions meet the same pairs in different orders and may stop at different
limits.  If the items are equal, however, every pair is met, and what a comparison
spends on a list of pairs does not depend on their order.

* `settles_all_perm` — the cost of finding all pairs of a list equal, in any order;
* `Settles.turned` — items that are found equal are found equal the other way round, at
  the same cost and nesting;
* `outcome_compareAt_swap` — if no map is involved, the two directions agree in
  everything;
* `compare_symm` — **comparison is reflexive, and symmetric in what it finds equal.**
-/
import StackItems.Proofs.Places
import StackItems.Proofs.SpineWalk

namespace StackItems

/-- A task with all of its pairs turned round. -/
def Task.turned : Task → Task
  | .pair x y => .pair y x
  | .all pairs => .all (pairs.map (Option.map Prod.swap))

/-- The beginning of a comparison with all of its pairs turned round. -/
def Opening.turned : Opening → Opening
  | .told equal => .told equal
  | .entered pairs => .entered (pairs.map (List.map (Option.map Prod.swap)))

namespace Heap

section

variable {h : Heap} {x y : Item} {n d : Nat}

/-! ### Pairs in another order -/

/-- What is spent on pairs that are all equal does not depend on their order. -/
theorem settles_all_perm {pairs pairs' : List (Option (Item × Item))} (perm : pairs.Perm pairs')
    (hs : h.Settles (.all pairs) true n d) : h.Settles (.all pairs') true n d := by
  induction perm generalizing n d with
  | nil => exact hs
  | cons o perm ih =>
    cases hs with
    | next first others => exact .next first (ih others)
  | swap o o' rest =>
    cases hs with
    | @next _ _ _ _ n₁ d₁ _ _ first others =>
      cases others with
      | @next _ _ _ _ n₂ d₂ n₃ d₃ second others =>
        have hboth := Settles.next second (Settles.next first others)
        have hn : 1 + n₂ + (1 + n₁ + n₃) = 1 + n₁ + (1 + n₂ + n₃) := by omega
        have hd : max d₂ (max d₁ d₃) = max d₁ (max d₂ d₃) := by omega
        rwa [hn, hd] at hboth
  | trans _ _ ih ih' => exact ih' (ih hs)

/-! ### Pairs the other way round -/

theorem map_pairAt_swap (l : List Place) :
    l.map (h.pairAt y x) = (l.map (h.pairAt x y)).map (Option.map Prod.swap) := by
  rw [List.map_map]
  exact List.map_congr_left fun p _ => h.pairAt_swap x y p

/-- What is found equal is found equal when all pairs are turned round, at the same
cost. -/
theorem Settles.turned {task : Task} {equal : Bool} (hs : h.Settles task equal n d)
    (he : equal = true) : h.Settles task.turned true n d := by
  induction hs with
  | @told x y _ opens =>
    have hxy : x = y := (eq_iff_of_told opens).1 he
    subst hxy
    exact settles_self_iff.2 ⟨rfl, rfl⟩
  | @entered x y pairs _ n d opens inside ih =>
    subst he
    obtain ⟨hne, same, hx, size, rfl⟩ := entered_some_iff.1 opens
    have hturned : h.Settles (.all ((h.places x).map (h.pairAt y x))) true n d := by
      rw [map_pairAt_swap]
      exact ih rfl
    have perm := places_perm size (mem_places_of_settles inside)
    refine (settles_true_iff hne.symm).2 ⟨same.symm, same ▸ hx, size.symm, d, ?_, rfl⟩
    exact settles_all_perm (perm.map _) hturned
  | sizes opens => exact absurd he (by simp)
  | nil => exact .nil
  | alone rest => exact absurd he (by simp)
  | differ first rest => exact absurd he (by simp)
  | next first others ih ihothers => exact .next (ih rfl) (ihothers he)

/-- Items that are found equal are found equal the other way round. -/
theorem settles_true_comm : h.Settles (.pair x y) true n d ↔ h.Settles (.pair y x) true n d :=
  ⟨fun hs => hs.turned rfl, fun hs => hs.turned rfl⟩

theorem compare_true_comm {limits : Limits} :
    (h.compare limits x y).result = .ok true ↔ (h.compare limits y x).result = .ok true := by
  rw [compare_eq_ok_iff, compare_eq_ok_iff]
  simp only [settles_true_comm (x := x)]

theorem compare_self (h : Heap) (limits : Limits) (x : Item) :
    (h.compare limits x x).result = .ok true := by
  rw [compare_eq_ok_iff]
  exact ⟨0, 0, settles_self_iff.2 ⟨rfl, rfl⟩, Nat.zero_le _, Nat.zero_le _⟩

/-- Equality never fails, and is equality as far as the default limits can tell. -/
theorem equals_eq_ok (h : Heap) (x y : Item) :
    ∃ equal, (h.equals x y).result = .ok equal ∧
      (equal = true ↔ (h.compare .default x y).result = .ok true) := by
  rw [equals]
  cases hrun : (h.compare .default x y).result with
  | error fault => exact ⟨false, rfl, by simp⟩
  | ok equal => exact ⟨equal, hrun, by simp⟩

theorem equals_comm (h : Heap) (x y : Item) : (h.equals x y).result = (h.equals y x).result := by
  obtain ⟨equal, hxy, htrue⟩ := h.equals_eq_ok x y
  obtain ⟨equal', hyx, htrue'⟩ := h.equals_eq_ok y x
  have same : equal = equal' := by
    rw [Bool.eq_iff_iff, htrue, htrue', compare_true_comm]
  rw [hxy, hyx, same]

/-! ### Items without maps -/

/-- No map is met from an item through structs only. -/
def MapFree (h : Heap) (x : Item) : Prop :=
  ∀ (path : List Nat) (c : Item), h.at? Kind.isStruct x path = some c → c.kind ≠ .map

theorem MapFree.contents (free : h.MapFree x) (hx : x.kind.isStruct = true) :
    ∀ a ∈ h.contents x, h.MapFree a := by
  intro a ha path c hc
  obtain ⟨i, hi⟩ := List.getElem?_of_mem ha
  exact free (i :: path) c ((at?_cons_eq_some hx).2 ⟨a, hi, hc⟩)

theorem MapFree.kind_eq_struct (free : h.MapFree x) (hx : x.kind.isCompared = true) :
    x.kind = .struct := by
  have hmap : x.kind ≠ .map := free [] x rfl
  cases hk : x.kind with
  | struct => rfl
  | map => exact absurd hk hmap
  | _ => rw [hk] at hx; exact absurd hx Bool.false_ne_true

theorem opening_swap (free : h.MapFree x) (y : Item) :
    h.opening y x = (h.opening x y).turned := by
  rw [opening_eq, opening_eq]
  by_cases hxy : x = y
  · rw [if_pos hxy, if_pos hxy.symm]
    rfl
  · rw [if_neg hxy, if_neg (Ne.symm hxy)]
    by_cases hk : x.kind = y.kind ∧ x.kind.isCompared = true
    · have hx : x.kind = .struct := free.kind_eq_struct hk.2
      have hy : y.kind = .struct := hk.1.symm.trans hx
      rw [if_pos hk, if_pos ⟨hk.1.symm, by rw [hy]; rfl⟩]
      by_cases size : (h.places x).length = (h.places y).length
      · rw [if_pos size, if_pos size.symm, places_eq_of_structs hx hy size, map_pairAt_swap]
        rfl
      · rw [if_neg size, if_neg (Ne.symm size)]
        rfl
    · have hk' : ¬ (y.kind = x.kind ∧ y.kind.isCompared = true) :=
        fun hk' => hk ⟨hk'.1.symm, hk'.1 ▸ hk'.2⟩
      rw [if_neg hk, if_neg hk']
      rfl

/-- The outcome of comparing a list of pairs is the same the other way round, if this is
so for each of them. -/
theorem outcome_all_swap (limits : Limits) {compare : Item → Item → Nat → Comparison}
    {pairs : List (Option (Item × Item))}
    (each : ∀ a b, some (a, b) ∈ pairs → ∀ n, (compare a b n).outcome = (compare b a n).outcome)
    (n : Nat) (log log' : Array LogRecord) :
    (Comparison.all limits compare id pairs n log).outcome
      = (Comparison.all limits compare id (pairs.map (Option.map Prod.swap)) n log').outcome := by
  induction pairs generalizing n log log' with
  | nil => rfl
  | cons o rest ih =>
    cases n with
    | zero => rfl
    | succ n =>
      cases o with
      | none => rfl
      | some pair =>
        obtain ⟨a, b⟩ := pair
        have hab := each a b (List.mem_cons_self ..) n
        have hrest := ih fun a b hmem => each a b (List.mem_cons_of_mem _ hmem)
        simp only [List.map_cons, Option.map_some, Prod.swap_prod_mk, Comparison.all, id, ← hab]
        cases (compare a b n).outcome with
        | error cause => rfl
        | ok done =>
          obtain ⟨equal, left⟩ := done
          cases equal with
          | false => rfl
          | true => exact hrest left _ _

/-- If no map is met, the two directions have the same outcome within any limits. -/
theorem outcome_compareAt_swap (limits : Limits) (room depth n : Nat) (free : h.MapFree x)
    (y : Item) :
    (h.compareAt limits room depth x y n).outcome
      = (h.compareAt limits room depth y x n).outcome := by
  induction room generalizing depth n x y with
  | zero =>
    rw [compareAt_eq, compareAt_eq, opening_swap free]
    cases h.opening x y <;> rfl
  | succ room ih =>
    rw [compareAt_eq, compareAt_eq, opening_swap free]
    cases hopen : h.opening x y with
    | told equal => rfl
    | entered pairs =>
      cases pairs with
      | none => rfl
      | some pairs =>
        -- What is paired with an element of `x` is met on the way down from `x`.
        apply outcome_all_swap limits
        intro a b hab n
        obtain ⟨hx, hmem⟩ := mem_contents_of_entered hopen
        have hstruct : x.kind.isStruct = true := by
          rw [free.kind_eq_struct hx]
          rfl
        exact ih _ _ (free.contents hstruct a (hmem a b hab)) b

/-! ### Both directions -/

/-- Every item is equal to itself within any limits.  What is found equal in one
direction is found equal in the other, no two answers contradict each other, and if one
of the items has no map in it along its structs the two directions end alike. -/
theorem compare_symm (h : Heap) (x y : Item) (limits : Limits) :
    (h.compare limits x x).result = .ok true ∧
      ((h.compare limits x y).result = .ok true ↔ (h.compare limits y x).result = .ok true) ∧
      (h.equals x y).result = (h.equals y x).result ∧
      (∀ equal equal', (h.compare limits x y).result = .ok equal →
        (h.compare limits y x).result = .ok equal' → equal = equal') ∧
      (h.MapFree x → (h.compare limits x y).result = (h.compare limits y x).result) := by
  refine ⟨h.compare_self limits x, compare_true_comm, h.equals_comm x y, ?_, ?_⟩
  · intro equal equal' hxy hyx
    have htrue : equal = true ↔ equal' = true := by
      have hcomm : (h.compare limits x y).result = .ok true ↔
          (h.compare limits y x).result = .ok true := compare_true_comm
      rw [hxy, hyx] at hcomm
      simpa using hcomm
    exact Bool.eq_iff_iff.2 htrue
  · intro free
    have hswap := outcome_compareAt_swap limits limits.maxStructDepth.toNat 0
      limits.maxComparableItems.toNat free y
    simp only [compare, hswap]
    cases (h.compareAt limits limits.maxStructDepth.toNat 0 y x
      limits.maxComparableItems.toNat).outcome <;> rfl

end

/-- Two maps that hold different values under one key, which comes first in the second
map only. -/
def crossed : Heap where
  maps := #[.ofList [(.integer 1, .prim (.boolean true)), (.integer 2, .prim (.boolean true))],
    .ofList [(.integer 2, .prim (.boolean false)), (.integer 1, .prim (.boolean true))]]

/-- Without maps the one direction is cut off exactly as the other one is.  With maps the
one may find a difference before the other does, which is then cut off, but they still
answer the same where both answer. -/
theorem compare_symm_twins :
    (twins.compare { maxStructDepth := 0 } (.seq ⟨.struct, 1⟩) (.seq ⟨.struct, 0⟩)).result
        = .error (.depthExceeded 0) ∧
      (crossed.compare { maxComparableItems := 1 } (.map ⟨0⟩) (.map ⟨1⟩)).result
        = .error (.itemLimitExceeded 1) ∧
      (crossed.compare { maxComparableItems := 1 } (.map ⟨1⟩) (.map ⟨0⟩)).result = .ok false ∧
      ∀ equal, (crossed.compare .default (.map ⟨1⟩) (.map ⟨0⟩)).result = .ok equal →
        equal = false := by
  have free : twins.MapFree (.seq ⟨.struct, 0⟩) := by
    intro path c hc
    match path, hc with
    | [], hc => injection hc with hc; rw [← hc]; decide
    | [0], hc => injection hc with hc; rw [← hc]; decide
    | 0 :: _ :: _, hc => injection hc
    | (_ + 1) :: _, hc => injection hc
  obtain ⟨-, -, -, -, alike⟩ := compare_symm twins (.seq ⟨.struct, 0⟩) (.seq ⟨.struct, 1⟩)
    { maxStructDepth := 0 }
  obtain ⟨-, -, -, agree, -⟩ := compare_symm crossed (.map ⟨0⟩) (.map ⟨1⟩) .default
  exact ⟨(alike free).symm, rfl, rfl, fun equal hback => (agree false equal rfl hback).symm⟩

end Heap

end StackItems
