/-
Comparisons without limits.

* `opening` — what a comparison of two items does before it compares what they
  hold; `compareAt_eq` — a comparison within limits, by how it begins;
* `Settles` — a comparison that comes to an answer, with the number of elements that
  it visits and the levels of containers that it enters; `Settles.unique` says that
  all three depend on the items alone;
* `compareAt_eq_ok_iff` — a comparison within limits gives an answer exactly if the
  one without limits does and its visits and levels are within the limits.

Design notes: one relation on tasks, a pair or a list of pairs, takes the place of
two relations that call each other.
-/
import StackItems.Equality

namespace StackItems

/-- What a comparison finds when it looks at two items: its answer, or two containers
that it has to enter, with the pairs to compare in them if they are of one size. -/
inductive Opening where
  | told (equal : Bool)
  | entered (pairs : Option (List (Option (Item × Item))))

/-- What is left of a comparison: to compare two items, or the pairs of a list one
after the other; an element without a partner is no pair. -/
inductive Task where
  | pair (x y : Item)
  | all (pairs : List (Option (Item × Item)))

namespace Heap

/-- The pairs that have to be equal for two maps to be equal: the values under every
key of the first one. -/
def mapPairs (h : Heap) (r s : MapRef) : List (Option (Item × Item)) :=
  (h.entries r).toList.map fun entry => ((h.entries s).get? entry.1).map (entry.2, ·)

/-- How a comparison of two items begins. -/
def opening (h : Heap) : Item → Item → Opening
  | .prim p, .prim q => .told (p == q)
  | .host r, .host s => .told (r == s)
  | .seq r, .seq s =>
    if r.kind = .struct ∧ s.kind = .struct then
      if r = s then .told true
      else .entered (if (h.elements r).size = (h.elements s).size
        then some (((h.items r).zip (h.items s)).map some) else none)
    else .told (r == s)
  | .map r, .map s =>
    if r = s then .told true
    else .entered (if (h.entries r).size = (h.entries s).size then some (h.mapPairs r s) else none)
  | _, _ => .told false

/-- What a comparison that is told at once puts on record: that both items are one
struct or one map. -/
def noticed (depth : Nat) : Item → Item → Array LogRecord
  | .seq r, .seq s => if r = s ∧ r.kind = .struct then #[.sameStorage .struct depth] else #[]
  | .map r, .map s => if r = s then #[.sameStorage .map depth] else #[]
  | _, _ => #[]

/-- A comparison that comes to an answer, with its visits to elements and the levels
of containers that it enters. -/
inductive Settles (h : Heap) : Task → (equal : Bool) → (visits levels : Nat) → Prop where
  | told {x y : Item} {equal : Bool} (opens : h.opening x y = .told equal) :
      Settles h (.pair x y) equal 0 0
  | sizes {x y : Item} (opens : h.opening x y = .entered none) : Settles h (.pair x y) false 0 1
  | entered {x y : Item} {pairs : List (Option (Item × Item))} {equal : Bool} {n d : Nat}
      (opens : h.opening x y = .entered (some pairs)) (inside : Settles h (.all pairs) equal n d) :
      Settles h (.pair x y) equal n (d + 1)
  | nil : Settles h (.all []) true 0 0
  | alone (rest : List (Option (Item × Item))) : Settles h (.all (none :: rest)) false 1 0
  | differ {x y : Item} {n d : Nat} (first : Settles h (.pair x y) false n d)
      (rest : List (Option (Item × Item))) : Settles h (.all (some (x, y) :: rest)) false (1 + n) d
  | next {x y : Item} {rest : List (Option (Item × Item))} {equal : Bool} {n d n' d' : Nat}
      (first : Settles h (.pair x y) true n d) (others : Settles h (.all rest) equal n' d') :
      Settles h (.all (some (x, y) :: rest)) equal (1 + n + n') (max d d')

section

variable {h : Heap} {x y : Item} {equal : Bool} {n d : Nat}

theorem settles_told_iff {answer : Bool} (opens : h.opening x y = .told answer) :
    h.Settles (.pair x y) equal n d ↔ equal = answer ∧ n = 0 ∧ d = 0 := by
  constructor
  · intro hs
    cases hs with
    | told opens' => rw [opens] at opens'; injection opens' with he; exact ⟨he.symm, rfl, rfl⟩
    | sizes opens' => rw [opens] at opens'; injection opens'
    | entered opens' inside => rw [opens] at opens'; injection opens'
  · rintro ⟨rfl, rfl, rfl⟩
    exact .told opens

theorem settles_sizes_iff (opens : h.opening x y = .entered none) :
    h.Settles (.pair x y) equal n d ↔ equal = false ∧ n = 0 ∧ d = 1 := by
  constructor
  · intro hs
    cases hs with
    | told opens' => rw [opens] at opens'; injection opens'
    | sizes opens' => exact ⟨rfl, rfl, rfl⟩
    | entered opens' inside => rw [opens] at opens'; injection opens' with ho; injection ho
  · rintro ⟨rfl, rfl, rfl⟩
    exact .sizes opens

theorem settles_entered_iff {pairs : List (Option (Item × Item))}
    (opens : h.opening x y = .entered (some pairs)) :
    h.Settles (.pair x y) equal n d ↔ ∃ d', h.Settles (.all pairs) equal n d' ∧ d = d' + 1 := by
  constructor
  · intro hs
    cases hs with
    | told opens' => rw [opens] at opens'; injection opens'
    | sizes opens' => rw [opens] at opens'; injection opens' with ho; injection ho
    | entered opens' inside =>
      rw [opens] at opens'
      injection opens' with ho
      injection ho with ho
      subst ho
      exact ⟨_, inside, rfl⟩
  · rintro ⟨d', inside, rfl⟩
    exact .entered opens inside

end

/-- There is one answer, and one way to it. -/
theorem Settles.unique {h : Heap} {task : Task} {e e' : Bool} {n n' d d' : Nat}
    (a : h.Settles task e n d) (b : h.Settles task e' n' d') : e = e' ∧ n = n' ∧ d = d' := by
  induction a generalizing e' n' d' with
  | told opens =>
    obtain ⟨rfl, rfl, rfl⟩ := (settles_told_iff opens).1 b
    exact ⟨rfl, rfl, rfl⟩
  | sizes opens =>
    obtain ⟨rfl, rfl, rfl⟩ := (settles_sizes_iff opens).1 b
    exact ⟨rfl, rfl, rfl⟩
  | entered opens inside ih =>
    obtain ⟨d', inside', rfl⟩ := (settles_entered_iff opens).1 b
    obtain ⟨rfl, rfl, rfl⟩ := ih inside'
    exact ⟨rfl, rfl, rfl⟩
  | nil =>
    cases b
    exact ⟨rfl, rfl, rfl⟩
  | alone rest =>
    cases b
    exact ⟨rfl, rfl, rfl⟩
  -- The first pair has one answer, so the two comparisons go on or stop together.
  | differ first rest ih =>
    cases b with
    | differ first' _ =>
      obtain ⟨-, rfl, rfl⟩ := ih first'
      exact ⟨rfl, rfl, rfl⟩
    | next first' others' => exact absurd (ih first').1 (by simp)
  | next first others ih ihothers =>
    cases b with
    | differ first' _ => exact absurd (ih first').1 (by simp)
    | next first' others' =>
      obtain ⟨-, rfl, rfl⟩ := ih first'
      obtain ⟨rfl, rfl, rfl⟩ := ihothers others'
      exact ⟨rfl, rfl, rfl⟩

/-! ### The walk and the relation -/

section

variable {h : Heap} {limits : Limits}

/-- The pairs that a function finds for the elements of a list may be found first. -/
theorem all_map {α : Type} (compare : Item → Item → Nat → Comparison)
    (pair : α → Option (Item × Item)) (l : List α) (n : Nat) (log : Array LogRecord) :
    Comparison.all limits compare id (l.map pair) n log
      = Comparison.all limits compare pair l n log := by
  induction l generalizing n log with
  | nil => rfl
  | cons a l ih =>
    cases n with
    | zero => rfl
    | succ n =>
      rw [List.map_cons, Comparison.all, Comparison.all, id]
      cases pair a with
      | none => rfl
      | some p =>
        obtain ⟨x, y⟩ := p
        simp only [ih]

/-- A comparison, by how it begins. -/
theorem compareAt_eq (limits : Limits) (room depth : Nat) (x y : Item) (n : Nat) :
    h.compareAt limits room depth x y n = match h.opening x y with
      | .told equal => ⟨.ok (equal, n), noticed depth x y⟩
      | .entered pairs => match room, pairs with
        | 0, _ => .stopped limits (.depth depth) #[]
        | _ + 1, none => .settled false n
        | room + 1, some pairs =>
          Comparison.all limits (h.compareAt limits room (depth + 1)) id pairs n #[] := by
  rw [compareAt.eq_def]
  -- Only two sequences or two maps can be entered; the rest is told at once.
  cases x with
  | prim p => cases y <;> rfl
  | host r => cases y <;> rfl
  | seq r =>
    cases y with
    | prim q => rfl
    | host s => rfl
    | map s => rfl
    | seq s =>
      dsimp only [opening, noticed]
      by_cases structs : r.kind = .struct ∧ s.kind = .struct
      · rw [if_pos structs, if_pos structs]
        by_cases same : r = s
        · rw [if_pos same, if_pos same, if_pos ⟨same, structs.1⟩]
          rfl
        · rw [if_neg same, if_neg same]
          cases room with
          | zero => rfl
          | succ room =>
            by_cases size : (h.elements r).size = (h.elements s).size
            · rw [if_pos size]
              dsimp only
              rw [if_pos size, all_map]
            · rw [if_neg size]
              dsimp only
              rw [if_neg size]
      · have told : ¬(r = s ∧ r.kind = .struct) := fun found =>
          structs ⟨found.2, found.1 ▸ found.2⟩
        rw [if_neg structs, if_neg structs, if_neg told]
        rfl
  | map r =>
    cases y with
    | prim q => rfl
    | host s => rfl
    | seq s => rfl
    | map s =>
      dsimp only [opening, noticed]
      by_cases same : r = s
      · rw [if_pos same, if_pos same, if_pos same]
        rfl
      · rw [if_neg same, if_neg same]
        cases room with
        | zero => rfl
        | succ room =>
          by_cases size : (h.entries r).size = (h.entries s).size
          · rw [if_pos size]
            dsimp only
            rw [if_pos size, mapPairs, all_map]
          · rw [if_neg size]
            dsimp only
            rw [if_neg size]

/-- A list of pairs goes on behind its first pair only if that one is equal. -/
theorem all_some_eq_ok_iff {compare : Item → Item → Nat → Comparison} {x y : Item}
    {rest : List (Option (Item × Item))} {n left : Nat} {log : Array LogRecord}
    {equal : Bool} :
    (Comparison.all limits compare id (some (x, y) :: rest) (n + 1) log).outcome
        = .ok (equal, left) ↔
      (compare x y n).outcome = .ok (false, left) ∧ equal = false ∨
        ∃ m, (compare x y n).outcome = .ok (true, m) ∧
          (Comparison.all limits compare id rest m (log ++ (compare x y n).log)).outcome
            = .ok (equal, left) := by
  rw [Comparison.all, id]
  cases hfirst : (compare x y n).outcome with
  | error cause => simp only [hfirst]; simp
  | ok done =>
    obtain ⟨answer, m⟩ := done
    cases answer with
    | false =>
      simp only [hfirst, Except.ok.injEq, Prod.mk.injEq]
      constructor
      · rintro ⟨rfl, rfl⟩
        exact .inl ⟨⟨trivial, rfl⟩, rfl⟩
      · rintro (⟨⟨-, rfl⟩, rfl⟩ | ⟨m', ⟨hfalse, -⟩, -⟩)
        · exact ⟨rfl, rfl⟩
        · exact absurd hfalse (by simp)
    | true =>
      simp only [hfirst, Except.ok.injEq, Prod.mk.injEq]
      constructor
      · intro hrest
        exact .inr ⟨m, ⟨trivial, rfl⟩, hrest⟩
      · rintro (⟨⟨hfalse, -⟩, -⟩ | ⟨m', ⟨-, rfl⟩, hrest⟩)
        · exact absurd hfalse (by simp)
        · exact hrest

/-- The comparison of a list of pairs gives an answer exactly if the list settles
within the budget, provided that this is so for every pair. -/
theorem all_eq_ok_iff (limits : Limits) {compare : Item → Item → Nat → Comparison} {room : Nat}
    (hpair : ∀ x y n equal left, (compare x y n).outcome = .ok (equal, left) ↔
      ∃ k d, h.Settles (.pair x y) equal k d ∧ d ≤ room ∧ n = k + left)
    (pairs : List (Option (Item × Item))) (n : Nat) (log : Array LogRecord) (equal : Bool)
    (left : Nat) :
    (Comparison.all limits compare id pairs n log).outcome = .ok (equal, left) ↔
      ∃ k d, h.Settles (.all pairs) equal k d ∧ d ≤ room ∧ n = k + left := by
  induction pairs generalizing n log with
  | nil =>
    rw [Comparison.all]
    constructor
    · intro hrun
      injection hrun with hrun
      injection hrun with he hn
      subst he hn
      exact ⟨0, 0, .nil, Nat.zero_le _, (Nat.zero_add _).symm⟩
    · rintro ⟨k, d, hs, -, rfl⟩
      cases hs
      rw [Nat.zero_add]
  | cons pair rest ih =>
    cases n with
    -- Every element costs a unit, so without a budget no list but the empty one settles.
    | zero =>
      rw [Comparison.all]
      constructor
      · intro hrun
        injection hrun
      · rintro ⟨k, d, hs, -, hn⟩
        cases hs <;> omega
    | succ n =>
      cases pair with
      | none =>
        rw [Comparison.all, id]
        constructor
        · intro hrun
          injection hrun with hrun
          injection hrun with he hn
          subst he hn
          exact ⟨1, 0, .alone rest, Nat.zero_le _, Nat.add_comm ..⟩
        · rintro ⟨k, d, hs, -, hn⟩
          cases hs
          obtain rfl : n = left := by omega
          rfl
      | some pair =>
        obtain ⟨x, y⟩ := pair
        rw [all_some_eq_ok_iff]
        constructor
        · rintro (⟨hfirst, rfl⟩ | ⟨m, hfirst, hrest⟩)
          · obtain ⟨k, d, hs, hd, rfl⟩ := (hpair x y n false left).1 hfirst
            exact ⟨1 + k, d, .differ hs rest, hd, by omega⟩
          · obtain ⟨k, d, hs, hd, rfl⟩ := (hpair x y n true m).1 hfirst
            obtain ⟨k', d', hs', hd', rfl⟩ := (ih m _).1 hrest
            exact ⟨1 + k + k', max d d', .next hs hs', Nat.max_le.2 ⟨hd, hd'⟩, by omega⟩
        · rintro ⟨k, d, hs, hd, hn⟩
          cases hs with
          | @differ _ _ k _ first _ =>
            exact .inl ⟨(hpair x y n false left).2 ⟨k, d, first, hd, by omega⟩, rfl⟩
          | @next _ _ _ _ k d k' d' first others =>
            obtain ⟨hd, hd'⟩ := Nat.max_le.1 hd
            have hfirst := (hpair x y n true (k' + left)).2 ⟨k, d, first, hd, by omega⟩
            exact .inr ⟨k' + left, hfirst, (ih (k' + left) _).2 ⟨k', d', others, hd', rfl⟩⟩

/-- An answer that is there without a visit, on a level that there is room for. -/
theorem atOnce_eq_ok_iff {room m n left : Nat} (hm : m ≤ room) {answer equal : Bool} :
    (.ok (answer, n) : Except Cutoff (Bool × Nat)) = .ok (equal, left) ↔
      ∃ k d, (equal = answer ∧ k = 0 ∧ d = m) ∧ d ≤ room ∧ n = k + left := by
  rw [Except.ok.injEq, Prod.mk.injEq]
  constructor
  · rintro ⟨rfl, rfl⟩
    exact ⟨0, m, ⟨rfl, rfl, rfl⟩, hm, (Nat.zero_add _).symm⟩
  · rintro ⟨k, d, ⟨rfl, rfl, rfl⟩, -, rfl⟩
    exact ⟨rfl, Nat.zero_add _⟩

/-- A comparison within limits gives an answer exactly if the one without limits
does, and its levels and visits are within the limits. -/
theorem compareAt_eq_ok_iff (limits : Limits) (room depth : Nat) (x y : Item) (n : Nat)
    (equal : Bool) (left : Nat) :
    (h.compareAt limits room depth x y n).outcome = .ok (equal, left) ↔
      ∃ k d, h.Settles (.pair x y) equal k d ∧ d ≤ room ∧ n = k + left := by
  -- The induction is on the levels that there is room for: what is entered has one less.
  induction room generalizing depth x y n equal left with
  | zero =>
    rw [compareAt_eq]
    cases hopen : h.opening x y with
    | told answer =>
      simp only [settles_told_iff hopen]
      exact atOnce_eq_ok_iff (Nat.le_refl 0)
    | entered pairs =>
      constructor
      · intro hrun
        injection hrun
      · rintro ⟨k, d, hs, hd, -⟩
        obtain rfl := Nat.le_zero.1 hd
        cases pairs with
        | none => exact absurd ((settles_sizes_iff hopen).1 hs).2.2 (by simp)
        | some pairs =>
          obtain ⟨d', -, hd'⟩ := (settles_entered_iff hopen).1 hs
          exact absurd hd' (by simp)
  | succ room ih =>
    rw [compareAt_eq]
    cases hopen : h.opening x y with
    | told answer =>
      simp only [settles_told_iff hopen]
      exact atOnce_eq_ok_iff (Nat.zero_le _)
    | entered pairs =>
      cases pairs with
      | none =>
        simp only [settles_sizes_iff hopen]
        exact atOnce_eq_ok_iff (Nat.le_add_left 1 room)
      | some pairs =>
        have hall := all_eq_ok_iff limits (ih (depth + 1)) pairs n #[] equal left
        refine hall.trans ?_
        simp only [settles_entered_iff hopen]
        constructor
        · rintro ⟨k, d, hs, hd, hn⟩
          exact ⟨k, d + 1, ⟨d, hs, rfl⟩, Nat.succ_le_succ hd, hn⟩
        · rintro ⟨k, _, ⟨d, hs, rfl⟩, hd, hn⟩
          exact ⟨k, d, hs, Nat.le_of_succ_le_succ hd, hn⟩

end

end Heap

end StackItems
