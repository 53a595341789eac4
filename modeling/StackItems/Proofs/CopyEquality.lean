/-
Whether a copy equals its struct.

A copy has the spine of its struct and holds the same items where the spine ends.  A
comparison of the two therefore goes along the spine and no further: it visits no more
elements than the copy has visited children, and enters no struct deeper than the copy
has.  What lies behind an array or a map is met on both sides as one and the same item.

* `answers_of_spine` — two items of one spine are equal, and the spine bounds the
  comparison;
* `compare_cloneStruct` — **a copy that succeeds equals its struct in both directions
  within the same limits, if the budget for comparing is not below the one for copying.**
-/
import StackItems.Proofs.StoredEquality
import StackItems.Proofs.Transitivity

namespace StackItems.Heap

open StackItems.Spine (Fits)

section

variable {h h' : Heap} {x y c : Item} {s : Spine} {limits : Limits}

theorem HasSpine.node_eq (a : h.HasSpine x s) (b : h.HasSpine y s) : h.node x = h.node y :=
  (isBisimulation_spine h).node_eq (.inr ⟨s, a, b⟩)

/-- Two items of one spine are equal.  A comparison visits no more elements than the spine
has children, and enters no more levels than the spine was allowed to have. -/
theorem answers_of_spine {depth : Nat} (hx : h.HasSpine x s) (hy : h.HasSpine y s)
    (fits : Fits limits depth s) :
    h.Answers (.pair x y) True s.children (limits.maxStructDepth.toNat - depth) := by
  induction hx generalizing y depth with
  | @leaf x other =>
    cases hy
    exact ⟨true, 0, 0, settles_self_iff.2 ⟨rfl, rfl⟩, by simp, Nat.zero_le _, Nat.zero_le _⟩
  | @struct slot children size each ih =>
    by_cases hxy : Item.seq ⟨.struct, slot⟩ = y
    · subst hxy
      exact ⟨true, 0, 0, settles_self_iff.2 ⟨rfl, rfl⟩, by simp, Nat.zero_le _, Nat.zero_le _⟩
    have hnode := (HasSpine.struct size each).node_eq hy
    cases hy with
    | @struct slot' _ size' each' =>
      cases fits with
      | struct room below =>
        have inside : h.Answers
            (.all (((h.items ⟨.struct, slot⟩).zip (h.items ⟨.struct, slot'⟩)).map some)) True
            (Spine.childrenAll children) (limits.maxStructDepth.toNat - (depth + 1)) := by
          have total_cons : ∀ t ts, Spine.childrenAll (t :: ts)
              = 1 + Spine.children t + Spine.childrenAll ts := fun _ _ => rfl
          have inside := answers_all (h := h) (P := fun _ => True) total_cons size size'
            fun i a b t ha hb ht =>
              ih i a t ha ht (each' i b t hb ht) (below t (List.mem_of_getElem? ht))
          simpa using inside
        have entered := Answers.entered hxy hnode rfl inside
        rw [Spine.children]
        exact entered.mono (Nat.le_refl _) (by omega)

/-- Items of one spine are found equal within limits that allowed to read the spine. -/
theorem compare_of_spine (hx : h.HasSpine x s) (hy : h.HasSpine y s) (fits : Fits limits 0 s)
    (budget : s.children ≤ limits.maxComparableItems.toNat) :
    (h.compare limits x y).result = .ok true := by
  obtain ⟨equal, k, e, hs, hequal, hk, he⟩ := answers_of_spine hx hy fits
  rw [hequal.2 trivial] at hs
  exact compare_eq_ok_iff.2 ⟨k, e, hs, by omega, by omega⟩

/-! ### Copies -/

/-- A copy that succeeds and its struct are found equal in both directions, within the
limits of the copy, if the budget of a comparison is not below the one of a copy.  Under
the default limits this is so, and the two are equal. -/
theorem compare_cloneStruct (closed : h.Closed) {slot : Nat}
    (held : h.Holds (.seq ⟨.struct, slot⟩)) :
    (∀ (limits : Limits) (c : Item) (h' : Heap),
        limits.maxCloneLength ≤ limits.maxComparableItems →
        (h.cloneStruct limits ⟨.struct, slot⟩).result = .ok (c, h') →
        (h'.compare limits (.seq ⟨.struct, slot⟩) c).result = .ok true ∧
          (h'.compare limits c (.seq ⟨.struct, slot⟩)).result = .ok true) ∧
      ∀ (c : Item) (h' : Heap), (h.cloneStruct .default ⟨.struct, slot⟩).result = .ok (c, h') →
        (h'.equals (.seq ⟨.struct, slot⟩) c).result = .ok true ∧
          (h'.equals c (.seq ⟨.struct, slot⟩)).result = .ok true := by
  have within : ∀ (limits : Limits) (c : Item) (h' : Heap),
      limits.maxCloneLength ≤ limits.maxComparableItems →
      (h.cloneStruct limits ⟨.struct, slot⟩).result = .ok (c, h') →
      (h'.compare limits (.seq ⟨.struct, slot⟩) c).result = .ok true := by
    intro limits c h' budget hclone
    obtain ⟨s, hsource, hcopy, -, fits, hcount⟩ := exists_spine_of_cloneStruct closed held hclone
    have budget : limits.maxCloneLength.toNat ≤ limits.maxComparableItems.toNat := budget
    exact compare_of_spine hsource hcopy fits (by omega)
  constructor
  · intro limits c h' budget hclone
    have equal := within limits c h' budget hclone
    exact ⟨equal, compare_true_comm.1 equal⟩
  · intro c h' hclone
    have hcompare := within .default c h' (by decide) hclone
    obtain ⟨equal, hequals, htrue⟩ := h'.equals_eq_ok (.seq ⟨.struct, slot⟩) c
    rw [htrue.2 hcompare] at hequals
    exact ⟨hequals, by rw [equals_comm, hequals]⟩

end

/-- A struct that holds another one twice, and an array, equals its copy within the least
limits that allow to copy it; were the budget for comparing one less, it would not
suffice. -/
theorem compare_cloneStruct_doubled :
    ∃ c g, (doubled.cloneStruct { maxStructDepth := 2, maxCloneLength := 5 } ⟨.struct, 1⟩).result
        = .ok (c, g) ∧
      (g.compare { maxStructDepth := 2, maxCloneLength := 5, maxComparableItems := 5 }
        (.seq ⟨.struct, 1⟩) c).result = .ok true ∧
      (g.compare { maxStructDepth := 2, maxCloneLength := 5, maxComparableItems := 4 }
        (.seq ⟨.struct, 1⟩) c).result = .error (.itemLimitExceeded 4) ∧
      (g.equals c (.seq ⟨.struct, 1⟩)).result = .ok true := by
  have held : doubled.Holds (.seq ⟨.struct, 1⟩) := (by decide : 1 < 2)
  obtain ⟨within, always⟩ := compare_cloneStruct closed_doubled held
  have hclone : (doubled.cloneStruct
      { maxStructDepth := 2, maxCloneLength := 5, maxComparableItems := 5 }
      ⟨.struct, 1⟩).result = .ok _ := rfl
  obtain ⟨equal, -⟩ := within _ _ _ (by decide) hclone
  obtain ⟨-, back⟩ := always _ _ (rfl : (doubled.cloneStruct .default ⟨.struct, 1⟩).result = .ok _)
  exact ⟨_, _, rfl, equal, rfl, back⟩

end StackItems.Heap
