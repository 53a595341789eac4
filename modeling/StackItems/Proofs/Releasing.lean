/-
What a release leaves behind, whatever its order.

The handles of a storage are counted: those in storage, those that are to be released, and
those that are kept elsewhere.  A release takes the handles one by one, and empties a container
in front of its last handle.

* `Releases` — a release of handles in any order; `Drops` — the recursive release, in which
  what a container held goes before any other handle;
* `Underway` — what holds after every step: storage is emptied exactly when its last handle
  goes, and nothing else changes; `Underway.next` is the step and `Releases.underway` the run;
* `Released` — what a whole release does: the storage that must be freed is emptied and has no
  handles left, and all other storage is what it was;
* `Releases.released` — every release does just this.

Design notes: no number of handles kept elsewhere occurs.  It is what the handles of a storage
are more than those that are seen, and it never changes.
-/
import Mathlib.Data.List.Flatten
import Mathlib.Tactic.ByContra
import StackItems.Proofs.Position

namespace StackItems

/-! ### Emptied containers -/

namespace Heap

variable {h h' : Heap} {x y : Item}

/-- The container holds nothing; any other item never does. -/
def Vacant (h : Heap) : Item → Prop
  | .seq r => h.elements r = #[]
  | .map r => h.entries r = .empty
  | _ => True

theorem Vacant.contents_eq (v : h.Vacant x) : h.contents x = [] := by
  cases x with
  | prim p => rfl
  | host r => rfl
  | seq r =>
    have v : h.elements r = #[] := v
    rw [contents, items, v]
  | map r =>
    have v : h.entries r = .empty := v
    rw [contents, v]
    rfl

theorem SameAt.vacant (same : h.SameAt h' x) (v : h.Vacant x) : h'.Vacant x := by
  cases x with
  | prim p => trivial
  | host r => trivial
  | seq r => exact Eq.trans same v
  | map r => exact Eq.trans same v

/-- Containers that hold nothing are alike. -/
theorem Vacant.sameAt (hx : x.kind.isCompound = true) (v : h.Vacant x) (v' : h'.Vacant x) :
    h.SameAt h' x := by
  cases x with
  | prim p => trivial
  | host r => exact absurd hx Bool.false_ne_true
  | seq r => exact Eq.trans v' (Eq.symm v)
  | map r => exact Eq.trans v' (Eq.symm v)

/-- A handle that leads nowhere reads as an empty container. -/
theorem vacant_of_not_holds (hx : ¬ h.Holds x) : h.Vacant x := by
  cases x with
  | prim p => trivial
  | host r => trivial
  | seq r =>
    have hx : ¬ r.slot < (h.seqs r.kind).size := hx
    simp [Vacant, elements, Array.getElem?_eq_none (Nat.le_of_not_lt hx)]
  | map r =>
    have hx : ¬ r.slot < h.maps.size := hx
    simp [Vacant, entries, Array.getElem?_eq_none (Nat.le_of_not_lt hx)]

theorem vacant_clearReferences (h : Heap) (x : Item) : (h.clearReferences x).Vacant x := by
  have emptied : ∀ {α : Type} (table : Array α) (i : Nat) (vacant : α),
      (table.setIfInBounds i vacant).getD i vacant = vacant := by
    intro α table i vacant
    rw [Array.getD_eq_getD_getElem?, Array.getElem?_setIfInBounds, if_pos rfl]
    split <;> rfl
  cases x with
  | prim p => trivial
  | host r => trivial
  | seq r =>
    show (h.putSeq r #[]).elements r = #[]
    rw [putSeq, elements, seqs_mapSeqs, if_pos rfl]
    exact emptied ..
  | map r => exact emptied ..

theorem sameAt_clearReferences (h : Heap) (hne : y ≠ x) : h.SameAt (h.clearReferences x) y := by
  cases x with
  | prim p => exact .refl h y
  | host r => exact .refl h y
  | seq r => exact sameAt_putSeq #[] hne
  | map r => exact h.sameAt_putMap .empty hne

theorem holds_clearReferences (h : Heap) (x : Item) :
    (h.clearReferences x).Holds y ↔ h.Holds y := by
  cases x with
  | prim p => exact Iff.rfl
  | host r => exact Iff.rfl
  | seq r => exact h.holds_putSeq r #[]
  | map r => exact h.holds_putMap r .empty

/-- Only containers hold anything, so there is nothing to take out of any other item. -/
theorem clearReferences_of_not_compound (hx : ¬ x.kind.isCompound = true) :
    h.clearReferences x = h ∧ h.contents x = [] := by
  cases x with
  | prim p => exact ⟨rfl, rfl⟩
  | host r => exact ⟨rfl, rfl⟩
  | seq r => exact absurd (isCompound_seq r) hx
  | map r => exact absurd rfl hx

end Heap

/-- A list whose elements all occur in another one, but for those with an empty view, and none
of them twice, shows nothing more often. -/
theorem count_flatMap_le {α β : Type} [DecidableEq α] [DecidableEq β] {as bs : List α}
    (view : α → List β) (distinct : as.Nodup) (among : ∀ a ∈ as, view a ≠ [] → a ∈ bs) (x : β) :
    (as.flatMap view).count x ≤ (bs.flatMap view).count x := by
  induction as generalizing bs with
  | nil => exact Nat.zero_le _
  | cons a as ih =>
    obtain ⟨hnew, distinct⟩ := List.nodup_cons.1 distinct
    rw [List.flatMap_cons, List.count_append]
    by_cases ha : view a = []
    · have hle := ih distinct fun b hb => among b (List.mem_cons_of_mem a hb)
      rw [ha, List.count_nil]
      omega
    · -- Without `a`, the second list still has all the others.
      have hle : (as.flatMap view).count x ≤ ((bs.erase a).flatMap view).count x := by
        refine ih distinct fun b hb hview => ?_
        have hne : b ≠ a := by
          rintro rfl
          exact hnew hb
        exact (List.mem_erase_of_ne hne).2 (among b (List.mem_cons_of_mem a hb) hview)
      have hperm := List.perm_cons_erase (among a (List.mem_cons_self ..) ha)
      have hcount := (hperm.flatMap_right view).count_eq x
      rw [List.flatMap_cons, List.count_append] at hcount
      omega

namespace Counted

variable {c c₀ c' c'' : Counted} {handles todo todo' rest freed : List Item} {x y : Item}

/-! ### Releases in any order -/

/-- The handles that are to be released, and those in storage, are among those that are
counted; what is counted beyond them are handles that are kept elsewhere. -/
def Counts (c : Counted) (handles : List Item) : Prop :=
  ∀ x : Item, x.kind.isCompound = true →
    (handles ++ c.heap.held).count x ≤ c.handles x

/-- Every storage has a handle. -/
def Live (c : Counted) : Prop :=
  ∀ x : Item, x.kind.isCompound = true → c.heap.Holds x → 1 ≤ c.handles x

/-- A release of handles one after the other, whichever is next; what a container held joins
those that are still to be released. -/
inductive Releases : Counted → List Item → Counted → Prop where
  | done (c : Counted) : Releases c [] c
  | next {c c' : Counted} {x : Item} {todo rest todo' : List Item} (pick : todo.Perm (x :: rest))
      (joined : todo'.Perm ((c.detach x).1 ++ rest))
      (onward : Releases ((c.detach x).2.giveUp x) todo' c') : Releases c todo c'

/-- The recursive release of handles: with the last handle of a container goes what it held,
from the first element to the last, and only then the next handle. -/
inductive Drops : Counted → List Item → Counted → Prop where
  | done (c : Counted) : Drops c [] c
  | next {c c₁ c₂ : Counted} {x : Item} {rest : List Item}
      (inside : Drops ((c.detach x).2.giveUp x) (c.detach x).1 c₁) (others : Drops c₁ rest c₂) :
      Drops c (x :: rest) c₂

theorem Releases.perm (a : Releases c todo c') (h : todo'.Perm todo) : Releases c todo' c' := by
  cases a with
  | done =>
    obtain rfl := h.eq_nil
    exact .done c
  | next pick joined onward => exact .next (h.trans pick) joined onward

theorem releases_release (c : Counted) (handles : List Item) :
    Releases c handles (c.release handles) := by
  induction c, handles using release.induct with
  | case1 c =>
    rw [release]
    exact .done c
  | case2 c x rest ih =>
    rw [release]
    exact .next (.refl _) ((List.reverse_perm _).append_right rest) ih

/-- What comes behind may wait until the rest is released. -/
theorem Releases.append (a : Releases c todo c₀) (b : Releases c₀ rest c') :
    Releases c (todo ++ rest) c' := by
  induction a with
  | done => exact b
  | @next c _ x todo rest' todo' pick joined _ ih =>
    refine .next (pick.append_right rest) ?_ (ih b)
    show (todo' ++ rest).Perm ((c.detach x).1 ++ (rest' ++ rest))
    rw [← List.append_assoc]
    exact joined.append_right rest

theorem Drops.releases (a : Drops c handles c') : Releases c handles c' := by
  induction a with
  | done c => exact .done c
  | next _ _ inside others => exact .next (.refl _) (.refl _) (inside.append others)

/-- The recursive release of a list comes to an end. -/
theorem exists_drops (c : Counted) (handles : List Item) :
    ∃ c', Drops c handles c' ∧
      c'.heap.held.length ≤ c.heap.held.length := by
  -- What is to be released and what is in storage grow less with every handle.
  induction hn : handles.length + c.heap.held.length using Nat.strongRecOn
    generalizing c handles with
  | ind n ih =>
    cases handles with
    | nil => exact ⟨c, .done c, Nat.le_refl _⟩
    | cons x rest =>
      have hheld := c.length_held_detach x
      rw [List.length_cons] at hn
      obtain ⟨c₁, inside, hc₁⟩ := ih _ (by simp only [giveUp]; omega)
        ((c.detach x).2.giveUp x) (c.detach x).1 rfl
      simp only [giveUp] at hc₁
      obtain ⟨c₂, others, hc₂⟩ := ih _ (by omega) c₁ rest rfl
      exact ⟨c₂, .next inside others, by omega⟩

/-! ### What holds on the way -/

theorem detach_of_last (last : c.handles x = 1) :
    c.detach x = (c.heap.contents x, { c with heap := c.heap.clearReferences x }) := if_pos last

/-- Nothing is taken out of a container that is still shared, and nothing can be taken out of
any other item. -/
theorem detach_of_not_last (h : x.kind.isCompound = true → c.handles x ≠ 1) :
    c.detach x = ([], c) := by
  by_cases last : c.handles x = 1
  · obtain ⟨hclear, hnil⟩ :=
      Heap.clearReferences_of_not_compound (h := c.heap) fun hx => h hx last
    rw [detach_of_last last, hclear, hnil]
  · exact if_neg last

/-- What holds of a release that has emptied some containers and has handles left to do. -/
structure Underway (c₀ : Counted) (handles freed todo : List Item) (c : Counted) : Prop where
  distinct : freed.Nodup
  due : ∀ y ∈ freed, y.kind.isCompound = true ∧ c₀.Freed handles y
  gone : ∀ y ∈ freed, c.handles y = 0 ∧ c.heap.Vacant y
  holds : ∀ y, c.heap.Holds y ↔ c₀.heap.Holds y
  kept : ∀ y, y ∉ freed → c₀.heap.SameAt c.heap y
  living : ∀ y, y.kind.isCompound = true → y ∉ freed → c.handles y = 0 → c₀.handles y = 0
  /-- What is no longer in storage was held by what was emptied. -/
  held : c₀.heap.held.Perm (c.heap.held ++ freed.flatMap c₀.heap.contents)
  /-- The handles that are kept elsewhere are as many as before. -/
  counted : ∀ y, y.kind.isCompound = true →
    c.handles y + (handles ++ c₀.heap.held).count y
      = c₀.handles y + (todo ++ c.heap.held).count y

namespace Underway

theorem start (c : Counted) (handles : List Item) : Underway c handles [] handles c where
  distinct := .nil
  due _ hy := absurd hy List.not_mem_nil
  gone _ hy := absurd hy List.not_mem_nil
  holds _ := Iff.rfl
  kept y _ := .refl c.heap y
  living _ _ _ h := h
  held := by simp
  counted _ _ := rfl

theorem count_le (u : Underway c₀ handles freed todo c) (counts : c₀.Counts handles)
    (hy : y.kind.isCompound = true) : (todo ++ c.heap.held).count y ≤ c.handles y := by
  have := u.counted y hy
  have := counts y hy
  omega

/-- A container that is still shared loses a handle and stays what it is. -/
theorem next_shared (u : Underway c₀ handles freed todo c) (counts : c₀.Counts handles)
    (pick : todo.Perm (x :: rest)) (joined : todo'.Perm rest)
    (shared : x.kind.isCompound = true → c.handles x ≠ 1) :
    Underway c₀ handles freed todo' (c.giveUp x) where
  distinct := u.distinct
  due := u.due
  holds := u.holds
  kept := u.kept
  held := u.held
  gone y hy := by
    obtain ⟨hzero, vacant⟩ := u.gone y hy
    refine ⟨?_, vacant⟩
    simp only [giveUp, hzero]
    split <;> rfl
  living y hy hnew hzero := by
    refine u.living y hy hnew ?_
    simp only [giveUp] at hzero
    split at hzero
    · next h =>
      subst h
      have := shared hy
      omega
    · exact hzero
  counted y hy := by
    -- The handle that is given up is the one that is no longer listed.
    have hle := u.count_le counts hy
    have hcount := u.counted y hy
    have hpick := pick.count_eq y
    have hjoined := joined.count_eq y
    simp only [giveUp, List.count_append, List.count_cons] at hle hcount hpick ⊢
    by_cases h : y = x
    · subst h
      simp only [if_true, beq_self_eq_true] at hpick ⊢
      omega
    · simp only [h, if_false, beq_iff_eq, Ne.symm h] at hpick ⊢
      omega

/-- A container that loses its last handle must be freed. -/
theorem freed_of_last (u : Underway c₀ handles freed todo c) (counts : c₀.Counts handles)
    (hx : x.kind.isCompound = true) (hmem : x ∈ todo) (last : c.handles x = 1) :
    c₀.Freed handles x := by
  refine .intro freed u.distinct (fun y hy => (u.due y hy).2) ?_
  -- The one handle that is left is to be released, so none is in storage or elsewhere.
  have hpos := List.count_pos_iff.2 hmem
  have hcount := u.counted x hx
  have hle := u.count_le counts hx
  have hseen := counts x hx
  have hheld := u.held.count_eq x
  simp only [List.count_append] at hcount hle hseen hheld ⊢
  omega

/-- A container that loses its last handle is emptied, and what it held is to be released. -/
theorem next_last (u : Underway c₀ handles freed todo c) (counts : c₀.Counts handles)
    (pick : todo.Perm (x :: rest)) (joined : todo'.Perm (c.heap.contents x ++ rest))
    (hx : x.kind.isCompound = true) (last : c.handles x = 1) :
    Underway c₀ handles (x :: freed) todo'
      (giveUp { c with heap := c.heap.clearReferences x } x) := by
  have hnew : x ∉ freed := by
    intro hmem
    have := (u.gone x hmem).1
    omega
  have hcontents : c.heap.contents x = c₀.heap.contents x := (u.kept x hnew).contents_eq
  have hperm := c.heap.held_clearReferences_perm x
  have other : ∀ {y}, y ∈ freed → y ≠ x := fun hy h => hnew (h ▸ hy)
  exact
    { distinct := List.nodup_cons.2 ⟨hnew, u.distinct⟩
      due := by
        intro y hy
        rcases List.mem_cons.1 hy with rfl | hy
        · exact ⟨hx, u.freed_of_last counts hx (pick.mem_iff.2 (List.mem_cons_self ..)) last⟩
        · exact u.due y hy
      gone := by
        intro y hy
        rcases List.mem_cons.1 hy with rfl | hy
        · refine ⟨?_, c.heap.vacant_clearReferences y⟩
          simp only [giveUp, if_true, last]
        · obtain ⟨hzero, vacant⟩ := u.gone y hy
          refine ⟨?_, (c.heap.sameAt_clearReferences (other hy)).vacant vacant⟩
          simp only [giveUp, other hy, if_false, hzero]
      holds := fun y => (c.heap.holds_clearReferences x).trans (u.holds y)
      kept := by
        intro y hy
        obtain ⟨hne, hy⟩ := not_or.1 (mt List.mem_cons.2 hy)
        exact (u.kept y hy).trans (c.heap.sameAt_clearReferences hne)
      living := by
        intro y hcompound hy hzero
        obtain ⟨hne, hy⟩ := not_or.1 (mt List.mem_cons.2 hy)
        simp only [giveUp, hne, if_false] at hzero
        exact u.living y hcompound hy hzero
      held := by
        rw [List.flatMap_cons, ← hcontents]
        refine u.held.trans ?_
        rw [← List.append_assoc]
        exact hperm.symm.append_right _
      counted := by
        -- One handle of `x` goes, and what `x` held is listed instead of stored.
        intro y hy
        have hcount := u.counted y hy
        have hpick := pick.count_eq y
        have hjoined := joined.count_eq y
        have hheld := hperm.count_eq y
        simp only [giveUp, List.count_append, List.count_cons] at hcount hpick hjoined hheld ⊢
        by_cases h : y = x
        · subst h
          simp only [if_true, beq_self_eq_true] at hpick ⊢
          omega
        · simp only [h, if_false, beq_iff_eq, Ne.symm h] at hpick ⊢
          omega }

theorem next (u : Underway c₀ handles freed todo c) (counts : c₀.Counts handles)
    (pick : todo.Perm (x :: rest)) (joined : todo'.Perm ((c.detach x).1 ++ rest)) :
    ∃ freed', Underway c₀ handles freed' todo' ((c.detach x).2.giveUp x) := by
  by_cases h : x.kind.isCompound = true ∧ c.handles x = 1
  · obtain ⟨hx, last⟩ := h
    rw [detach_of_last last] at joined ⊢
    exact ⟨_, u.next_last counts pick joined hx last⟩
  · have shared : x.kind.isCompound = true → c.handles x ≠ 1 := fun hx last => h ⟨hx, last⟩
    rw [detach_of_not_last shared] at joined ⊢
    exact ⟨_, u.next_shared counts pick joined shared⟩

/-- When all is released, a container that must be freed has no handles left. -/
theorem handles_eq_zero (u : Underway c₀ handles freed [] c) (live : c₀.Live)
    (h : c₀.Freed handles x) (hx : x.kind.isCompound = true) : c.handles x = 0 := by
  induction h with
  | @intro x holders distinct _ all ih =>
    -- Every holder that holds anything has been emptied, so what it held has been released.
    have among : ∀ y ∈ holders, c₀.heap.contents y ≠ [] → y ∈ freed := by
      intro y hy hholds
      by_contra hnew
      have hy' : y.kind.isCompound = true := by
        by_contra hy'
        exact hholds (Heap.clearReferences_of_not_compound hy').2
      have hzero := u.living y hy' hnew (ih y hy hy')
      have hnone : ¬ c₀.heap.Holds y := by
        intro hy''
        have := live y hy' hy''
        omega
      exact hholds (Heap.vacant_of_not_holds hnone).contents_eq
    have hle := count_flatMap_le c₀.heap.contents distinct among x
    have hcount := u.counted x hx
    have hheld := u.held.count_eq x
    simp only [List.count_append, List.count_nil] at all hcount hheld
    omega

end Underway

theorem Releases.underway (a : Releases c todo c') (counts : c₀.Counts handles)
    (u : Underway c₀ handles freed todo c) : ∃ freed', Underway c₀ handles freed' [] c' := by
  induction a generalizing freed with
  | done => exact ⟨freed, u⟩
  | next pick joined _ ih =>
    obtain ⟨freed', u'⟩ := u.next counts pick joined
    exact ih u'

/-! ### What a release does -/

/-- What a release of handles makes of a heap. -/
structure Released (c : Counted) (handles : List Item) (c' : Counted) : Prop where
  holds : ∀ x, c'.heap.Holds x ↔ c.heap.Holds x
  /-- The storage that must be freed is the storage that has no handles left. -/
  freed_iff : ∀ x : Item, x.kind.isCompound = true → c.heap.Holds x →
    (c.Freed handles x ↔ c'.handles x = 0)
  emptied : ∀ x : Item, x.kind.isCompound = true → c.Freed handles x → c'.heap.Vacant x
  kept : ∀ x : Item, (x.kind.isCompound = true → 1 ≤ c'.handles x) → c.heap.SameAt c'.heap x
  /-- The handles that are gone are those of the list and of what is freed. -/
  counted : ∀ x : Item, x.kind.isCompound = true →
    c'.handles x + (handles ++ c.heap.held).count x = c.handles x + c'.heap.held.count x

theorem Underway.released (u : Underway c handles freed [] c') (live : c.Live) :
    Released c handles c' where
  holds := u.holds
  counted := u.counted
  freed_iff x hx hheld := by
    refine ⟨fun h => u.handles_eq_zero live h hx, fun hzero => ?_⟩
    by_contra hnot
    have hnew : x ∉ freed := fun hmem => hnot (u.due x hmem).2
    have := u.living x hx hnew hzero
    have := live x hx hheld
    omega
  emptied x hx h := by
    by_cases hmem : x ∈ freed
    · exact (u.gone x hmem).2
    · have hzero := u.living x hx hmem (u.handles_eq_zero live h hx)
      refine (u.kept x hmem).vacant (Heap.vacant_of_not_holds fun hheld => ?_)
      have := live x hx hheld
      omega
  kept x hpos := by
    refine u.kept x fun hmem => ?_
    have := hpos (u.due x hmem).1
    have := (u.gone x hmem).1
    omega

/-- **The order of a release does not matter.** -/
theorem Releases.released (a : Releases c handles c') (counts : c.Counts handles)
    (live : c.Live) : Released c handles c' := by
  obtain ⟨freed, u⟩ := a.underway counts (.start c handles)
  exact u.released live

/-- What a release does determines the heap that it leaves behind. -/
theorem Released.heap_eq (a : Released c handles c') (b : Released c handles c'') :
    c'.heap = c''.heap := by
  have same : ∀ x, c.heap.Holds x → c'.heap.SameAt c''.heap x := by
    intro x hheld
    by_cases h : x.kind.isCompound = true ∧ c.Freed handles x
    · exact (a.emptied x h.1 h.2).sameAt h.1 (b.emptied x h.1 h.2)
    · -- What is not freed has a handle left in both.
      have living : ∀ d, Released c handles d → x.kind.isCompound = true → 1 ≤ d.handles x := by
        intro d r hx
        have := mt (r.freed_iff x hx hheld).2 fun hfreed => h ⟨hx, hfreed⟩
        omega
      exact (a.kept x (living c' a)).symm.trans (b.kept x (living c'' b))
  refine Heap.Extends.antisymm ⟨?_, ?_⟩ ⟨?_, ?_⟩
  · exact fun x hx => (b.holds x).2 ((a.holds x).1 hx)
  · exact fun x hx => same x ((a.holds x).1 hx)
  · exact fun x hx => (a.holds x).2 ((b.holds x).1 hx)
  · exact fun x hx => (same x ((b.holds x).1 hx)).symm

theorem Released.handles_eq (a : Released c handles c') (b : Released c handles c'')
    (hx : x.kind.isCompound = true) : c'.handles x = c''.handles x := by
  have ha := a.counted x hx
  have hb := b.counted x hx
  rw [a.heap_eq b] at ha
  omega

end Counted

end StackItems
