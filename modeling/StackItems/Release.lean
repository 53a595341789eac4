/-
Release of storage.

The storage of a container lasts as long as a handle leads to it.  When its last
handle goes, the handles that it holds go too, and so on; a list of what is still
to be released takes the place of a walk as deep as the nesting.

* `Counted.release` — the release of a list of handles;
* `Counted.turn` — one turn of the same, with what happens where a handle is dropped;
* `Counted.Freed` — the storage that a release must free;
* `held_clearReferences_perm` — emptying a container moves its contents out of
  the heap, which is why a release ends.

Design notes: storage that is freed is emptied, and stays in its table.  A
container is emptied before its last handle goes, so nothing is left in it for
whoever frees the storage.
-/
import StackItems.Sequence

namespace StackItems

namespace Heap

/-- What a container holds; any other item holds nothing. -/
def contents (h : Heap) : Item → List Item
  | .seq r => h.items r
  | .map r => (h.entries r).values
  | _ => []

/-- What the containers of a heap hold, one after the other. -/
def held (h : Heap) : List Item :=
  h.arrays.toList.flatMap Array.toList ++ h.structs.toList.flatMap Array.toList
    ++ h.maps.toList.flatMap Entries.values

/-! ### Emptying a container -/

/-- Emptying one place of a table takes away what it holds. -/
theorem flatMap_set_perm {α : Type} (view : α → List Item) (vacant : α)
    (hv : view vacant = []) (table : Array α) (i : Nat) :
    ((table.setIfInBounds i vacant).toList.flatMap view ++ view (table.getD i vacant)).Perm
      (table.toList.flatMap view) := by
  rw [Array.toList_setIfInBounds, Array.getD_eq_getD_getElem?, ← Array.getElem?_toList]
  induction table.toList generalizing i with
  | nil => simp [hv]
  | cons a table ih =>
    cases i with
    | zero => simpa [hv] using List.perm_append_comm
    | succ i => simpa [List.append_assoc] using (ih i).append_left (view a)

/-- Emptying a container moves what it holds out of the heap. -/
theorem held_clearReferences_perm (h : Heap) (x : Item) :
    ((h.clearReferences x).held ++ h.contents x).Perm h.held := by
  rw [List.perm_iff_count]
  intro y
  cases x with
  | prim p => simp [clearReferences, contents]
  | host r => simp [clearReferences, contents]
  | seq r =>
    obtain ⟨kind, slot⟩ := r
    cases kind with
    | array =>
      have := (flatMap_set_perm Array.toList #[] rfl h.arrays slot).count_eq y
      simp only [held, clearReferences, clear, putSeq, mapSeqs, contents, items, elements, seqs,
        List.count_append] at this ⊢
      omega
    | struct =>
      have := (flatMap_set_perm Array.toList #[] rfl h.structs slot).count_eq y
      simp only [held, clearReferences, clear, putSeq, mapSeqs, contents, items, elements, seqs,
        List.count_append] at this ⊢
      omega
  | map r =>
    have := (flatMap_set_perm Entries.values .empty rfl h.maps r.slot).count_eq y
    simp only [held, clearReferences, clearMap, putMap, contents, entries,
      List.count_append] at this ⊢
    omega

end Heap

/-- A heap with the number of handles of every storage: those that storage holds,
those that are to be released and those that are kept elsewhere. -/
structure Counted where
  heap : Heap
  handles : Item → Nat

namespace Counted

/-- Takes the contents out of a container if only one handle leads to it. -/
def detach (c : Counted) (x : Item) : List Item × Counted :=
  if c.handles x = 1 then (c.heap.contents x, { c with heap := c.heap.clearReferences x })
  else ([], c)

/-- Gives up one handle. -/
def giveUp (c : Counted) (x : Item) : Counted :=
  { c with handles := fun y => if y = x then c.handles y - 1 else c.handles y }

theorem held_detach_perm (c : Counted) (x : Item) :
    ((c.detach x).2.heap.held ++ (c.detach x).1).Perm c.heap.held := by
  rw [detach]
  split
  · exact c.heap.held_clearReferences_perm x
  · simp

/-- A turn of the release takes one handle from those that are to be released and those in
storage together. -/
theorem length_held_detach (c : Counted) (x : Item) :
    (c.detach x).2.heap.held.length + (c.detach x).1.length = c.heap.held.length := by
  rw [← List.length_append, (c.held_detach_perm x).length_eq]

/-- Releases handles, the first one first.  What a container held is released
before the other handles, the last element first. -/
def release (c : Counted) (handles : List Item) : Counted :=
  match handles with
  | [] => c
  | x :: rest => release ((c.detach x).2.giveUp x) ((c.detach x).1.reverse ++ rest)
termination_by handles.length + c.heap.held.length
decreasing_by
  have := c.length_held_detach x
  simp only [giveUp, List.length_append, List.length_reverse, List.length_cons]
  omega

/-- Drops a handle.  If it is the last one, what is left in the container is released, as a
list of its own, before the handle is given up. -/
def drop (c : Counted) (x : Item) : Counted :=
  ((c.detach x).2.release (c.detach x).1.reverse).giveUp x

/-- One turn of the release of a list of handles: the first handle is taken off the list, what
its container held is put in its place if it is the last one, and it is dropped. -/
def turn : List Item × Counted → List Item × Counted
  | ([], c) => ([], c)
  | (x :: rest, c) => ((c.detach x).1.reverse ++ rest, (c.detach x).2.drop x)

/-- The storage whose handles all are among the given ones or in storage that is
freed. -/
inductive Freed (c : Counted) (handles : List Item) : Item → Prop where
  | intro {x : Item} (holders : List Item) (distinct : holders.Nodup)
      (freed : ∀ y ∈ holders, Freed c handles y)
      (all : c.handles x = (handles ++ holders.flatMap c.heap.contents).count x) :
      Freed c handles x

end Counted

end StackItems
