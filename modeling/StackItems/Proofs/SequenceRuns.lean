/-
Sequences in a heap are lists.

What is asked of a sequence through a handle, and what is done to it, is answered as if the
sequence were a plain list, whatever else happens in the heap in between.  The kind of the
sequence plays no part, so arrays and structs answer alike.

* `SeqOp.onList` — the operations on a plain list; `SeqOp.run` — those on a sequence in a heap;
* `SeqOp.run_eq` — one operation; `perform_eq` — operations one after the other, those of other
  sequences among them;
* `attempt_removeAt_succ` — a removal in the legacy mode is the exact one a position earlier;
* `sequences_follow_lists` — **an array and a struct that start with one list and are driven
  alike answer alike and hold the same, step by step, namely what the list does.**

Design notes: handles of one storage are equal, so a sequence is driven by all steps through a
handle equal to its own, wherever that handle came from.
-/
import StackItems.Proofs.Position
import StackItems.Sequence

namespace StackItems

/-- What can be asked of a sequence or done to it. -/
inductive SeqOp where
  | get (index : Nat)
  | set (index : Nat) (x : Item)
  | add (x : Item)
  | pop
  | removeAt (index : Nat)
  | clear
  | length
  | items

/-- What a sequence answers. -/
inductive SeqAnswer where
  | nothing
  | item (x : Item)
  | number (n : Nat)
  | list (xs : List Item)

/-! ### Lists -/

/-- The answer of a plain list, and the list afterwards.  What fails changes nothing. -/
def SeqOp.onList (xs : List Item) : SeqOp → Except Fault SeqAnswer × List Item
  | get index =>
    match xs[index]? with
    | some x => (.ok (.item x), xs)
    | none => (.error (.indexOutOfRange index xs.length), xs)
  | set index x =>
    if index < xs.length then (.ok .nothing, xs.take index ++ x :: xs.drop (index + 1))
    else (.error (.indexOutOfRange index xs.length), xs)
  | add x => (.ok .nothing, xs ++ [x])
  | pop =>
    match xs.getLast? with
    | some x => (.ok (.item x), xs.dropLast)
    | none => (.error (.indexOutOfRange 0 0), xs)
  | removeAt index =>
    match xs[index]? with
    | some x => (.ok (.item x), xs.take index ++ xs.drop (index + 1))
    | none => (.error (.indexOutOfRange index xs.length), xs)
  | clear => (.ok .nothing, [])
  | length => (.ok (.number xs.length), xs)
  | items => (.ok (.list xs), xs)

/-- What is seen of a sequence at a step: its answer, and what it holds afterwards. -/
abbrev Sight := Except Fault SeqAnswer × List Item

/-- What is seen of a plain list at each of its steps. -/
def sights (xs : List Item) : List SeqOp → List Sight
  | [] => []
  | op :: rest => op.onList xs :: sights (op.onList xs).2 rest

/-! ### Heaps -/

namespace Heap

/-- The answer of an operation that gives an item, and the heap afterwards. -/
def attempt (h : Heap) : Except Fault (Item × Heap) → Except Fault Item × Heap
  | .ok (x, h') => (.ok x, h')
  | .error fault => (.error fault, h)

end Heap

/-- The answer of a sequence in a heap, and the heap afterwards. -/
def SeqOp.run (h : Heap) (r : SeqRef) : SeqOp → Except Fault SeqAnswer × Heap
  | get index => ((h.getAt r index).map .item, h)
  | set index x =>
    match h.setAt r index x with
    | .ok h' => (.ok .nothing, h')
    | .error fault => (.error fault, h)
  | add x => (.ok .nothing, h.add r x)
  | pop =>
    let (answer, h') := h.attempt (h.pop r)
    (answer.map .item, h')
  | removeAt index =>
    let (answer, h') := h.attempt (h.removeExact r index)
    (answer.map .item, h')
  | clear => (.ok .nothing, h.clear r)
  | length => (.ok (.number (h.count (.seq r))), h)
  | items => (.ok (.list (h.items r)), h)

namespace Heap

/-- Runs steps, each through a handle, and gives what is seen of its sequence at each. -/
def perform (h : Heap) : List (SeqRef × SeqOp) → List (SeqRef × Sight)
  | [] => []
  | (r, op) :: rest =>
    let (answer, h') := op.run h r
    (r, answer, h'.items r) :: h'.perform rest

end Heap

/-- Of what is listed with handles, what belongs to one of them. -/
def ofHandle {α : Type} (r : SeqRef) (steps : List (SeqRef × α)) : List α :=
  (steps.filter fun step => step.1 = r).map Prod.snd

section

variable {α : Type} {r s : SeqRef} {a : α} {steps : List (SeqRef × α)}

theorem ofHandle_cons_self : ofHandle r ((r, a) :: steps) = a :: ofHandle r steps := by
  simp [ofHandle]

theorem ofHandle_cons_of_ne (h : s ≠ r) : ofHandle r ((s, a) :: steps) = ofHandle r steps := by
  simp [ofHandle, h]

end

/-! ### One operation -/

/-- An operation answers as the plain list does.  It leaves the heap as it is or puts the list
afterwards in the place of the sequence. -/
theorem SeqOp.run_eq (h : Heap) (r : SeqRef) (op : SeqOp) :
    (op.run h r).1 = (op.onList (h.items r)).1 ∧
      ((op.run h r).2 = h ∧ (op.onList (h.items r)).2 = h.items r ∨
        (op.run h r).2 = h.putSeq r (op.onList (h.items r)).2.toArray) := by
  cases op with
  | get index =>
    rw [run, h.getAt_eq, onList]
    cases (h.items r)[index]? with
    | none => exact ⟨rfl, .inl ⟨rfl, rfl⟩⟩
    | some x => exact ⟨rfl, .inl ⟨rfl, rfl⟩⟩
  | set index x =>
    rw [run, h.setAt_eq, onList]
    by_cases hi : index < (h.items r).length
    · rw [List.set_eq_take_append_cons_drop, if_pos hi, if_pos hi, if_pos hi]
      exact ⟨rfl, .inr rfl⟩
    · rw [if_neg hi, if_neg hi]
      exact ⟨rfl, .inl ⟨rfl, rfl⟩⟩
  | add x =>
    rw [run, h.add_eq, onList]
    exact ⟨rfl, .inr rfl⟩
  | pop =>
    rw [run, h.pop_eq, onList]
    cases (h.items r).getLast? with
    | none => exact ⟨rfl, .inl ⟨rfl, rfl⟩⟩
    | some x => exact ⟨rfl, .inr rfl⟩
  | removeAt index =>
    rw [run, h.removeExact_eq, onList, List.eraseIdx_eq_take_drop_succ]
    cases (h.items r)[index]? with
    | none => exact ⟨rfl, .inl ⟨rfl, rfl⟩⟩
    | some x => exact ⟨rfl, .inr rfl⟩
  | clear => exact ⟨rfl, .inr rfl⟩
  | length => exact ⟨congrArg _ (congrArg _ (h.size_elements r)), .inl ⟨rfl, rfl⟩⟩
  | items => exact ⟨rfl, .inl ⟨rfl, rfl⟩⟩

namespace SeqOp

variable {h : Heap} {r s : SeqRef}

theorem items_run_self (held : h.Holds (.seq r)) (op : SeqOp) :
    (op.run h r).2.items r = (op.onList (h.items r)).2 := by
  obtain ⟨-, ⟨hsame, hlist⟩ | hput⟩ := op.run_eq h r
  · rw [hsame, hlist]
  · rw [hput, Heap.items_putSeq _ held]

theorem items_run_of_ne (hr : r ≠ s) (op : SeqOp) : (op.run h s).2.items r = h.items r := by
  obtain ⟨-, ⟨hsame, -⟩ | hput⟩ := op.run_eq h s
  · rw [hsame]
  · rw [hput, Heap.items, Heap.elements_putSeq_of_ne _ hr, Heap.items]

theorem holds_run (held : h.Holds (.seq r)) (op : SeqOp) : (op.run h s).2.Holds (.seq r) := by
  obtain ⟨-, ⟨hsame, -⟩ | hput⟩ := op.run_eq h s
  · rwa [hsame]
  · rw [hput]
    exact (h.holds_putSeq s _).2 held

end SeqOp

namespace Heap

variable {h : Heap} {r : SeqRef}

/-! ### Operations one after the other -/

/-- Of a sequence is seen what is seen of the plain list under the steps of the sequence. -/
theorem perform_eq (held : h.Holds (.seq r)) (steps : List (SeqRef × SeqOp)) :
    ofHandle r (h.perform steps) = sights (h.items r) (ofHandle r steps) := by
  induction steps generalizing h with
  | nil => rfl
  | cons step rest ih =>
    obtain ⟨s, op⟩ := step
    rw [perform]
    by_cases hs : s = r
    · subst hs
      rw [ofHandle_cons_self, ofHandle_cons_self, sights, ih (op.holds_run held),
        op.items_run_self held, (op.run_eq h s).1]
    · rw [ofHandle_cons_of_ne hs, ofHandle_cons_of_ne hs, ih (op.holds_run held),
        op.items_run_of_ne (Ne.symm hs)]

/-! ### The two modes of removal -/

/-- In the legacy mode the index is one too large: what is removed and what is left are those of
the exact mode at the index before it, but a failure names the index that was asked for. -/
theorem attempt_removeAt_succ (h : Heap) (r : SeqRef) (index : Nat) :
    h.attempt (h.removeAt .legacy r (index + 1)) =
      ((h.attempt (h.removeAt .exact r index)).1.mapError
          fun _ => .indexOutOfRange (index + 1) (h.items r).length,
        (h.attempt (h.removeAt .exact r index)).2) := by
  simp only [removeAt, RemovalMode.position?, items, Array.length_toList]
  cases (h.elements r)[index]? with
  | none => rfl
  | some x => rfl

/-- In the legacy mode there is no element before the first index. -/
theorem attempt_removeAt_zero (h : Heap) (r : SeqRef) :
    h.attempt (h.removeAt .legacy r 0) = (.error (.indexOutOfRange 0 (h.items r).length), h) := by
  simp only [removeAt, RemovalMode.position?, items, Array.length_toList]
  rfl

/-- An array and a struct, in one heap or in two, start with one list.  Steps are taken through
any handles, and those that are taken through handles of the array are the same as those that
are taken through handles of the struct.  Then array and struct answer alike at each of their
steps, faults included, and hold the same after it, and so does the plain list.  Of every
sequence the legacy mode removes at an index what the exact mode removes one index earlier, and
a fault names the index that was asked for; at index zero it has a fault and changes nothing. -/
theorem sequences_follow_lists {h g : Heap} {i j : Nat} (ha : h.Holds (.seq ⟨.array, i⟩))
    (hs : g.Holds (.seq ⟨.struct, j⟩)) (start : h.items ⟨.array, i⟩ = g.items ⟨.struct, j⟩)
    {steps steps' : List (SeqRef × SeqOp)}
    (alike : ofHandle ⟨.array, i⟩ steps = ofHandle ⟨.struct, j⟩ steps') :
    ofHandle ⟨.array, i⟩ (h.perform steps) = ofHandle ⟨.struct, j⟩ (g.perform steps') ∧
      ofHandle ⟨.array, i⟩ (h.perform steps)
        = sights (h.items ⟨.array, i⟩) (ofHandle ⟨.array, i⟩ steps) ∧
      ∀ (h : Heap) (r : SeqRef),
        (∀ index, h.attempt (h.removeAt .legacy r (index + 1)) =
          ((h.attempt (h.removeAt .exact r index)).1.mapError
              fun _ => .indexOutOfRange (index + 1) (h.items r).length,
            (h.attempt (h.removeAt .exact r index)).2)) ∧
        h.attempt (h.removeAt .legacy r 0)
          = (.error (.indexOutOfRange 0 (h.items r).length), h) := by
  have harray := perform_eq ha steps
  refine ⟨?_, harray, fun h r => ⟨h.attempt_removeAt_succ r, h.attempt_removeAt_zero r⟩⟩
  rw [harray, perform_eq hs steps', alike, start]

/-- An array that holds itself, and a struct of the same elements. -/
def sameElements : Heap where
  arrays := #[#[.prim (.integer 1), .seq ⟨.array, 0⟩]]
  structs := #[#[.prim (.integer 1), .seq ⟨.array, 0⟩]]

/-- Both are asked for an element that they do not have, and are then emptied from both ends; the
steps of the one stand between those of the other. -/
def takenApart : List (SeqRef × SeqOp) :=
  [(⟨.array, 0⟩, .removeAt 2), (⟨.struct, 0⟩, .removeAt 2), (⟨.array, 0⟩, .removeAt 0),
    (⟨.array, 0⟩, .pop), (⟨.struct, 0⟩, .removeAt 0), (⟨.struct, 0⟩, .pop), (⟨.struct, 0⟩, .pop),
    (⟨.array, 0⟩, .pop)]

theorem sequences_follow_lists_takenApart :
    sameElements.Holds (.seq ⟨.array, 0⟩) ∧ sameElements.Holds (.seq ⟨.struct, 0⟩) ∧
      sameElements.items ⟨.array, 0⟩ = sameElements.items ⟨.struct, 0⟩ ∧
      ofHandle ⟨.array, 0⟩ (sameElements.perform takenApart)
        = ofHandle ⟨.struct, 0⟩ (sameElements.perform takenApart) ∧
      ofHandle ⟨.array, 0⟩ (sameElements.perform takenApart)
        = [(.error (.indexOutOfRange 2 2), [.prim (.integer 1), .seq ⟨.array, 0⟩]),
          (.ok (.item (.prim (.integer 1))), [.seq ⟨.array, 0⟩]),
          (.ok (.item (.seq ⟨.array, 0⟩)), []), (.error (.indexOutOfRange 0 0), [])] ∧
      sameElements.attempt (sameElements.removeAt .legacy ⟨.array, 0⟩ 3)
        = (.error (.indexOutOfRange 3 2), sameElements) := by
  have ha : sameElements.Holds (.seq ⟨.array, 0⟩) := (by decide : 0 < 1)
  have hs : sameElements.Holds (.seq ⟨.struct, 0⟩) := (by decide : 0 < 1)
  have alike : ofHandle (⟨.array, 0⟩ : SeqRef) takenApart = ofHandle ⟨.struct, 0⟩ takenApart := rfl
  obtain ⟨same, listed, modes⟩ := sequences_follow_lists ha hs rfl alike
  exact ⟨ha, hs, rfl, same, listed, (modes sameElements ⟨.array, 0⟩).1 2⟩

end Heap

end StackItems
