/-
Operations on sequences and maps in a heap.

Every operation works through a handle, so all handles of the same storage see
its effect.  An operation that fails gives no heap: nothing has changed.

* `removeAt`, `removeField` — the removals of arrays and of structs;
  `removeField_eq_removeAt` — the one is the other in the exact mode;
* `getAt_eq`, `setAt_eq`, `add_eq`, `pop_eq`, `removeExact_eq` — each operation as
  an operation on the list of elements.
-/
import StackItems.Heap
import StackItems.Limits

namespace StackItems

/-- The position that a removal at an index takes, if there can be one. -/
def RemovalMode.position? : RemovalMode → Nat → Option Nat
  | .exact, index => some index
  | .legacy, 0 => none
  | .legacy, index + 1 => some index

namespace Heap

/-! ### Sequences -/

/-- The element at an index. -/
def getAt (h : Heap) (r : SeqRef) (index : Nat) : Except Fault Item :=
  match (h.elements r)[index]? with
  | some x => .ok x
  | none => .error (.indexOutOfRange index (h.elements r).size)

/-- Puts an item in the place of the element at an index. -/
def setAt (h : Heap) (r : SeqRef) (index : Nat) (x : Item) : Except Fault Heap :=
  if index < (h.elements r).size then .ok (h.putSeq r ((h.elements r).setIfInBounds index x))
  else .error (.indexOutOfRange index (h.elements r).size)

/-- Puts an item behind the last element. -/
def add (h : Heap) (r : SeqRef) (x : Item) : Heap := h.putSeq r ((h.elements r).push x)

/-- Takes the last element out. -/
def pop (h : Heap) (r : SeqRef) : Except Fault (Item × Heap) :=
  match (h.elements r).back? with
  | some x => .ok (x, h.putSeq r (h.elements r).pop)
  | none => .error (.indexOutOfRange 0 0)

/-- Takes out of an array the element that the mode picks for an index, and closes
the gap. -/
def removeAt (h : Heap) (mode : RemovalMode) (r : SeqRef) (index : Nat) :
    Except Fault (Item × Heap) :=
  let outOfRange := Fault.indexOutOfRange index (h.elements r).size
  match mode.position? index with
  | none => .error outOfRange
  | some position =>
    match (h.elements r)[position]? with
    | none => .error outOfRange
    | some x => .ok (x, h.putSeq r ((h.elements r).eraseIdxIfInBounds position))

/-- Takes the element at an index out of a struct and closes the gap. -/
def removeField (h : Heap) (r : SeqRef) (index : Nat) : Except Fault (Item × Heap) :=
  if inside : index < (h.elements r).size then
    .ok ((h.elements r)[index], h.putSeq r ((h.elements r).eraseIdx index))
  else .error (.indexOutOfRange index (h.elements r).size)

/-- Takes exactly the element at an index out, the way of the kind. -/
def removeExact (h : Heap) (r : SeqRef) (index : Nat) : Except Fault (Item × Heap) :=
  match r.kind with
  | .array => h.removeAt .exact r index
  | .struct => h.removeField r index

/-- Takes all elements out. -/
def clear (h : Heap) (r : SeqRef) : Heap := h.putSeq r #[]

/-! ### Maps -/

/-- Puts a value under a key and gives the value that was there. -/
def insertKey (h : Heap) (r : MapRef) (k : Primitive) (v : Item) : Option Item × Heap :=
  ((h.entries r).get? k, h.putMap r ((h.entries r).insert k v))

/-- Takes a key out and gives the value that was there. -/
def removeKey (h : Heap) (r : MapRef) (k : Primitive) : Option Item × Heap :=
  ((h.entries r).get? k, h.putMap r ((h.entries r).erase k))

/-- Takes all entries out. -/
def clearMap (h : Heap) (r : MapRef) : Heap := h.putMap r .empty

/-- Empties a container; any other item holds nothing. -/
def clearReferences (h : Heap) : Item → Heap
  | .seq r => h.clear r
  | .map r => h.clearMap r
  | _ => h

/-! ### Operations on the list of elements -/

theorem items_putSeq {h : Heap} {r : SeqRef} (xs : Array Item) (hr : h.Holds (.seq r)) :
    (h.putSeq r xs).items r = xs.toList := by
  rw [items, elements_putSeq_self xs hr]

section

variable (h : Heap) (r : SeqRef)

theorem size_elements : (h.elements r).size = (h.items r).length := by
  rw [items, Array.length_toList]

theorem getElem?_elements (index : Nat) : (h.elements r)[index]? = (h.items r)[index]? := by
  rw [items, Array.getElem?_toList]

theorem putSeq_eq_of_toList {xs : Array Item} {ys : List Item} (e : xs.toList = ys) :
    h.putSeq r xs = h.putSeq r ys.toArray := by
  rw [← e, Array.toArray_toList]

theorem getAt_eq (index : Nat) :
    h.getAt r index = match (h.items r)[index]? with
      | some x => .ok x
      | none => .error (.indexOutOfRange index (h.items r).length) := by
  rw [getAt, getElem?_elements, size_elements]

theorem setAt_eq (index : Nat) (x : Item) :
    h.setAt r index x = if index < (h.items r).length
      then .ok (h.putSeq r ((h.items r).set index x).toArray)
      else .error (.indexOutOfRange index (h.items r).length) := by
  rw [setAt, size_elements, putSeq_eq_of_toList h r (Array.toList_setIfInBounds ..), items]

theorem add_eq (x : Item) : h.add r x = h.putSeq r (h.items r ++ [x]).toArray := by
  rw [add, putSeq_eq_of_toList h r Array.toList_push, items]

theorem pop_eq :
    h.pop r = match (h.items r).getLast? with
      | some x => .ok (x, h.putSeq r (h.items r).dropLast.toArray)
      | none => .error (.indexOutOfRange 0 0) := by
  rw [pop, putSeq_eq_of_toList h r (Array.toList_pop ..), items, Array.getLast?_toList]

theorem removeField_eq_removeAt (index : Nat) :
    h.removeField r index = h.removeAt .exact r index := by
  by_cases inside : index < (h.elements r).size
  · simp [removeField, removeAt, RemovalMode.position?, inside, Array.eraseIdxIfInBounds]
  · simp [removeField, removeAt, RemovalMode.position?, inside]

/-- Both kinds remove alike. -/
theorem removeExact_eq_removeAt (index : Nat) :
    h.removeExact r index = h.removeAt .exact r index := by
  rw [removeExact]
  split
  · rfl
  · exact h.removeField_eq_removeAt r index

theorem removeExact_eq (index : Nat) :
    h.removeExact r index = match (h.items r)[index]? with
      | some x => .ok (x, h.putSeq r ((h.items r).eraseIdx index).toArray)
      | none => .error (.indexOutOfRange index (h.items r).length) := by
  rw [removeExact_eq_removeAt, removeAt]
  simp only [RemovalMode.position?, getElem?_elements, size_elements,
    putSeq_eq_of_toList h r (Array.toList_eraseIdxIfInBounds ..), items]
  cases (h.elements r).toList[index]? with
  | none => rfl
  | some x => rfl

end

end Heap

end StackItems
