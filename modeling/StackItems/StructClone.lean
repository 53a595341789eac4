/-
Copies of structs.

A copy duplicates a struct and every struct that is reached from it through
elements of structs, once for every place where it occurs; everything else is
shared with the struct that is copied.

* `Spine` — the part of a struct that a copy duplicates, as a tree;
* `walkSpine` — the walk that reads a spine within the limits;
* `Spine.build` — new storage for a spine.

Design notes: the walk is finished before the first storage is made, so a copy
that fails leaves the heap as it was.
-/
import StackItems.Budget
import StackItems.Heap
import StackItems.Limits

namespace StackItems

/-- The structs that are nested in a struct, with whatever else they hold as
leaves. -/
inductive Spine where
  | leaf (x : Item)
  | struct (children : List Spine)

namespace Heap

/-- What a copy that stops has as its fault. -/
def cloneFault (limits : Limits) : Cutoff → Fault
  | .depth _ => .depthExceeded limits.maxStructDepth
  | .budget => .itemLimitExceeded limits.maxCloneLength

/-- The children of a struct at a depth, with room for so many levels of structs.
Every child costs one unit of the budget before it is looked into. -/
def walkSpine (h : Heap) (limits : Limits) :
    (room depth : Nat) → SeqRef → Recording Cutoff Nat (List Spine)
  | 0, depth, _ => Recording.abort (.abortedAt .clone depth) (.depth depth)
  | room + 1, depth, r => (h.items r).mapM fun x => do
    Recording.draw (.abortedAfter .clone limits.maxCloneLength) .budget
    match x with
    | .seq ⟨.struct, slot⟩ =>
      return .struct (← walkSpine h limits room (depth + 1) ⟨.struct, slot⟩)
    | x => return .leaf x

end Heap

mutual

/-- New storage for a spine. -/
def Spine.build : Spine → Heap → Item × Heap
  | .leaf x, h => (x, h)
  | .struct children, h =>
    let (xs, h) := Spine.buildAll children #[] h
    let (r, h) := h.newSeq .struct xs
    (.seq r, h)

/-- New storage for spines, one after the other, behind the items already made. -/
def Spine.buildAll : List Spine → Array Item → Heap → Array Item × Heap
  | [], xs, h => (xs, h)
  | s :: rest, xs, h =>
    let (x, h) := Spine.build s h
    Spine.buildAll rest (xs.push x) h

end

namespace Heap

/-- A copy of a struct. -/
def cloneStruct (h : Heap) (limits : Limits) (r : SeqRef) : Report (Item × Heap) :=
  ((h.walkSpine limits limits.maxStructDepth.toNat 0 r).report (cloneFault limits)
      limits.maxCloneLength.toNat).map
    fun children => Spine.build (.struct children) h

/-- An item for a place that must not share a struct: a struct is copied, any
other item is shared. -/
def cloneValue (h : Heap) (limits : Limits) : Item → Report (Item × Heap)
  | .seq ⟨.struct, slot⟩ => h.cloneStruct limits ⟨.struct, slot⟩
  | x => .quiet (.ok (x, h))

end Heap

end StackItems
