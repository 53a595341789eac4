/-
Items in storage.

`serialize` gives the stored form of an item, `deserialize` makes a new item
from a stored form.  Both stop at the limits: a container at the limit of
nesting is put on record, an item beyond the budget is not.
-/
import StackItems.Encoding

namespace StackItems

/-- What a walk to or from storage that stops has as its fault. -/
def storageFault (limits : Limits) : Halt → Fault
  | .cutoff (.depth _) => .depthExceeded limits.maxStructDepth
  | .cutoff .budget => .itemLimitExceeded limits.maxItems
  | .fault cause => cause

namespace Heap

/-- The stored form of an item. -/
def serialize (h : Heap) (limits : Limits) (x : Item) : Report (List UInt8) :=
  ((h.walkTree limits limits.maxStructDepth.toNat 0 x).report (storageFault limits)
      limits.maxItems.toNat).map
    fun t => (t.write #[]).toList

/-- A new item from its stored form. -/
def deserialize (h : Heap) (limits : Limits) (input : List UInt8) : Report (Item × Heap) :=
  ((Tree.walkWhole limits).report (storageFault limits) ⟨input, limits.maxItems.toNat⟩).map
    fun t => t.build h

end Heap

end StackItems
