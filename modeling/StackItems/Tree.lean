/-
Values without identity.

A `Tree` is what is left of an item when its handles are followed and the
identity of its storage is forgotten: primitives, sequences of trees and maps
from primitives to trees.  Trees are what storage can carry.

* `walkTree` — the walk that unfolds an item into a tree within the limits;
* `Tree.build` — new storage for a tree, none of it shared.
-/
import StackItems.Budget
import StackItems.Heap
import StackItems.Limits

namespace StackItems

/-- A finite value without identity. -/
inductive Tree where
  | prim (p : Primitive)
  | seq (kind : SeqKind) (children : List Tree)
  | map (entries : List (Primitive × Tree))

/-- The longest stored form of an integer, in bytes. -/
def maxIntegerSize : Nat := 32

/-- The fault of storing a primitive, if it is too large. -/
def Primitive.storageFault? (limits : Limits) : Primitive → Option Fault
  | .boolean _ => none
  | .integer n =>
    if TwosComplement.width n > maxIntegerSize then some (.format .integerTooLarge) else none
  | .bytes bs =>
    if bs.length > limits.maxItemSize.toNat then some (.format .bytesTooLarge) else none

/-- Visits a primitive: it costs one unit of the budget and must not be too
large. -/
def visitPrimitive (limits : Limits) (p : Primitive) : Budgeted Halt Unit := do
  Budgeted.spend (.cutoff .budget)
  match p.storageFault? limits with
  | some fault => Budgeted.stop (.fault fault)
  | none => return ()

/-- A walk to or from storage that meets a container at the limit of nesting. -/
def tooDeep {σ α : Type} (depth : Nat) : Recording Halt σ α :=
  Recording.abort (.abortedAt .serialization depth) (.cutoff (.depth depth))

namespace Heap

/-- The tree of an item at a depth, with room for so many levels of containers.
Every item costs one unit of the budget, keys of maps included; a budget that is
used up is not put on record. -/
def walkTree (h : Heap) (limits : Limits) (room depth : Nat) (x : Item) :
    Recording Halt Nat Tree :=
  match x with
  | .prim p => do
    visitPrimitive limits p
    return .prim p
  | .host _ => do
    Budgeted.spend (Halt.cutoff .budget)
    throw (.fault (.unsupported .interop))
  | .seq r => do
    Budgeted.spend (Halt.cutoff .budget)
    match room with
    | 0 => tooDeep depth
    | room + 1 => return .seq r.kind (← (h.items r).mapM (walkTree h limits room (depth + 1)))
  | .map r => do
    Budgeted.spend (Halt.cutoff .budget)
    match room with
    | 0 => tooDeep depth
    | room + 1 => return .map (← (h.entries r).toList.mapM fun entry => do
        visitPrimitive limits entry.1
        return (entry.1, ← walkTree h limits room (depth + 1) entry.2))

end Heap

mutual

/-- New storage for a tree. -/
def Tree.build : Tree → Heap → Item × Heap
  | .prim p, h => (.prim p, h)
  | .seq kind children, h =>
    let (xs, h) := Tree.buildAll children #[] h
    let (r, h) := h.newSeq kind xs
    (.seq r, h)
  | .map entries, h =>
    let (es, h) := Tree.buildEntries entries .empty h
    let (r, h) := h.newMap es
    (.map r, h)

/-- New storage for trees, one after the other, behind the items already made. -/
def Tree.buildAll : List Tree → Array Item → Heap → Array Item × Heap
  | [], xs, h => (xs, h)
  | t :: rest, xs, h =>
    let (x, h) := Tree.build t h
    Tree.buildAll rest (xs.push x) h

/-- New storage for the values of entries, which join those already made. -/
def Tree.buildEntries : List (Primitive × Tree) → Entries Item → Heap → Entries Item × Heap
  | [], es, h => (es, h)
  | (k, t) :: rest, es, h =>
    let (x, h) := Tree.build t h
    Tree.buildEntries rest (es.insert k x) h

end

end StackItems
