/-
What can be seen of items.

A snapshot follows the handles of an item and shows the identity of storage by
number: containers and host objects are numbered in the order in which they are
met, a container before what it holds, and one that is met again is shown by its
number.  Snapshots are cut off twice: below a number of levels a container shows
its kind and size only, and of every container the first elements are shown and
the rest counted.

* `snapshotAt` — the snapshot of an item, given the storage that is numbered
  already;
* `describe` — the one-line description of an item, without what it holds.
-/
import StackItems.Heap

namespace StackItems

/-- What can be seen of an item. -/
inductive Snapshot where
  | prim (p : Primitive)
  | host (id : Nat) (interface : String)
  | seq (kind : SeqKind) (id : Nat) (shown : List Snapshot) (more : Nat)
  | map (id : Nat) (shown : List (Primitive × Snapshot)) (more : Nat)
  /-- Storage that was shown before. -/
  | seen (id : Nat)
  /-- A container that lies too deep to be shown. -/
  | deep (kind : Kind) (count : Nat)

namespace Snapshot

/-- The number of levels of containers that are shown. -/
def levels : Nat := 20

/-- The number of elements or entries that are shown of one container. -/
def breadth : Nat := 64

end Snapshot

/-- The storage that a snapshot has numbered so far, by number. -/
abbrev Numbered := StateM (Array Item)

/-- Gives the storage behind a handle the next number. -/
def number (x : Item) : Numbered Nat := fun seen => (seen.size, seen.push x)

namespace Heap

/-- The snapshot of an item, with so many levels of containers left to show. -/
def snapshotAt (h : Heap) (levels : Nat) (x : Item) : Numbered Snapshot := do
  match (← get).idxOf? x, x with
  | _, .prim p => return .prim p
  | some id, _ => return .seen id
  | none, .host r => return .host (← number x) (h.object r).interface
  | none, .seq r =>
    match levels with
    | 0 => return .deep r.kind.kind (h.count x)
    | levels + 1 =>
      let id ← number x
      let shown ← ((h.items r).take Snapshot.breadth).mapM (snapshotAt h levels)
      return .seq r.kind id shown (h.count x - Snapshot.breadth)
  | none, .map r =>
    match levels with
    | 0 => return .deep .map (h.count x)
    | levels + 1 =>
      let id ← number x
      let shown ← ((h.entries r).toList.take Snapshot.breadth).mapM fun entry => do
        return (entry.1, ← snapshotAt h levels entry.2)
      return .map id shown (h.count x - Snapshot.breadth)

/-- The snapshot of an item on its own. -/
def snapshot (h : Heap) (x : Item) : Snapshot := (h.snapshotAt Snapshot.levels x #[]).1

/-- The snapshots of the first items of a list, one level down and with one
numbering, and the number of the other items. -/
def listing (h : Heap) (xs : List Item) : List Snapshot × Nat :=
  ((((xs.take Snapshot.breadth).mapM (h.snapshotAt (Snapshot.levels - 1))) #[]).1,
    xs.length - Snapshot.breadth)

/-- The snapshots of the first entries of a list, one level down and with one
numbering, and the number of the other entries. -/
def entryListing (h : Heap) (es : List (Primitive × Item)) : List (Primitive × Snapshot) × Nat :=
  (((es.take Snapshot.breadth).mapM fun entry => do
      return (entry.1, ← h.snapshotAt (Snapshot.levels - 1) entry.2) : Numbered _) #[] |>.1,
    es.length - Snapshot.breadth)

/-- The snapshots of named items, with one numbering. -/
def snapshots (h : Heap) (xs : List (String × Item)) : List (String × Snapshot) :=
  ((xs.mapM fun named => do
    return (named.1, ← h.snapshotAt Snapshot.levels named.2) : Numbered _) #[]).1

end Heap

/-- A primitive in words. -/
def Primitive.describe : Primitive → String
  | boolean b => "Boolean(" ++ (if b then "true" else "false") ++ ")"
  | integer n => "Integer(" ++ toString n ++ ")"
  | bytes bs => "ByteArray([" ++ ", ".intercalate (bs.map toString) ++ "])"

/-- An item in words: a container by its size, with `ID` for its identity. -/
def Heap.describe (h : Heap) : Item → String
  | .prim p => p.describe
  | .host r => "InteropInterface(Interop(" ++ (h.object r).interface ++ "))"
  | x =>
    x.kind.name ++ "(" ++ x.kind.name ++ " \x7b id: ID, len: " ++ toString (h.count x) ++ " \x7d)"

end StackItems
