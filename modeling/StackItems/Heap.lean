/-
The heap that stack items live in.

A heap has one table for each kind of storage, and a handle is a position in the
table of its kind, so a handle of an array can never lead to the contents of a
map.  Allocation appends to a table; nothing is ever taken out of one.

* `elements_newSeq`, `elements_putSeq` — what a sequence holds after another has
  been made or changed, and likewise for maps;
* `Holds`, `Closed` — a heap in which every handle that occurs leads somewhere.

Design notes: a handle that leads nowhere reads as an empty container.  No item
that the operations produce from a closed heap holds such a handle.
-/
import StackItems.Entries

namespace StackItems

/-- An object of the host: the name that it gives its interface, the name of its
type, and its value. -/
structure HostObject where
  interface : String
  type : String
  value : Int
  deriving DecidableEq

/-- The storage behind handles. -/
structure Heap where
  arrays : Array (Array Item) := #[]
  structs : Array (Array Item) := #[]
  maps : Array (Entries Item) := #[]
  hosts : Array HostObject := #[]

namespace Heap

/-- The heap without storage. -/
def empty : Heap := {}

instance : Inhabited Heap := ⟨empty⟩

/-- The table of the sequences of one kind. -/
def seqs (h : Heap) : SeqKind → Array (Array Item)
  | .array => h.arrays
  | .struct => h.structs

/-- The heap with a change to the table of the sequences of one kind. -/
@[inline] def mapSeqs (h : Heap) (kind : SeqKind)
    (change : Array (Array Item) → Array (Array Item)) : Heap :=
  match kind with
  | .array => { h with arrays := change h.arrays }
  | .struct => { h with structs := change h.structs }

/-- The elements of a sequence. -/
def elements (h : Heap) (r : SeqRef) : Array Item := (h.seqs r.kind).getD r.slot #[]

/-- The elements of a sequence, as a list. -/
def items (h : Heap) (r : SeqRef) : List Item := (h.elements r).toList

/-- The entries of a map. -/
def entries (h : Heap) (r : MapRef) : Entries Item := h.maps.getD r.slot .empty

/-- The host object behind a handle. -/
def object (h : Heap) (r : HostRef) : HostObject := h.hosts.getD r.slot ⟨"", "", 0⟩

/-- The value of the host object behind an item, if the object is of the named
type. -/
def hostValue (h : Heap) (x : Item) (type : String) : Except Fault Int :=
  match x.toHost with
  | .error cause => .error cause
  | .ok r =>
    if (h.object r).type = type then .ok (h.object r).value
    else .error (x.noConversion (.named type))

/-- A new sequence. -/
def newSeq (h : Heap) (kind : SeqKind) (xs : Array Item) : SeqRef × Heap :=
  (⟨kind, (h.seqs kind).size⟩, h.mapSeqs kind (·.push xs))

/-- A new map. -/
def newMap (h : Heap) (es : Entries Item) : MapRef × Heap :=
  (⟨h.maps.size⟩, { h with maps := h.maps.push es })

/-- A new host object. -/
def newHost (h : Heap) (o : HostObject) : HostRef × Heap :=
  (⟨h.hosts.size⟩, { h with hosts := h.hosts.push o })

/-- The heap in which a sequence has other elements. -/
def putSeq (h : Heap) (r : SeqRef) (xs : Array Item) : Heap :=
  h.mapSeqs r.kind (·.setIfInBounds r.slot xs)

/-- The heap in which a map has other entries. -/
def putMap (h : Heap) (r : MapRef) (es : Entries Item) : Heap :=
  { h with maps := h.maps.setIfInBounds r.slot es }

/-- The number of elements or entries of a container; every other item counts as
one. -/
def count (h : Heap) : Item → Nat
  | .seq r => (h.elements r).size
  | .map r => (h.entries r).size
  | _ => 1

/-! ### Handles that lead somewhere -/

/-- The handle in an item, if there is one, leads to storage of this heap. -/
def Holds (h : Heap) : Item → Prop
  | .prim _ => True
  | .seq r => r.slot < (h.seqs r.kind).size
  | .map r => r.slot < h.maps.size
  | .host r => r.slot < h.hosts.size

/-- Every handle that is stored in the heap leads to storage of the heap. -/
structure Closed (h : Heap) : Prop where
  seq : ∀ r : SeqRef, ∀ x ∈ h.items r, h.Holds x
  map : ∀ r : MapRef, ∀ x ∈ (h.entries r).values, h.Holds x

/-! ### What storage holds after a change -/

section

variable (h : Heap) (kind : SeqKind) (change : Array (Array Item) → Array (Array Item))

@[simp] theorem seqs_mapSeqs (kind' : SeqKind) : (h.mapSeqs kind change).seqs kind'
    = if kind' = kind then change (h.seqs kind) else h.seqs kind' := by
  cases kind <;> cases kind' <;> rfl

@[simp] theorem maps_mapSeqs : (h.mapSeqs kind change).maps = h.maps := by cases kind <;> rfl

@[simp] theorem hosts_mapSeqs : (h.mapSeqs kind change).hosts = h.hosts := by cases kind <;> rfl

@[simp] theorem entries_mapSeqs (r : MapRef) :
    (h.mapSeqs kind change).entries r = h.entries r := by simp [entries]

end

theorem elements_newSeq_self (h : Heap) (k : SeqKind) (xs : Array Item) :
    (h.newSeq k xs).2.elements (h.newSeq k xs).1 = xs := by
  simp [newSeq, elements]

theorem elements_newSeq_of_holds {h : Heap} {r : SeqRef} (k : SeqKind) (xs : Array Item)
    (hr : h.Holds (.seq r)) : (h.newSeq k xs).2.elements r = h.elements r := by
  have hr : r.slot < (h.seqs r.kind).size := hr
  by_cases hk : r.kind = k
  · subst hk
    simp [newSeq, elements, Array.getElem?_push, Nat.ne_of_lt hr]
  · simp [newSeq, elements, hk]

theorem elements_putSeq_self {h : Heap} {r : SeqRef} (xs : Array Item)
    (hr : h.Holds (.seq r)) : (h.putSeq r xs).elements r = xs := by
  have hr : r.slot < (h.seqs r.kind).size := hr
  simp [putSeq, elements, hr]

theorem elements_putSeq_of_ne {h : Heap} {r s : SeqRef} (xs : Array Item) (hs : s ≠ r) :
    (h.putSeq r xs).elements s = h.elements s := by
  by_cases hk : s.kind = r.kind
  · have hne : r.slot ≠ s.slot := by
      intro he
      apply hs
      cases r; cases s
      simp_all
    simp [putSeq, elements, hk, Array.getElem?_setIfInBounds_ne hne]
  · simp [putSeq, elements, hk]

theorem entries_newMap_self (h : Heap) (es : Entries Item) :
    (h.newMap es).2.entries (h.newMap es).1 = es := by
  simp [newMap, entries]

theorem entries_putMap_self {h : Heap} {r : MapRef} (es : Entries Item)
    (hr : h.Holds (.map r)) : (h.putMap r es).entries r = es := by
  have hr : r.slot < h.maps.size := hr
  simp [putMap, entries, hr]

theorem entries_putMap_of_ne {h : Heap} {r s : MapRef} (es : Entries Item) (hs : s ≠ r) :
    (h.putMap r es).entries s = h.entries s := by
  have hne : r.slot ≠ s.slot := by
    intro he
    apply hs
    cases r; cases s
    simp_all
  simp [putMap, entries, Array.getElem?_setIfInBounds_ne hne]

end Heap

end StackItems
