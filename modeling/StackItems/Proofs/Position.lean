/-
Positions inside items, and what new storage does to them.

A path is a list of indices: from a container it leads to the element, or to the
value of the entry, at its first index, and from there by the rest.  Which
containers a path may go through is a parameter: all of them for the unfolding of
an item, the structs alone for the part of a struct that a copy duplicates.

* `at?` — the item at a position; `unfolding` — what can be seen at every
  position when the identity of storage is forgotten;
* `Extends` — a heap that holds everything another one holds, unchanged;
  `at?_of_extends` — positions that lie in held storage stay what they are.

Design notes: the unfolding of an item may be infinite, so it is a function of
the position and not a tree.
-/
import StackItems.Release

namespace StackItems

/-- What can be seen of an item without following it and without its identity. -/
inductive Node where
  | prim (p : Primitive)
  | host
  | seq (kind : SeqKind) (size : Nat)
  | map (keys : List Primitive)
  deriving DecidableEq

namespace Heap

/-- What can be seen of an item at its own position. -/
def node (h : Heap) : Item → Node
  | .prim p => .prim p
  | .host _ => .host
  | .seq r => .seq r.kind (h.items r).length
  | .map r => .map (h.entries r).keys

/-- The item at the end of a path that goes through containers of the followed
kinds only, if the path leads anywhere. -/
def at? (h : Heap) (follow : Kind → Bool) : Item → List Nat → Option Item
  | x, [] => some x
  | x, i :: path =>
    if follow x.kind then (h.contents x)[i]?.bind fun y => at? h follow y path else none

/-- What can be seen at every position of an item. -/
def unfolding (h : Heap) (x : Item) (path : List Nat) : Option Node :=
  (h.at? Kind.isCompound x path).map h.node

/-- The storage behind an item holds the same in another heap. -/
def SameAt (h h' : Heap) : Item → Prop
  | .prim _ => True
  | .seq r => h'.elements r = h.elements r
  | .map r => h'.entries r = h.entries r
  | .host r => h'.object r = h.object r

/-- A heap that holds all storage of another one, with the same contents. -/
structure Extends (h h' : Heap) : Prop where
  holds : ∀ x, h.Holds x → h'.Holds x
  same : ∀ x, h.Holds x → h.SameAt h' x

/-! ### Storage that stays the same -/

section

variable {h h' h'' : Heap} {x : Item}

theorem SameAt.refl (h : Heap) (x : Item) : h.SameAt h x := by
  cases x with
  | prim p => trivial
  | seq r => rfl
  | map r => rfl
  | host r => rfl

theorem SameAt.symm (a : h.SameAt h' x) : h'.SameAt h x := by
  cases x with
  | prim p => trivial
  | seq r => exact Eq.symm a
  | map r => exact Eq.symm a
  | host r => exact Eq.symm a

theorem SameAt.trans (a : h.SameAt h' x) (b : h'.SameAt h'' x) : h.SameAt h'' x := by
  cases x with
  | prim p => trivial
  | seq r => exact Eq.trans b a
  | map r => exact Eq.trans b a
  | host r => exact Eq.trans b a

theorem SameAt.contents_eq (a : h.SameAt h' x) : h'.contents x = h.contents x := by
  cases x with
  | prim p => rfl
  | host r => rfl
  | seq r =>
    have ha : h'.elements r = h.elements r := a
    rw [contents, contents, items, items, ha]
  | map r =>
    have ha : h'.entries r = h.entries r := a
    rw [contents, contents, ha]

/-- Storage that holds the same looks the same. -/
theorem SameAt.node_eq (a : h.SameAt h' x) : h'.node x = h.node x := by
  cases x with
  | prim p => rfl
  | host r => rfl
  | seq r =>
    have ha : h'.elements r = h.elements r := a
    rw [node, node, items, items, ha]
  | map r =>
    have ha : h'.entries r = h.entries r := a
    rw [node, node, ha]

theorem Extends.refl (h : Heap) : h.Extends h := ⟨fun _ hx => hx, fun x _ => .refl h x⟩

theorem Extends.trans (a : h.Extends h') (b : h'.Extends h'') : h.Extends h'' :=
  ⟨fun x hx => b.holds x (a.holds x hx),
    fun x hx => (a.same x hx).trans (b.same x (a.holds x hx))⟩

/-- Heaps that hold each other's storage, with the same contents, are the same. -/
theorem Extends.antisymm (a : h.Extends h') (b : h'.Extends h) : h = h' := by
  have same : ∀ {α : Type} {table table' : Array α} (vacant : α),
      (∀ i, i < table.size ↔ i < table'.size) →
      (∀ i, i < table.size → table'.getD i vacant = table.getD i vacant) → table = table' := by
    intro α table table' vacant hsize hget
    have hsize : table.size = table'.size := by
      have := hsize table.size
      have := hsize table'.size
      omega
    refine Array.ext hsize fun i hi hi' => ?_
    have := hget i hi
    simpa [hi, hi'] using this.symm
  have tables (f : Nat → Item) : ∀ i, h.Holds (f i) ↔ h'.Holds (f i) :=
    fun i => ⟨a.holds _, b.holds _⟩
  obtain ⟨arrays, structs, maps, hosts⟩ := h
  obtain ⟨arrays', structs', maps', hosts'⟩ := h'
  obtain rfl : arrays = arrays' :=
    same #[] (tables fun i => .seq ⟨.array, i⟩) fun i => a.same (.seq ⟨.array, i⟩)
  obtain rfl : structs = structs' :=
    same #[] (tables fun i => .seq ⟨.struct, i⟩) fun i => a.same (.seq ⟨.struct, i⟩)
  obtain rfl : maps = maps' :=
    same .empty (tables fun i => .map ⟨i⟩) fun i => a.same (.map ⟨i⟩)
  obtain rfl : hosts = hosts' :=
    same _ (tables fun i => .host ⟨i⟩) fun i => a.same (.host ⟨i⟩)
  rfl

end

/-! ### Making new storage -/

theorem size_seqs_newSeq (h : Heap) (kind kind' : SeqKind) (xs : Array Item) :
    (h.seqs kind').size ≤ ((h.newSeq kind xs).2.seqs kind').size := by
  simp only [newSeq, seqs_mapSeqs]
  split
  · next hk => rw [Array.size_push, hk]; exact Nat.le_succ _
  · exact Nat.le_refl _

theorem extends_newSeq (h : Heap) (kind : SeqKind) (xs : Array Item) :
    h.Extends (h.newSeq kind xs).2 := by
  constructor
  · intro x hx
    cases x with
    | prim p => trivial
    | seq r => exact Nat.lt_of_lt_of_le hx (h.size_seqs_newSeq kind r.kind xs)
    | map r => simpa only [Holds, newSeq, maps_mapSeqs] using hx
    | host r => simpa only [Holds, newSeq, hosts_mapSeqs] using hx
  · intro x hx
    cases x with
    | prim p => trivial
    | seq r => exact elements_newSeq_of_holds kind xs hx
    | map r => exact h.entries_mapSeqs kind _ r
    | host r => simp only [SameAt, object, newSeq, hosts_mapSeqs]

theorem extends_newMap (h : Heap) (es : Entries Item) : h.Extends (h.newMap es).2 := by
  constructor
  · intro x hx
    cases x with
    | prim p => trivial
    | seq r => obtain ⟨kind, slot⟩ := r; cases kind <;> exact hx
    | map r =>
      have hx : r.slot < h.maps.size := hx
      simp only [Holds, newMap, Array.size_push]
      omega
    | host r => exact hx
  · intro x hx
    cases x with
    | prim p => trivial
    | seq r => obtain ⟨kind, slot⟩ := r; cases kind <;> rfl
    | map r =>
      have hx : r.slot < h.maps.size := hx
      simp [SameAt, entries, newMap, Array.getElem?_push, Nat.ne_of_lt hx]
    | host r => rfl

theorem holds_newSeq (h : Heap) (kind : SeqKind) (xs : Array Item) :
    (h.newSeq kind xs).2.Holds (.seq (h.newSeq kind xs).1) := by
  simp [Holds, newSeq]

theorem not_holds_newSeq (h : Heap) (kind : SeqKind) (xs : Array Item) :
    ¬ h.Holds (.seq (h.newSeq kind xs).1) :=
  Nat.lt_irrefl (h.seqs kind).size

theorem holds_newMap (h : Heap) (es : Entries Item) :
    (h.newMap es).2.Holds (.map (h.newMap es).1) := by
  simp [Holds, newMap]

theorem not_holds_newMap (h : Heap) (es : Entries Item) : ¬ h.Holds (.map (h.newMap es).1) :=
  Nat.lt_irrefl h.maps.size

/-! ### Changing storage -/

theorem holds_putSeq (h : Heap) (r : SeqRef) (xs : Array Item) {x : Item} :
    (h.putSeq r xs).Holds x ↔ h.Holds x := by
  cases x with
  | prim p => exact Iff.rfl
  | seq s =>
    simp only [Holds, putSeq, seqs_mapSeqs]
    split
    · next hk => rw [Array.size_setIfInBounds, ← hk]
    · exact Iff.rfl
  | map s => simp only [Holds, putSeq, maps_mapSeqs]
  | host s => simp only [Holds, putSeq, hosts_mapSeqs]

theorem holds_putMap (h : Heap) (m : MapRef) (es : Entries Item) {x : Item} :
    (h.putMap m es).Holds x ↔ h.Holds x := by
  cases x with
  | prim p => exact Iff.rfl
  | seq s => obtain ⟨kind, slot⟩ := s; cases kind <;> exact Iff.rfl
  | map s => simp only [Holds, putMap, Array.size_setIfInBounds]
  | host s => exact Iff.rfl

theorem sameAt_putSeq {h : Heap} {r : SeqRef} {x : Item} (xs : Array Item) (hx : x ≠ .seq r) :
    h.SameAt (h.putSeq r xs) x := by
  cases x with
  | prim p => trivial
  | seq s =>
    refine elements_putSeq_of_ne xs ?_
    rintro rfl
    exact hx rfl
  | map s => exact h.entries_mapSeqs r.kind _ s
  | host s => simp only [SameAt, object, putSeq, hosts_mapSeqs]

theorem sameAt_putMap (h : Heap) {m : MapRef} {x : Item} (es : Entries Item) (hx : x ≠ .map m) :
    h.SameAt (h.putMap m es) x := by
  cases x with
  | prim p => trivial
  | seq s => obtain ⟨kind, slot⟩ := s; cases kind <;> rfl
  | map s =>
    refine entries_putMap_of_ne es ?_
    rintro rfl
    exact hx rfl
  | host s => rfl

/-! ### Positions -/

theorem isCompound_seq (r : SeqRef) : (Item.seq r).kind.isCompound = true := by
  obtain ⟨kind, slot⟩ := r
  cases kind <;> rfl

section

variable {h h' h'' : Heap} {follow : Kind → Bool} {x c : Item}

theorem at?_nil (h : Heap) (follow : Kind → Bool) (x : Item) : h.at? follow x [] = some x := rfl

theorem at?_cons_of_follow (hx : follow x.kind = true) (i : Nat) (path : List Nat) :
    h.at? follow x (i :: path) = (h.contents x)[i]?.bind fun y => h.at? follow y path := by
  rw [at?, if_pos hx]

theorem at?_cons_eq_some (hx : follow x.kind = true) {i : Nat} {path : List Nat} :
    h.at? follow x (i :: path) = some c ↔
      ∃ y, (h.contents x)[i]? = some y ∧ h.at? follow y path = some c := by
  rw [at?_cons_of_follow hx, Option.bind_eq_some_iff]

/-- An item that is not followed has one position, its own. -/
theorem at?_eq_some_of_not_follow (hx : follow x.kind = false) {path : List Nat}
    (hc : h.at? follow x path = some c) : path = [] ∧ c = x := by
  cases path with
  | nil =>
    rw [at?_nil, Option.some_inj] at hc
    exact ⟨rfl, hc.symm⟩
  | cons i path =>
    rw [at?, if_neg (by simp [hx])] at hc
    exact absurd hc (by simp)

theorem unfolding_nil (h : Heap) (x : Item) : h.unfolding x [] = some (h.node x) := rfl

/-- Only containers hold anything, so an unfolding needs no test of the kind. -/
theorem unfolding_cons (h : Heap) (x : Item) (i : Nat) (path : List Nat) :
    h.unfolding x (i :: path) = (h.contents x)[i]?.bind fun y => h.unfolding y path := by
  have compound : x.kind.isCompound = true →
      h.unfolding x (i :: path) = (h.contents x)[i]?.bind fun y => h.unfolding y path := by
    intro hx
    rw [unfolding, at?_cons_of_follow hx, Option.map_bind]
    rfl
  cases x with
  | prim p => cases p <;> rfl
  | seq r => exact compound (isCompound_seq r)
  | map r => exact compound rfl
  | host r => rfl

/-- Positions that lie in held storage stay what they are when the heap grows. -/
theorem at?_of_extends (a : h.Extends h') {path : List Nat}
    (held : ∀ p c, h.at? follow x p = some c → follow c.kind = true → h.Holds c) :
    h'.at? follow x path = h.at? follow x path := by
  induction path generalizing x with
  | nil => rfl
  | cons i path ih =>
    by_cases hx : follow x.kind = true
    · have hsame := a.same x (held [] x rfl hx)
      rw [at?_cons_of_follow hx, at?_cons_of_follow hx, hsame.contents_eq]
      cases hy : (h.contents x)[i]? with
      | none => rfl
      | some y =>
        rw [Option.bind_some, Option.bind_some]
        apply ih
        intro p c hc
        exact held (i :: p) c ((at?_cons_eq_some hx).2 ⟨y, hy, hc⟩)
    · rw [at?, at?, if_neg hx, if_neg hx]

/-! ### What an item of a closed heap meets -/

theorem Closed.holds_contents (closed : h.Closed) : ∀ a ∈ h.contents x, h.Holds a := by
  cases x with
  | prim p => simp [Heap.contents]
  | host r => simp [Heap.contents]
  | seq r => exact closed.seq r
  | map r => exact closed.map r

theorem closed_empty : ({} : Heap).Closed where
  seq r x hx := by
    obtain ⟨_ | _, slot⟩ := r
    · exact absurd hx List.not_mem_nil
    · exact absurd hx List.not_mem_nil
  map _ _ hx := absurd hx List.not_mem_nil

/-- Items that lead to storage of the heap, and that hold nothing but one another. -/
structure ClosedOn (h : Heap) (P : Item → Prop) : Prop where
  holds : ∀ x, P x → h.Holds x
  contents : ∀ x, P x → ∀ a ∈ h.contents x, P a

theorem Closed.closedOn (closed : h.Closed) : h.ClosedOn h.Holds :=
  ⟨fun _ held => held, fun _ _ => closed.holds_contents⟩

/-- Nothing leads out of a closed heap. -/
theorem Closed.holds_at? (closed : h.Closed) (held : h.Holds x) {path : List Nat}
    (hc : h.at? follow x path = some c) : h.Holds c := by
  induction path generalizing x with
  | nil =>
    rw [at?_nil, Option.some_inj] at hc
    rwa [← hc]
  | cons i path ih =>
    by_cases hx : follow x.kind = true
    · obtain ⟨a, ha, hc⟩ := (at?_cons_eq_some hx).1 hc
      exact ih (closed.holds_contents a (List.mem_of_getElem? ha)) hc
    · rw [at?, if_neg hx] at hc
      exact absurd hc (by simp)

end

end Heap

end StackItems
