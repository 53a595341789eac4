/-
Items in storage of their own.

* `Separate` — an item all of whose followed containers are new storage, each met at
  one position only; `Separate.node` builds one out of the items that it holds;
* `Makes` — an item that was made of new storage only, for a purpose;
  `MakesAll.concat` makes one after the other.

Design notes: which containers are followed is a parameter, as it is for positions,
so loading an item and copying a struct share everything here.
-/
import StackItems.Proofs.Position

namespace StackItems.Heap

/-! ### Storage of one's own -/

/-- Every followed container of an item is storage that was made between the two
heaps, and is met at one position only. -/
structure Separate (follow : Kind → Bool) (h h' : Heap) (x : Item) : Prop where
  fresh : ∀ (p : List Nat) (c : Item), h'.at? follow x p = some c → follow c.kind = true →
    ¬ h.Holds c ∧ h'.Holds c
  single : ∀ (p q : List Nat) (c : Item), h'.at? follow x p = some c →
    h'.at? follow x q = some c → follow c.kind = true → p = q

/-- The same for the items of a list, which also share nothing among themselves. -/
structure SeparateAll (follow : Kind → Bool) (h h' : Heap) (xs : List Item) : Prop where
  fresh : ∀ (i : Nat) (x : Item) (p : List Nat) (c : Item), xs[i]? = some x →
    h'.at? follow x p = some c → follow c.kind = true → ¬ h.Holds c ∧ h'.Holds c
  single : ∀ (i j : Nat) (x y : Item) (p q : List Nat) (c : Item), xs[i]? = some x →
    xs[j]? = some y → h'.at? follow x p = some c → h'.at? follow y q = some c →
    follow c.kind = true → i = j ∧ p = q

section

variable {h h' h'' : Heap} {follow : Kind → Bool} {x c : Item} {xs : List Item}

theorem SeparateAll.at?_eq (s : SeparateAll follow h h' xs) (a : h'.Extends h'') {i : Nat}
    (hx : xs[i]? = some x) (path : List Nat) :
    h''.at? follow x path = h'.at? follow x path :=
  at?_of_extends a fun p c hc hf => (s.fresh i x p c hx hc hf).2

theorem Separate.of_not_follow (hx : follow x.kind = false) : Separate follow h h x where
  fresh p c hc hf := by
    obtain ⟨-, rfl⟩ := at?_eq_some_of_not_follow hx hc
    exact absurd hf (by simp [hx])
  single p q c hp hq _ := by
    obtain ⟨rfl, -⟩ := at?_eq_some_of_not_follow hx hp
    obtain ⟨rfl, -⟩ := at?_eq_some_of_not_follow hx hq
    rfl

theorem SeparateAll.nil : SeparateAll follow h h' [] where
  fresh i x p c hx := absurd hx (by simp)
  single i j x y p q c hx := absurd hx (by simp)

/-- An element of a list behind which one more was put is an old element or that one. -/
theorem getElem?_concat_eq_some {α : Type} {xs : List α} {x y : α} {i : Nat} :
    (xs ++ [x])[i]? = some y ↔ xs[i]? = some y ∨ i = xs.length ∧ x = y := by
  rcases Nat.lt_trichotomy i xs.length with hi | rfl | hi
  · rw [List.getElem?_append_left hi]
    simp [Nat.ne_of_lt hi]
  · simp
  · have hlen : (xs ++ [x]).length ≤ i := by simp; omega
    rw [List.getElem?_eq_none hlen, List.getElem?_eq_none (by omega : xs.length ≤ i)]
    simp [Nat.ne_of_gt hi]

theorem SeparateAll.concat (s : SeparateAll follow h h' xs) (a : h.Extends h')
    (t : Separate follow h' h'' x) (b : h'.Extends h'') :
    SeparateAll follow h h'' (xs ++ [x]) := by
  constructor
  · intro i y p c hy hc hf
    rcases getElem?_concat_eq_some.1 hy with hy | ⟨-, rfl⟩
    · rw [s.at?_eq b hy] at hc
      obtain ⟨hnew, hheld⟩ := s.fresh i y p c hy hc hf
      exact ⟨hnew, b.holds c hheld⟩
    · obtain ⟨hnew, hheld⟩ := t.fresh p c hc hf
      exact ⟨fun hold => hnew (a.holds c hold), hheld⟩
  · -- The containers of the old elements are held by `h'`, those of the new one are not.
    have apart : ∀ (i : Nat) (y : Item) (p q : List Nat) (c : Item), xs[i]? = some y →
        h''.at? follow y p = some c → h''.at? follow x q = some c →
        follow c.kind = true → False := by
      intro i y p q c hy hp hq hf
      rw [s.at?_eq b hy] at hp
      exact (t.fresh q c hq hf).1 (s.fresh i y p c hy hp hf).2
    intro i j y z p q c hy hz hp hq hf
    rcases getElem?_concat_eq_some.1 hy with hy' | ⟨hi, rfl⟩
    · rcases getElem?_concat_eq_some.1 hz with hz' | ⟨-, rfl⟩
      · rw [s.at?_eq b hy'] at hp
        rw [s.at?_eq b hz'] at hq
        exact s.single i j y z p q c hy' hz' hp hq hf
      · exact (apart i y p q c hy' hp hq hf).elim
    · rcases getElem?_concat_eq_some.1 hz with hz' | ⟨hj, rfl⟩
      · exact (apart j z q p c hz' hq hp hf).elim
      · exact ⟨hi.trans hj.symm, t.single p q c hp hq hf⟩

/-- A new container of separate items is separate. -/
theorem Separate.node (s : SeparateAll follow h h' xs) (a : h.Extends h') (b : h'.Extends h'')
    (hx : follow x.kind = true) (contents : h''.contents x = xs) (new : ¬ h'.Holds x)
    (held : h''.Holds x) : Separate follow h h'' x := by
  have below : ∀ i p c, h''.at? follow x (i :: p) = some c →
      ∃ y, xs[i]? = some y ∧ h'.at? follow y p = some c := by
    intro i p c hc
    obtain ⟨y, hy, hc⟩ := (at?_cons_eq_some hx).1 hc
    rw [contents] at hy
    rw [s.at?_eq b hy] at hc
    exact ⟨y, hy, hc⟩
  -- The container itself is not met below itself, for `h'` holds all that is below.
  have apart : ∀ i p, h''.at? follow x (i :: p) = some x → False := by
    intro i p hc
    obtain ⟨y, hy, hc⟩ := below i p x hc
    exact new (s.fresh i y p x hy hc hx).2
  constructor
  · intro p c hc hf
    cases p with
    | nil =>
      rw [at?_nil, Option.some_inj] at hc
      subst hc
      exact ⟨fun hold => new (a.holds x hold), held⟩
    | cons i p =>
      obtain ⟨y, hy, hc⟩ := below i p c hc
      obtain ⟨hnew, hheld⟩ := s.fresh i y p c hy hc hf
      exact ⟨hnew, b.holds c hheld⟩
  · intro p q c hp hq hf
    cases p with
    | nil =>
      rw [at?_nil, Option.some_inj] at hp
      subst hp
      cases q with
      | nil => rfl
      | cons j q => exact (apart j q hq).elim
    | cons i p =>
      cases q with
      | nil =>
        rw [at?_nil, Option.some_inj] at hq
        subst hq
        exact (apart i p hp).elim
      | cons j q =>
        obtain ⟨y, hy, hp⟩ := below i p c hp
        obtain ⟨z, hz, hq⟩ := below j q c hq
        obtain ⟨rfl, rfl⟩ := s.single i j y z p q c hy hz hp hq hf
        rfl

theorem Separate.newSeq {kind : SeqKind} {xs : Array Item} (hk : follow kind.kind = true)
    (s : SeparateAll follow h h' xs.toList) (a : h.Extends h') :
    Separate follow h (h'.newSeq kind xs).2 (.seq (h'.newSeq kind xs).1) := by
  refine .node s a (h'.extends_newSeq kind xs) hk ?_ (h'.not_holds_newSeq kind xs)
    (h'.holds_newSeq kind xs)
  rw [Heap.contents, items, elements_newSeq_self]

theorem Separate.newMap {es : Entries Item} (hk : follow Kind.map = true)
    (s : SeparateAll follow h h' es.values) (a : h.Extends h') :
    Separate follow h (h'.newMap es).2 (.map (h'.newMap es).1) := by
  refine .node s a (h'.extends_newMap es) hk ?_ (h'.not_holds_newMap es) (h'.holds_newMap es)
  rw [Heap.contents, entries_newMap_self]

end

/-! ### Items that were made -/

/-- An item that was made between two heaps so that `R` says what it is: everything
older is as it was, and all followed storage of the item is new and its own. -/
structure Makes {τ : Type} (follow : Kind → Bool) (R : Heap → Item → τ → Prop) (h h' : Heap)
    (x : Item) (t : τ) : Prop where
  grown : h.Extends h'
  separate : Separate follow h h' x
  shows : R h' x t

/-- The same for several items, which share nothing among themselves. -/
structure MakesAll {τ : Type} (follow : Kind → Bool) (R : Heap → Item → τ → Prop) (h h' : Heap)
    (xs : List Item) (ts : List τ) : Prop where
  grown : h.Extends h'
  separate : SeparateAll follow h h' xs
  size : xs.length = ts.length
  shows : ∀ (i : Nat) (x : Item) (t : τ), xs[i]? = some x → ts[i]? = some t → R h' x t

/-- What `R` says of an item depends on followed storage only, so it stays true as
long as that storage is held. -/
def Lasts {τ : Type} (follow : Kind → Bool) (R : Heap → Item → τ → Prop) : Prop :=
  ∀ (h h' : Heap) (x : Item) (t : τ), R h x t → h.Extends h' →
    (∀ p c, h.at? follow x p = some c → follow c.kind = true → h.Holds c) → R h' x t

section

variable {τ : Type} {follow : Kind → Bool} {R : Heap → Item → τ → Prop} {h h' h'' : Heap}
  {x : Item} {t : τ} {xs : List Item} {ts : List τ}

theorem MakesAll.nil (h : Heap) : MakesAll follow R h h [] [] where
  grown := .refl h
  separate := .nil
  size := rfl
  shows i x t hx := absurd hx (by simp)

theorem MakesAll.shows_of_extends (m : MakesAll follow R h h' xs ts) (lasts : Lasts follow R)
    (a : h'.Extends h'') (i : Nat) (x : Item) (t : τ) (hx : xs[i]? = some x)
    (ht : ts[i]? = some t) : R h'' x t :=
  lasts h' h'' x t (m.shows i x t hx ht) a fun p c hc hf => (m.separate.fresh i x p c hx hc hf).2

theorem MakesAll.concat (m : MakesAll follow R h h' xs ts) (lasts : Lasts follow R)
    (n : Makes follow R h' h'' x t) : MakesAll follow R h h'' (xs ++ [x]) (ts ++ [t]) where
  grown := m.grown.trans n.grown
  separate := m.separate.concat m.grown n.separate n.grown
  size := by rw [List.length_append, List.length_append, m.size]; rfl
  shows i y s hy hs := by
    rcases getElem?_concat_eq_some.1 hy with hy' | ⟨hi, rfl⟩
    · obtain ⟨hlt, -⟩ := List.getElem?_eq_some_iff.1 hy'
      rw [List.getElem?_append_left (by rw [← m.size]; exact hlt)] at hs
      exact m.shows_of_extends lasts n.grown i y s hy' hs
    · rw [hi, m.size, List.getElem?_concat_length, Option.some_inj] at hs
      subst hs
      exact n.shows

end

end StackItems.Heap
