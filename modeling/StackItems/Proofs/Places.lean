/-
What a comparison pairs up, place by place.

A place of a container is the index of an element or the key of an entry.  A
comparison of two containers goes through the places of the first one and pairs what
the two hold there, whether they are structs or maps.

* `mem_places_iff`, `nodup_places` — the places of a container are those that hold
  something, each listed once;
* `opening_eq` — how a comparison of two items begins, in terms of places;
* `places_perm` — containers of one size of which the second holds something at every
  place of the first have the same places, perhaps in another order.

Design notes: what two containers hold at a place does not depend on the order in
which their places are listed, and this order is all in which two maps with the same
entries can differ.
-/
import StackItems.Proofs.Comparison

namespace StackItems

/-- A place in a container: of an element, or of the value under a key. -/
inductive Place where
  | index (i : Nat)
  | key (k : Primitive)

namespace Heap

/-- The places of a container, in the order in which a comparison goes through them. -/
def places (h : Heap) : Item → List Place
  | .seq r => (List.range (h.items r).length).map .index
  | .map r => (h.entries r).keys.map .key
  | _ => []

/-- What a container holds at a place. -/
def atPlace? (h : Heap) : Item → Place → Option Item
  | .seq r, .index i => (h.items r)[i]?
  | .map r, .key k => (h.entries r).get? k
  | _, _ => none

/-- What two containers hold at a place, if both hold something there. -/
def pairAt (h : Heap) (x y : Item) (p : Place) : Option (Item × Item) :=
  (h.atPlace? x p).bind fun a => (h.atPlace? y p).map (a, ·)

section

variable {h : Heap} {x y : Item} {p : Place}

/-! ### Places -/

theorem mem_places_iff : p ∈ h.places x ↔ ∃ a, h.atPlace? x p = some a := by
  cases x with
  | prim q => simp [places, atPlace?]
  | host r => simp [places, atPlace?]
  | seq r =>
    cases p with
    | index i =>
      simp only [places, atPlace?, List.mem_map, List.mem_range, Place.index.injEq,
        exists_eq_right, ← Option.isSome_iff_exists]
      simp
    | key k => simp [places, atPlace?]
  | map r =>
    cases p with
    | index i => simp [places, atPlace?]
    | key k =>
      simp only [places, atPlace?, List.mem_map, Place.key.injEq, exists_eq_right]
      rw [← not_iff_not, ← Entries.get?_eq_none_iff, Option.eq_none_iff_forall_ne_some]
      simp only [not_exists, ne_eq]

theorem length_places (h : Heap) (x : Item) : (h.places x).length = (h.contents x).length := by
  cases x <;> simp [places, Heap.contents, Entries.keys, Entries.values]

theorem nodup_places (h : Heap) (x : Item) : (h.places x).Nodup := by
  cases x with
  | prim q => exact .nil
  | host r => exact .nil
  | seq r =>
    refine List.nodup_range.map ?_
    intro i j hij
    injection hij
  | map r =>
    refine (h.entries r).nodup_keys.map ?_
    intro k l hkl
    injection hkl

/-- Containers of one size, of which the second holds something at every place of the
first, have the same places. -/
theorem places_perm (size : (h.places x).length = (h.places y).length)
    (subset : ∀ p ∈ h.places x, p ∈ h.places y) : (h.places x).Perm (h.places y) := by
  have hsub : (h.places x).Subperm (h.places y) :=
    List.subperm_of_subset (h.nodup_places x) subset
  exact hsub.perm_of_length_le (Nat.le_of_eq size.symm)

/-! ### Pairs -/

theorem pairAt_eq_some_iff {a b : Item} :
    h.pairAt x y p = some (a, b) ↔ h.atPlace? x p = some a ∧ h.atPlace? y p = some b := by
  rw [pairAt, Option.bind_eq_some_iff]
  constructor
  · intro hpair
    obtain ⟨a', ha, hb⟩ := hpair
    obtain ⟨b', hb', heq⟩ := Option.map_eq_some_iff.1 hb
    injection heq with h1 h2
    subst h1 h2
    exact ⟨ha, hb'⟩
  · intro hpair
    exact ⟨a, hpair.1, by rw [hpair.2, Option.map_some]⟩

theorem pairAt_swap (h : Heap) (x y : Item) (p : Place) :
    h.pairAt y x p = (h.pairAt x y p).map Prod.swap := by
  rw [pairAt, pairAt]
  cases h.atPlace? x p with
  | none => cases h.atPlace? y p <;> rfl
  | some a => cases h.atPlace? y p <;> rfl

theorem zip_eq_map_pairAt {r s : SeqRef} (size : (h.items r).length = (h.items s).length) :
    ((h.items r).zip (h.items s)).map some
      = (h.places (.seq r)).map (h.pairAt (.seq r) (.seq s)) := by
  apply List.ext_getElem
  · simp [places, size]
  · intro i hi hi'
    have hr : i < (h.items r).length := by simpa [places] using hi'
    have hs : i < (h.items s).length := by omega
    simp [places, pairAt, atPlace?, List.getElem?_eq_getElem hr, List.getElem?_eq_getElem hs]

theorem mapPairs_eq_map_pairAt (h : Heap) (r s : MapRef) :
    h.mapPairs r s = (h.places (.map r)).map (h.pairAt (.map r) (.map s)) := by
  rw [mapPairs, places, Entries.keys, List.map_map, List.map_map]
  apply List.map_congr_left
  intro entry hentry
  have ha : (h.entries r).get? entry.1 = some entry.2 := Entries.get?_eq_some_iff.2 hentry
  simp only [Function.comp, pairAt, atPlace?, ha, Option.bind_some]

theorem kind_eq_of_node_eq (same : h.node x = h.node y) : x.kind = y.kind := by
  cases x with
  | prim q => cases y <;> simp_all [node]
  | host r => cases y <;> simp_all [node, Item.kind]
  | seq r => cases y <;> simp_all [node, Item.kind]
  | map r => cases y <;> simp_all [node, Item.kind]

/-- Containers that show the same, apart from what they hold, are compared in the order
in which they hold it. -/
theorem map_pairAt_eq_zip (same : h.node x = h.node y) :
    (h.places x).map (h.pairAt x y) = ((h.contents x).zip (h.contents y)).map some := by
  cases x with
  | prim q => rfl
  | host r => rfl
  | seq r =>
    cases y with
    | prim q => injection same
    | host s => injection same
    | map s => injection same
    | seq s =>
      injection same with hkind hlen
      exact (zip_eq_map_pairAt hlen).symm
  | map r =>
    cases y with
    | prim q => injection same
    | host s => injection same
    | seq s => injection same
    | map s =>
      injection same with hkeys
      have hkeys : (h.entries r).toList.map Prod.fst = (h.entries s).toList.map Prod.fst := hkeys
      have hlen : (h.entries r).toList.length = (h.entries s).toList.length := by
        have hlen := congrArg List.length hkeys
        rwa [List.length_map, List.length_map] at hlen
      rw [← mapPairs_eq_map_pairAt, mapPairs]
      apply List.ext_getElem
      · simp [Heap.contents, Entries.values, hlen]
      · intro i hi hi'
        have hr : i < (h.entries r).toList.length := by simpa using hi
        have hs : i < (h.entries s).toList.length := by omega
        have hkey : (h.entries r).toList[i].1 = (h.entries s).toList[i].1 := by
          have hkey := congrArg (·[i]?) hkeys
          simpa [List.getElem?_eq_getElem hr, List.getElem?_eq_getElem hs] using hkey
        have hget : (h.entries s).get? (h.entries r).toList[i].1
            = some (h.entries s).toList[i].2 := by
          rw [hkey, Entries.get?_eq_some_iff]
          exact List.getElem_mem hs
        simp [Heap.contents, Entries.values, hget]

/-! ### How a comparison begins -/

theorem isCompared_cases (hx : x.kind.isCompared = true) :
    (∃ r, x = .seq r ∧ r.kind = .struct) ∨ ∃ r, x = .map r := by
  cases x with
  | prim q => cases q <;> exact absurd hx Bool.false_ne_true
  | host r => exact absurd hx Bool.false_ne_true
  | map r => exact .inr ⟨r, rfl⟩
  | seq r =>
    obtain ⟨kind, slot⟩ := r
    cases kind with
    | array => exact absurd hx Bool.false_ne_true
    | struct => exact .inl ⟨_, rfl, rfl⟩

theorem kind_of_struct {r : SeqRef} (hr : r.kind = .struct) : (Item.seq r).kind = .struct := by
  rw [Item.kind, hr]
  rfl

/-- Structs of one size have the same places in the same order. -/
theorem places_eq_of_structs (hx : x.kind = .struct) (hy : y.kind = .struct)
    (size : (h.places x).length = (h.places y).length) : h.places y = h.places x := by
  have seq_of_kind : ∀ z : Item, z.kind = .struct → ∃ r, z = .seq r := by
    intro z hz
    rcases isCompared_cases (x := z) (by rw [hz]; rfl) with ⟨r, rfl, -⟩ | ⟨r, rfl⟩
    · exact ⟨r, rfl⟩
    · exact absurd hz (by simp [Item.kind])
  obtain ⟨r, rfl⟩ := seq_of_kind x hx
  obtain ⟨s, rfl⟩ := seq_of_kind y hy
  simp only [places, List.length_map, List.length_range] at size ⊢
  rw [size]

theorem opening_self (h : Heap) (x : Item) : h.opening x x = .told true := by
  cases x <;> simp [opening]

/-- What is told at once is whether two items are the same. -/
theorem eq_iff_of_told {equal : Bool} (opens : h.opening x y = .told equal) :
    equal = true ↔ x = y := by
  rw [opening.eq_def] at opens
  split at opens
  · injection opens with ho
    rw [← ho, beq_iff_eq, Item.prim.injEq]
  · injection opens with ho
    rw [← ho, beq_iff_eq, Item.host.injEq]
  · split at opens
    · split at opens
      · next hrs =>
        injection opens with ho
        simp [← ho, hrs]
      · injection opens
    · injection opens with ho
      rw [← ho, beq_iff_eq, Item.seq.injEq]
  · split at opens
    · next hrs =>
      injection opens with ho
      simp [← ho, hrs]
    · injection opens
  · next hprim hhost hseq hmap =>
    injection opens with ho
    have hxy : x ≠ y := by
      intro hxy
      subst hxy
      cases x with
      | prim q => exact hprim q q rfl rfl
      | host r => exact hhost r r rfl rfl
      | seq r => exact hseq r r rfl rfl
      | map r => exact hmap r r rfl rfl
    simp [← ho, hxy]

/-- Two containers of one kind that are compared by what they hold are entered. -/
theorem opening_of_kind_eq (hxy : x ≠ y) (same : x.kind = y.kind)
    (hx : x.kind.isCompared = true) :
    h.opening x y = .entered (if (h.places x).length = (h.places y).length
      then some ((h.places x).map (h.pairAt x y)) else none) := by
  have hy : y.kind.isCompared = true := same ▸ hx
  rcases isCompared_cases hx with ⟨r, rfl, hr⟩ | ⟨r, rfl⟩
  · rcases isCompared_cases hy with ⟨s, rfl, hs⟩ | ⟨s, rfl⟩
    · have hrs : r ≠ s := fun hrs => hxy (congrArg Item.seq hrs)
      have hlen : ∀ q : SeqRef, (h.places (.seq q)).length = (h.elements q).size := by
        intro q
        simp [places, items]
      rw [opening, if_pos ⟨hr, hs⟩, if_neg hrs, hlen, hlen]
      by_cases size : (h.elements r).size = (h.elements s).size
      · rw [if_pos size, if_pos size, ← zip_eq_map_pairAt (by simpa [items] using size)]
      · rw [if_neg size, if_neg size]
    · rw [kind_of_struct hr] at same
      exact absurd same (by simp [Item.kind])
  · rcases isCompared_cases hy with ⟨s, rfl, hs⟩ | ⟨s, rfl⟩
    · rw [kind_of_struct hs] at same
      exact absurd same (by simp [Item.kind])
    · have hrs : r ≠ s := fun hrs => hxy (congrArg Item.map hrs)
      have hlen : ∀ q : MapRef, (h.places (.map q)).length = (h.entries q).size := by
        intro q
        simp [places, Entries.keys, Entries.size]
      rw [opening, if_neg hrs, hlen, hlen, mapPairs_eq_map_pairAt]

/-- A comparison of an item with itself is settled at once, containers that are
compared by what they hold are entered if they are of one kind, and any other two
items differ. -/
theorem opening_eq (h : Heap) (x y : Item) :
    h.opening x y =
      if x = y then .told true
      else if x.kind = y.kind ∧ x.kind.isCompared = true then
        .entered (if (h.places x).length = (h.places y).length
          then some ((h.places x).map (h.pairAt x y)) else none)
      else .told false := by
  by_cases hxy : x = y
  · rw [if_pos hxy, hxy, opening_self]
  · rw [if_neg hxy]
    by_cases hk : x.kind = y.kind ∧ x.kind.isCompared = true
    · rw [if_pos hk, opening_of_kind_eq hxy hk.1 hk.2]
    · rw [if_neg hk]
      cases hopen : h.opening x y with
      | told equal =>
        have hne : equal ≠ true := fun he => hxy ((eq_iff_of_told hopen).1 he)
        rw [Bool.eq_false_iff.2 hne]
      | entered pairs =>
        exfalso
        apply hk
        rcases opening_cases hopen with ⟨r, s, rfl, rfl, hr, hs, -, -⟩ | ⟨r, s, rfl, rfl, -, -⟩
        · rw [kind_of_struct hr, kind_of_struct hs]
          exact ⟨rfl, rfl⟩
        · exact ⟨rfl, rfl⟩

theorem entered_some_iff {pairs : List (Option (Item × Item))} :
    h.opening x y = .entered (some pairs) ↔
      x ≠ y ∧ x.kind = y.kind ∧ x.kind.isCompared = true ∧
        (h.places x).length = (h.places y).length ∧
        pairs = (h.places x).map (h.pairAt x y) := by
  rw [opening_eq]
  by_cases hxy : x = y
  · simp [hxy]
  · by_cases hk : x.kind = y.kind ∧ x.kind.isCompared = true
    · by_cases size : (h.places x).length = (h.places y).length
      · rw [if_neg hxy, if_pos hk, if_pos size]
        constructor
        · intro hopen
          injection hopen with hopen
          injection hopen with hopen
          exact ⟨hxy, hk.1, hk.2, size, hopen.symm⟩
        · intro hopen
          rw [hopen.2.2.2.2]
      · rw [if_neg hxy, if_pos hk, if_neg size]
        simp [size]
    · rw [if_neg hxy, if_neg hk]
      constructor
      · intro hopen
        injection hopen
      · intro hopen
        exact absurd ⟨hopen.2.1, hopen.2.2.1⟩ hk

/-! ### Comparisons that find two items equal -/

section

variable {n d : Nat}

theorem settles_self_iff : h.Settles (.pair x x) true n d ↔ n = 0 ∧ d = 0 := by
  rw [settles_told_iff (h.opening_self x)]
  simp

/-- Two different items are found equal if they are containers of one kind and size and
what they hold is found equal place by place. -/
theorem settles_true_iff (hxy : x ≠ y) :
    h.Settles (.pair x y) true n d ↔
      x.kind = y.kind ∧ x.kind.isCompared = true ∧
        (h.places x).length = (h.places y).length ∧
        ∃ d', h.Settles (.all ((h.places x).map (h.pairAt x y))) true n d' ∧ d = d' + 1 := by
  constructor
  · intro hs
    cases hs with
    | told opens => exact absurd ((eq_iff_of_told opens).1 rfl) hxy
    | entered opens inside =>
      obtain ⟨-, same, hx, size, rfl⟩ := entered_some_iff.1 opens
      exact ⟨same, hx, size, _, inside, rfl⟩
  · intro hs
    obtain ⟨same, hx, size, d', inside, rfl⟩ := hs
    exact .entered (entered_some_iff.2 ⟨hxy, same, hx, size, rfl⟩) inside

/-- If what two containers hold is found equal at some places, then the second holds
something at each of them. -/
theorem mem_places_of_settles {l : List Place}
    (hs : h.Settles (.all (l.map (h.pairAt x y))) true n d) : ∀ p ∈ l, p ∈ h.places y := by
  induction l generalizing n d with
  | nil => simp
  | cons q l ih =>
    rw [List.map_cons] at hs
    cases hpair : h.pairAt x y q with
    | none =>
      rw [hpair] at hs
      cases hs
    | some pair =>
      rw [hpair] at hs
      cases hs with
      | next first others =>
        intro p hp
        rcases List.mem_cons.1 hp with hpq | hp
        · rw [hpq]
          exact mem_places_iff.2 ⟨_, (pairAt_eq_some_iff.1 hpair).2⟩
        · exact ih others p hp

end

end

end Heap

end StackItems
