/-
What is stored of equal items.

Equal items need not be stored as the same bytes: the entries of equal maps may come in
different orders, and are stored in their order.  All else about their stored forms is
the same, for neither the number of the items, nor their depth, nor the number of bytes
depends on the order of entries.

* `StoredAlike` — trees of one size whose forms have one length and which are storable
  within the same limits;
* `Alike.exists_tree` — if an item has a tree, every item that it equals has one that is
  stored alike;
* `Meets`, `InOrder` — the pairs that a comparison comes to, and that the maps among them
  list their keys in one order;
* `serialize_congr` — **equal items are stored within the same limits and in the same
  number of bytes, and in the same bytes if their maps list their keys in one order.**

Design notes: equality looks at identity and stops there, while storing goes on.  Where
the comparison stops, both items are the same, and so are their trees.
-/
import Mathlib.Algebra.BigOperators.Group.List.Basic
import StackItems.Proofs.Bisimilarity
import StackItems.Proofs.RoundTrip
import StackItems.Proofs.Symmetry

namespace StackItems

/-- If there is something for the element at each index of a list, there is a list of such
things. -/
theorem exists_list_of_getElem? {α β : Type} (as : List α) {P : Nat → α → β → Prop}
    (each : ∀ (i : Nat) (a : α), as[i]? = some a → ∃ b, P i a b) :
    ∃ bs : List β, as.length = bs.length ∧
      ∀ (i : Nat) (a : α) (b : β), as[i]? = some a → bs[i]? = some b → P i a b := by
  induction as generalizing P with
  | nil => exact ⟨[], rfl, fun i a b ha => absurd ha (by simp)⟩
  | cons a as ih =>
    obtain ⟨b, hb⟩ := each 0 a rfl
    obtain ⟨bs, size, hbs⟩ := ih (P := fun i => P (i + 1)) fun i => each (i + 1)
    refine ⟨b :: bs, by rw [List.length_cons, List.length_cons, size], ?_⟩
    intro i a' b' ha hb'
    cases i with
    | zero =>
      rw [List.getElem?_cons_zero, Option.some_inj] at ha hb'
      rwa [← ha, ← hb']
    | succ i => exact hbs i a' b' ha hb'

namespace Tree

/-! ### Trees that are stored alike -/

/-- Two trees have one size, forms of one length, and the second is storable wherever the
first is. -/
structure StoredAlike (t t' : Tree) : Prop where
  size_eq : t.size = t'.size
  length_eq : t.encode.length = t'.encode.length
  storable : ∀ (limits : Limits) (depth : Nat), Storable limits depth t → Storable limits depth t'

/-- What an entry takes of the room in storage: its key, and the size and the length of its
value. -/
def weight (e : Primitive × Tree) : Primitive × Nat × Nat :=
  (e.1, e.2.size, e.2.encode.length)

theorem sizeAll_eq_sum (ts : List Tree) : sizeAll ts = (ts.map size).sum := by
  induction ts with
  | nil => rfl
  | cons t ts ih => rw [sizeAll, ih, List.map_cons, List.sum_cons]

theorem length_encodeAll_eq_sum (ts : List Tree) :
    (encodeAll ts).length = (ts.map fun t => t.encode.length).sum := by
  induction ts with
  | nil => rfl
  | cons t ts ih => rw [encodeAll, List.length_append, ih, List.map_cons, List.sum_cons]

theorem sizeEntries_eq_sum (es : List (Primitive × Tree)) :
    sizeEntries es = ((es.map weight).map fun w => 1 + w.2.1).sum := by
  induction es with
  | nil => rfl
  | cons e es ih =>
    rw [sizeEntries_cons, ih, List.map_cons, List.map_cons, List.sum_cons]
    rfl

theorem length_encodeEntries_eq_sum (es : List (Primitive × Tree)) :
    (encodeEntries es).length = ((es.map weight).map fun w => w.1.encode.length + w.2.2).sum := by
  induction es with
  | nil => rfl
  | cons e es ih =>
    obtain ⟨k, t⟩ := e
    rw [encodeEntries, List.length_append, List.length_append, ih, List.map_cons, List.map_cons,
      List.sum_cons, weight, Nat.add_assoc]

namespace StoredAlike

theorem refl (t : Tree) : StoredAlike t t := ⟨rfl, rfl, fun _ _ storable => storable⟩

/-- Sequences of trees that are stored alike index by index are stored alike. -/
theorem seq {kind : SeqKind} {ts ts' : List Tree} (size : ts.length = ts'.length)
    (each : ∀ (i : Nat) (t t' : Tree), ts[i]? = some t → ts'[i]? = some t' → StoredAlike t t') :
    StoredAlike (.seq kind ts) (.seq kind ts') where
  size_eq := by
    have sizes : ts.map Tree.size = ts'.map Tree.size :=
      map_eq_map_of_getElem? size fun i t t' ht ht' => (each i t t' ht ht').size_eq
    rw [Tree.size, Tree.size, sizeAll_eq_sum, sizeAll_eq_sum, sizes]
  length_eq := by
    have lengths : (ts.map fun t => t.encode.length) = ts'.map fun t => t.encode.length :=
      map_eq_map_of_getElem? size fun i t t' ht ht' => (each i t t' ht ht').length_eq
    rw [encode, encode, List.length_cons, List.length_cons, List.length_append,
      List.length_append, length_encodeAll_eq_sum, length_encodeAll_eq_sum, lengths, size]
  storable limits depth storable := by
    cases storable with
    | seq room below =>
      refine .seq room (forall_mem_of_getElem? size fun i t t' ht ht' => ?_)
      exact (each i t t' ht ht').storable limits _ (below t (List.mem_of_getElem? ht))

/-- Maps with the same keys and values that are stored alike under each of them are stored
alike, in whatever order the entries come. -/
theorem map {es es' : List (Primitive × Tree)} (size : es.length = es'.length)
    (distinct : (es'.map Prod.fst).Nodup)
    (each : ∀ e' ∈ es', ∃ e ∈ es, e.1 = e'.1 ∧ StoredAlike e.2 e'.2) :
    StoredAlike (.map es) (.map es') := by
  -- Every weight of the second map is one of the first, and none of them occurs twice.
  have perm : (es'.map weight).Perm (es.map weight) := by
    have nodup : (es'.map weight).Nodup := by
      apply List.Nodup.of_map Prod.fst
      rwa [List.map_map]
    have subset : es'.map weight ⊆ es.map weight := by
      intro w hw
      obtain ⟨e', he', rfl⟩ := List.mem_map.1 hw
      obtain ⟨e, he, hkey, alike⟩ := each e' he'
      refine List.mem_map.2 ⟨e, he, ?_⟩
      rw [weight, weight, hkey, alike.size_eq, alike.length_eq]
    apply (List.subperm_of_subset nodup subset).perm_of_length_le
    rw [List.length_map, List.length_map, size]
  constructor
  · rw [Tree.size, Tree.size, sizeEntries_eq_sum, sizeEntries_eq_sum, (perm.map _).sum_eq]
  · rw [encode, encode, List.length_cons, List.length_cons, List.length_append,
      List.length_append, length_encodeEntries_eq_sum, length_encodeEntries_eq_sum,
      (perm.map _).sum_eq, size]
  · intro limits depth storable
    cases storable with
    | map room _ small below =>
      refine .map room distinct ?_ ?_
      · intro e' he'
        obtain ⟨e, he, hkey, -⟩ := each e' he'
        rw [← hkey]
        exact small e he
      · intro e' he'
        obtain ⟨e, he, -, alike⟩ := each e' he'
        exact alike.storable limits _ (below e he)

end StoredAlike

end Tree

namespace Heap

open StackItems.Tree (StoredAlike)

section

variable {h : Heap} {x y a b : Item} {t : Tree} {n d : Nat}

/-! ### The trees of equal items -/

/-- If an item has a tree, then every item that it equals has one that is stored alike. -/
theorem Alike.exists_tree (alike : h.Alike x y) (hu : h.Unfolds x t) :
    ∃ t', h.Unfolds y t' ∧ t.StoredAlike t' := by
  induction alike generalizing t with
  | prim p => exact ⟨t, hu, .refl t⟩
  | host r => exact ⟨t, hu, .refl t⟩
  | seq r => exact ⟨t, hu, .refl t⟩
  | map r => exact ⟨t, hu, .refl t⟩
  | @elements r s hr hs size each ih =>
    cases hu with
    | @seq _ kind ts same size' below =>
      obtain ⟨ts', size'', hts'⟩ := exists_list_of_getElem? (h.items s)
          (P := fun i b t' => h.Unfolds b t' ∧ ∀ t, ts[i]? = some t → t.StoredAlike t') (by
        intro i b hb
        obtain ⟨a, ha⟩ := exists_getElem? size hb
        obtain ⟨t, ht⟩ := exists_getElem? size'.symm ha
        obtain ⟨t', hu', alike⟩ := ih i a b ha hb (below i a t ha ht)
        refine ⟨t', hu', fun t₀ ht₀ => ?_⟩
        rw [ht, Option.some_inj] at ht₀
        rwa [← ht₀])
      refine ⟨.seq kind ts', .seq ?_ size'' fun i b t' hb ht' => (hts' i b t' hb ht').1, ?_⟩
      · rw [← same, hr, hs]
      · refine .seq (by omega) fun i t t' ht ht' => ?_
        obtain ⟨b, hb⟩ := exists_getElem? size'' ht'
        exact (hts' i b t' hb ht').2 t ht
  | @entries r s keys each ih =>
    cases hu with
    | @map _ es size keys' below =>
      -- Each entry of the second map has one of the first under its key.
      obtain ⟨es', size', hes'⟩ := exists_list_of_getElem? (h.entries s).toList
          (P := fun _ b (e' : Primitive × Tree) => b.1 = e'.1 ∧ h.Unfolds b.2 e'.2 ∧
            ∃ e ∈ es, e.1 = e'.1 ∧ e.2.StoredAlike e'.2) (by
        intro i b hb
        have hmem := List.mem_of_getElem? hb
        have hkey : b.1 ∈ (h.entries r).keys := (keys b.1).2 (List.mem_map_of_mem hmem)
        obtain ⟨a, ha, hab⟩ := List.mem_map.1 hkey
        obtain ⟨j, hj⟩ := List.getElem?_of_mem ha
        obtain ⟨e, he⟩ := exists_getElem? size.symm hj
        have hget : (h.entries r).get? b.1 = some a.2 :=
          Entries.get?_eq_some_iff.2 (by rw [← hab]; exact ha)
        have hget' : (h.entries s).get? b.1 = some b.2 := Entries.get?_eq_some_iff.2 hmem
        obtain ⟨t', hu', alike⟩ := ih b.1 a.2 b.2 hget hget' (below j a e hj he)
        exact ⟨(b.1, t'), rfl, hu', e, List.mem_of_getElem? he,
          (keys' j a e hj he).symm.trans hab, alike⟩)
      have samekeys : (h.entries s).keys = es'.map Prod.fst :=
        map_eq_map_of_getElem? size' fun i b e' hb he' => (hes' i b e' hb he').1
      refine ⟨.map es', .map size' (fun i b e' hb he' => (hes' i b e' hb he').1)
        (fun i b e' hb he' => (hes' i b e' hb he').2.1), ?_⟩
      refine .map ?_ (samekeys ▸ (h.entries s).nodup_keys)
        (forall_mem_of_getElem? size' fun i b e' hb he' => (hes' i b e' hb he').2.2)
      have perm : (h.entries r).keys.Perm (h.entries s).keys :=
        (List.perm_ext_iff_of_nodup (h.entries r).nodup_keys (h.entries s).nodup_keys).2 keys
      have hlen := perm.length_eq
      rw [Entries.keys, Entries.keys, List.length_map, List.length_map] at hlen
      omega

/-! ### The pairs that a comparison comes to -/

/-- The pairs that a comparison of two items comes to, if nothing cuts it short: the two
themselves, and the pairs in any two containers that it enters. -/
inductive Meets (h : Heap) (x y : Item) : Item → Item → Prop where
  | start : Meets h x y x y
  | inside {a b c d : Item} {pairs : List (Option (Item × Item))} (outer : Meets h x y a b)
      (opens : h.opening a b = .entered (some pairs)) (mem : some (c, d) ∈ pairs) :
      Meets h x y c d

/-- The maps of different storage that a comparison of two items comes to list their keys
in the same order. -/
def InOrder (h : Heap) (x y : Item) : Prop :=
  ∀ r s : MapRef, h.Meets x y (.map r) (.map s) → r ≠ s →
    (h.entries r).keys = (h.entries s).keys

theorem settles_of_mem {pairs : List (Option (Item × Item))}
    (hs : h.Settles (.all pairs) true n d) (mem : some (a, b) ∈ pairs) :
    ∃ n d, h.Settles (.pair a b) true n d := by
  induction pairs generalizing n d with
  | nil => exact absurd mem List.not_mem_nil
  | cons o pairs ih =>
    cases hs with
    | @next a' b' _ _ n₁ d₁ n₂ d₂ first others =>
      rcases List.mem_cons.1 mem with heq | mem
      · injection heq with heq
        injection heq with ha hb
        subst ha hb
        exact ⟨n₁, d₁, first⟩
      · exact ih others mem

/-- If two items are found equal, then so is every pair that the comparison comes to. -/
theorem Meets.settles (hs : h.Settles (.pair x y) true n d) (met : h.Meets x y a b) :
    ∃ n d, h.Settles (.pair a b) true n d := by
  induction met with
  | start => exact ⟨n, d, hs⟩
  | inside outer opens mem ih =>
    obtain ⟨n', d', hab⟩ := ih
    obtain ⟨e, inside, -⟩ := (settles_entered_iff opens).1 hab
    exact settles_of_mem inside mem

/-- Two different items that a comparison comes to look the same if the items are found
equal and their maps list their keys in one order. -/
theorem node_eq_of_meets (hs : h.Settles (.pair x y) true n d) (order : h.InOrder x y)
    (met : h.Meets x y a b) (hab : a ≠ b) : h.node a = h.node b := by
  obtain ⟨n', d', hset⟩ := met.settles hs
  obtain ⟨same, ha, size, -⟩ := (settles_true_iff hab).1 hset
  rcases isCompared_cases ha with ⟨r, rfl, hr⟩ | ⟨r, rfl⟩
  · rcases isCompared_cases (same ▸ ha) with ⟨s, rfl, hs'⟩ | ⟨s, rfl⟩
    · rw [length_places, length_places] at size
      have size : (h.items r).length = (h.items s).length := size
      rw [node, node, hr, hs', size]
    · rw [kind_of_struct hr] at same
      exact absurd same (by simp [Item.kind])
  · rcases isCompared_cases (same ▸ ha) with ⟨s, rfl, hs'⟩ | ⟨s, rfl⟩
    · rw [kind_of_struct hs'] at same
      exact absurd same (by simp [Item.kind])
    · rw [node, node, order r s met fun hrs => hab (congrArg Item.map hrs)]

/-- The pairs that a comparison comes to are a bisimulation, together with the items that
it does not enter because they are the same. -/
theorem isBisimulation_meets (hs : h.Settles (.pair x y) true n d) (order : h.InOrder x y) :
    IsBisimulation h h fun a b => a = b ∨ h.Meets x y a b where
  node_eq {a b} related := by
    by_cases hab : a = b
    · rw [hab]
    · exact node_eq_of_meets hs order (related.resolve_left hab) hab
  contents {a b} related i c c' hc hc' := by
    by_cases hab : a = b
    · rw [← hab, hc, Option.some_inj] at hc'
      exact .inl hc'
    · have met := related.resolve_left hab
      have look := node_eq_of_meets hs order met hab
      obtain ⟨n', d', hset⟩ := met.settles hs
      obtain ⟨same, ha, size, -⟩ := (settles_true_iff hab).1 hset
      have opens := entered_some_iff.2 ⟨hab, same, ha, size, rfl⟩
      rw [map_pairAt_eq_zip look] at opens
      refine .inr (.inside met opens (List.mem_map_of_mem ?_))
      exact List.mem_of_getElem? (List.getElem?_zip_eq_some.2 ⟨hc, hc'⟩)

/-! ### What is stored -/

/-- What is stored of an item is stored of every item that it was found equal to, within
the same limits and in as many bytes. -/
theorem exists_serialize_of_compare {limits limits' : Limits} {bs : List UInt8}
    (equal : (h.compare limits x y).result = .ok true)
    (stored : (h.serialize limits' x).result = .ok bs) :
    ∃ bs', (h.serialize limits' y).result = .ok bs' ∧ bs.length = bs'.length := by
  obtain ⟨n, d, hs, -, -⟩ := compare_eq_ok_iff.1 equal
  obtain ⟨t, hu, storable, hsize, rfl⟩ := serialize_eq_ok_iff.1 stored
  have halike : h.Alike x y := hs.iff_alike.1 rfl
  obtain ⟨t', hu', alike⟩ := halike.exists_tree hu
  refine ⟨t'.encode, serialize_eq_ok_iff.2 ⟨t', hu', alike.storable limits' 0 storable, ?_, rfl⟩,
    alike.length_eq⟩
  rwa [← alike.size_eq]

/-- If a comparison has found two items equal, within whatever limits, then the same limits
allow to store the one and the other, and their forms are of one length.  If moreover the
maps that the comparison came to list their keys in one order, then there is no telling
the two apart in storage: what is stored is the same, and so is every failure. -/
theorem serialize_congr {limits : Limits} (equal : (h.compare limits x y).result = .ok true)
    (limits' : Limits) :
    ((∃ bs, (h.serialize limits' x).result = .ok bs) ↔
        ∃ bs, (h.serialize limits' y).result = .ok bs) ∧
      (∀ bs bs', (h.serialize limits' x).result = .ok bs →
        (h.serialize limits' y).result = .ok bs' → bs.length = bs'.length) ∧
      (h.InOrder x y → (h.serialize limits' x).result = (h.serialize limits' y).result) := by
  refine ⟨⟨?_, ?_⟩, ?_, ?_⟩
  · rintro ⟨bs, stored⟩
    obtain ⟨bs', stored', -⟩ := exists_serialize_of_compare equal stored
    exact ⟨bs', stored'⟩
  · rintro ⟨bs, stored⟩
    obtain ⟨bs', stored', -⟩ := exists_serialize_of_compare (compare_true_comm.1 equal) stored
    exact ⟨bs', stored'⟩
  · intro bs bs' stored stored'
    obtain ⟨bs'', stored'', hlen⟩ := exists_serialize_of_compare equal stored
    rw [stored'', Except.ok.injEq] at stored'
    rw [hlen, stored']
  · intro order
    obtain ⟨n, d, hs, -, -⟩ := compare_eq_ok_iff.1 equal
    rw [(isBisimulation_meets hs order).serialize_eq (.inr .start)]

end

/-- Three maps with the same entries, the second of which lists them in another order, and
structs that hold the first and the third. -/
def swapped : Heap where
  structs := #[#[.map ⟨0⟩, .prim (.boolean true)], #[.map ⟨2⟩, .prim (.boolean true)]]
  maps := #[.ofList [(.integer 1, .prim (.boolean true)), (.integer 2, .prim (.bytes [7]))],
    .ofList [(.integer 2, .prim (.bytes [7])), (.integer 1, .prim (.boolean true))],
    .ofList [(.integer 1, .prim (.boolean true)), (.integer 2, .prim (.bytes [7]))]]

/-- A comparison of the two structs comes to the first and the third map, and otherwise to
pairs of the same primitive. -/
theorem meets_swapped {a b : Item}
    (met : swapped.Meets (.seq ⟨.struct, 0⟩) (.seq ⟨.struct, 1⟩) a b) :
    (a = .seq ⟨.struct, 0⟩ ∧ b = .seq ⟨.struct, 1⟩) ∨ (a = .map ⟨0⟩ ∧ b = .map ⟨2⟩) ∨
      a = b := by
  induction met with
  | start => exact .inl ⟨rfl, rfl⟩
  | @inside a b c d pairs outer opens mem ih =>
    rcases ih with ⟨rfl, rfl⟩ | ⟨rfl, rfl⟩ | rfl
    · have hpairs : swapped.opening (.seq ⟨.struct, 0⟩) (.seq ⟨.struct, 1⟩)
          = .entered (some [some (.map ⟨0⟩, .map ⟨2⟩),
              some (.prim (.boolean true), .prim (.boolean true))]) := rfl
      rw [hpairs, Opening.entered.injEq, Option.some_inj] at opens
      subst opens
      grind
    · have hpairs : swapped.opening (.map ⟨0⟩) (.map ⟨2⟩)
          = .entered (some [some (.prim (.boolean true), .prim (.boolean true)),
              some (.prim (.bytes [7]), .prim (.bytes [7]))]) := rfl
      rw [hpairs, Opening.entered.injEq, Option.some_inj] at opens
      subst opens
      grind
    · exact absurd rfl (entered_some_iff.1 opens).1

/-- The first two maps are equal, and are stored in the same number of bytes but not in the
same bytes.  The two structs are stored in the same bytes, for their maps list their keys in
one order. -/
theorem serialize_congr_swapped :
    (swapped.serialize .default (.map ⟨0⟩)).result
        = .ok [0x48, 2, 0x21, 1, 1, 0x20, 1, 0x21, 1, 2, 0x28, 1, 7] ∧
      (swapped.serialize .default (.map ⟨1⟩)).result
        = .ok [0x48, 2, 0x21, 1, 2, 0x28, 1, 7, 0x21, 1, 1, 0x20, 1] ∧
      (∀ limits, (∃ bs, (swapped.serialize limits (.map ⟨0⟩)).result = .ok bs) ↔
        ∃ bs, (swapped.serialize limits (.map ⟨1⟩)).result = .ok bs) ∧
      ∀ limits, (swapped.serialize limits (.seq ⟨.struct, 0⟩)).result
        = (swapped.serialize limits (.seq ⟨.struct, 1⟩)).result := by
  have hmaps : (swapped.compare .default (.map ⟨0⟩) (.map ⟨1⟩)).result = .ok true := rfl
  have hstructs : (swapped.compare .default (.seq ⟨.struct, 0⟩) (.seq ⟨.struct, 1⟩)).result
      = .ok true := rfl
  have order : swapped.InOrder (.seq ⟨.struct, 0⟩) (.seq ⟨.struct, 1⟩) := by
    intro r s met hrs
    rcases meets_swapped met with ⟨hr, -⟩ | ⟨hr, hs⟩ | hr
    · exact absurd hr (by simp)
    · injection hr with hr
      injection hs with hs
      rw [hr, hs]
      rfl
    · exact absurd (Item.map.inj hr) hrs
  exact ⟨rfl, rfl, fun limits => (serialize_congr hmaps limits).1,
    fun limits => (serialize_congr hstructs limits).2.2 order⟩

end Heap

end StackItems
