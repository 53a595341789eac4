/-
Items to storage and back.

* `serialize_eq_ok_iff`, `deserialize_eq_ok_iff` — when an item is written and when
  bytes are read, in terms of trees;
* `deserialize_iff_form` — the bytes that are read are exactly the forms of trees
  within the limits, and the item that is made has exactly the tree of the form;
* `deserialize_serialize` — what was written within some limits is read within
  others exactly if it could have been written within those, and then comes back as
  an item of the same unfolding in storage of its own.

Design notes: the heap that an item is read into need not be the one that it was
written from.
-/
import StackItems.Proofs.NewStorage
import StackItems.Proofs.Unambiguous

namespace StackItems.Heap

open StackItems.Tree (Form Storable)

variable {h h' store : Heap} {limits limits' : Limits} {x y : Item} {b : List UInt8} {t : Tree}

theorem storageReport_eq_ok_iff {α : Type} {walk : Except Halt α} {a : α} :
    (storageReport limits walk).result = .ok a ↔ walk = .ok a := by
  cases walk with
  | error halt => simp [storageReport]
  | ok a' => simp [storageReport, Report.quiet]

theorem map_eq_ok_iff {α β : Type} {walk : Except Halt α} {f : α → β} {b : β} :
    walk.map f = .ok b ↔ ∃ a, walk = .ok a ∧ f a = b := by
  cases walk with
  | error halt => simp [Except.map]
  | ok a => simp [Except.map]

theorem serialize_eq_ok_iff :
    (h.serialize limits x).result = .ok b ↔
      ∃ t, h.Unfolds x t ∧ Storable limits 0 t ∧ t.size ≤ limits.maxItems.toNat ∧
        b = t.encode := by
  rw [serialize_eq, storageReport_eq_ok_iff, map_eq_ok_iff]
  constructor
  · rintro ⟨t, ht, rfl⟩
    obtain ⟨hu, hs, hsize⟩ := tree_eq_ok_iff.1 ht
    exact ⟨t, hu, hs, hsize, rfl⟩
  · rintro ⟨t, hu, hs, hsize, rfl⟩
    exact ⟨t, tree_eq_ok_iff.2 ⟨hu, hs, hsize⟩, rfl⟩

theorem deserialize_eq_ok_iff {out : Item × Heap} :
    (store.deserialize limits b).result = .ok out ↔
      ∃ t, Form limits 0 b t ∧ t.size ≤ limits.maxItems.toNat ∧ t.build store = out := by
  rw [deserialize_eq, storageReport_eq_ok_iff, map_eq_ok_iff]
  constructor
  · rintro ⟨t, ht, hout⟩
    obtain ⟨hform, hsize⟩ := Tree.decode_eq_ok_iff.1 ht
    exact ⟨t, hform, hsize, hout⟩
  · rintro ⟨t, hform, hsize, hout⟩
    exact ⟨t, Tree.decode_eq_ok_iff.2 ⟨hform, hsize⟩, hout⟩

/-! ### What is read -/

theorem deserialize_carries (hread : (store.deserialize limits b).result = .ok (y, h')) :
    ∃ t, Form limits 0 b t ∧ t.size ≤ limits.maxItems.toNat ∧ Carries store h' y t := by
  obtain ⟨t, hform, hsize, hout⟩ := deserialize_eq_ok_iff.1 hread
  have carries := Tree.build_carries hform.storable store
  rw [hout] at carries
  exact ⟨t, hform, hsize, carries⟩

/-- Bytes are read exactly if they are a form within the limits, and a tree is the
tree of the item that is made exactly if they are a form of it. -/
theorem deserialize_iff_form (store : Heap) (limits : Limits) (b : List UInt8) :
    ((∃ y h', (store.deserialize limits b).result = .ok (y, h')) ↔
        ∃ t, Form limits 0 b t ∧ t.size ≤ limits.maxItems.toNat) ∧
      ∀ t, (∃ y h', (store.deserialize limits b).result = .ok (y, h') ∧ h'.Unfolds y t) ↔
        Form limits 0 b t ∧ t.size ≤ limits.maxItems.toNat := by
  have accepted : ∀ t, Form limits 0 b t → t.size ≤ limits.maxItems.toNat →
      (store.deserialize limits b).result = .ok (t.build store) :=
    fun t hform hsize => deserialize_eq_ok_iff.2 ⟨t, hform, hsize, rfl⟩
  refine ⟨⟨?_, ?_⟩, fun t => ⟨?_, ?_⟩⟩
  · rintro ⟨y, h', hread⟩
    obtain ⟨t, hform, hsize, -⟩ := deserialize_carries hread
    exact ⟨t, hform, hsize⟩
  · rintro ⟨t, hform, hsize⟩
    exact ⟨_, _, accepted t hform hsize⟩
  · rintro ⟨y, h', hread, hu⟩
    obtain ⟨t', hform, hsize, carries⟩ := deserialize_carries hread
    obtain rfl := carries.shows.unique hu
    exact ⟨hform, hsize⟩
  · rintro ⟨hform, hsize⟩
    exact ⟨_, _, accepted t hform hsize, (Tree.build_carries hform.storable store).shows⟩

/-! ### What was written and is read -/

/-- Of bytes that were written, `limits'` decide whether they are read, written
again, or neither, but not what they are. -/
theorem deserialize_serialize (hb : (h.serialize limits x).result = .ok b) (limits' : Limits)
    (store : Heap) :
    ((∃ out, (store.deserialize limits' b).result = .ok out) ↔
        ∃ b', (h.serialize limits' x).result = .ok b') ∧
      (∀ b', (h.serialize limits' x).result = .ok b' → b' = b) ∧
      ∀ y h', (store.deserialize limits' b).result = .ok (y, h') →
        h'.unfolding y = h.unfolding x ∧ store.Extends h' ∧
          Separate Kind.isCompound store h' y := by
  obtain ⟨t, hu, hs, hsize, rfl⟩ := serialize_eq_ok_iff.1 hb
  have hlt : t.size < 2 ^ 64 := Nat.lt_of_le_of_lt hsize limits.maxItems.toNat_lt
  -- Whatever the limits, the bytes are a form of the tree of `x` and of no other tree.
  have written := Tree.form_encode hs hlt
  refine ⟨⟨?_, ?_⟩, ?_, ?_⟩
  · rintro ⟨out, hread⟩
    obtain ⟨t', hform, hsize', -⟩ := deserialize_eq_ok_iff.1 hread
    obtain rfl := written.unique hform hsize hsize'
    exact ⟨_, serialize_eq_ok_iff.2 ⟨t, hu, hform.storable, hsize', rfl⟩⟩
  · rintro ⟨b', hwrite⟩
    obtain ⟨t', hu', hs', hsize', -⟩ := serialize_eq_ok_iff.1 hwrite
    obtain rfl := hu.unique hu'
    exact ⟨_, deserialize_eq_ok_iff.2 ⟨t, Tree.form_encode hs' hlt, hsize', rfl⟩⟩
  · intro b' hwrite
    obtain ⟨t', hu', -, -, rfl⟩ := serialize_eq_ok_iff.1 hwrite
    rw [hu.unique hu']
  · intro y h' hread
    obtain ⟨t', hform, hsize', carries⟩ := deserialize_carries hread
    obtain rfl := written.unique hform hsize hsize'
    exact ⟨hu.unfolding_eq carries.shows, carries.grown, carries.separate⟩

/-- An array that holds the same array twice. -/
def sharedPair : Heap :=
  { arrays := #[#[.prim (.boolean true)], #[.seq ⟨.array, 0⟩, .seq ⟨.array, 0⟩]] }

/-- What is shared before it is written is not shared after it is read. -/
theorem deserialize_serialize_sharedPair :
    (sharedPair.serialize .default (.seq ⟨.array, 1⟩)).result
        = .ok [0x40, 2, 0x40, 1, 0x20, 1, 0x40, 1, 0x20, 1] ∧
      ∃ y h', (sharedPair.deserialize .default
          [0x40, 2, 0x40, 1, 0x20, 1, 0x40, 1, 0x20, 1]).result = .ok (y, h') ∧
        h'.unfolding y = sharedPair.unfolding (.seq ⟨.array, 1⟩) ∧
        Separate Kind.isCompound sharedPair h' y := by
  have hb : (sharedPair.serialize .default (.seq ⟨.array, 1⟩)).result
      = .ok [0x40, 2, 0x40, 1, 0x20, 1, 0x40, 1, 0x20, 1] := rfl
  obtain ⟨hread, -, hcopy⟩ := deserialize_serialize hb .default sharedPair
  obtain ⟨⟨y, h'⟩, hout⟩ := hread.2 ⟨_, hb⟩
  obtain ⟨hlook, -, hown⟩ := hcopy y h' hout
  exact ⟨hb, y, h', hout, hlook, hown⟩

end StackItems.Heap
