/-
Trees and the items that they are trees of.

* `size` — the number of items of a tree, keys of maps included;
* `Unfolds` — an item whose handles, followed without end, give a tree;
* `Unfolds.unique` — an item has at most one tree;
* `Unfolds.unfolding_eq` — two items of one tree have the same unfolding.

Design notes: children are related to trees index by index, which makes `Unfolds` a
relation without a second one for lists.
-/
import StackItems.Proofs.Drawing
import StackItems.Proofs.Position
import StackItems.Tree

namespace StackItems

namespace Tree

mutual

/-- The number of items of a tree, keys of maps included. -/
def size : Tree → Nat
  | .prim _ => 1
  | .seq _ children => 1 + sizeAll children
  | .map entries => 1 + sizeEntries entries

/-- The number of items of several trees. -/
def sizeAll : List Tree → Nat
  | [] => 0
  | t :: rest => size t + sizeAll rest

/-- The number of items of entries. -/
def sizeEntries : List (Primitive × Tree) → Nat
  | [] => 0
  | (_, t) :: rest => 1 + size t + sizeEntries rest

end

theorem size_pos (t : Tree) : 0 < t.size := by
  cases t with
  | prim p => exact Nat.one_pos
  | seq kind children => rw [size]; omega
  | map entries => rw [size]; omega

theorem sizeEntries_cons (e : Primitive × Tree) (rest : List (Primitive × Tree)) :
    sizeEntries (e :: rest) = 1 + e.2.size + sizeEntries rest := by
  obtain ⟨k, t⟩ := e
  rw [sizeEntries]

end Tree

/-- An item whose handles, followed without end, give the tree. -/
inductive Heap.Unfolds (h : Heap) : Item → Tree → Prop where
  | prim (p : Primitive) : Unfolds h (.prim p) (.prim p)
  | seq {r : SeqRef} {kind : SeqKind} {children : List Tree} (same : r.kind = kind)
      (size : (h.items r).length = children.length)
      (each : ∀ (i : Nat) (x : Item) (t : Tree),
        (h.items r)[i]? = some x → children[i]? = some t → Unfolds h x t) :
      Unfolds h (.seq r) (.seq kind children)
  | map {r : MapRef} {entries : List (Primitive × Tree)}
      (size : (h.entries r).toList.length = entries.length)
      (keys : ∀ (i : Nat) (a : Primitive × Item) (e : Primitive × Tree),
        (h.entries r).toList[i]? = some a → entries[i]? = some e → a.1 = e.1)
      (each : ∀ (i : Nat) (a : Primitive × Item) (e : Primitive × Tree),
        (h.entries r).toList[i]? = some a → entries[i]? = some e → Unfolds h a.2 e.2) :
      Unfolds h (.map r) (.map entries)

namespace Heap

/-! ### An item has at most one tree -/

theorem Unfolds.unique {h : Heap} {x : Item} {t t' : Tree} (a : h.Unfolds x t)
    (b : h.Unfolds x t') : t = t' := by
  -- Both trees have an item at every index that the storage of `x` has one at.
  induction a generalizing t' with
  | prim p => cases b; rfl
  | seq same size each ih =>
    cases b with
    | seq same' size' each' =>
      subst same same'
      congr 1
      apply eq_of_getElem? (size.symm.trans size')
      intro i t t' ht ht'
      obtain ⟨x, hx⟩ := exists_getElem? size ht
      exact ih i x t hx ht (each' i x t' hx ht')
  | map size keys each ih =>
    cases b with
    | map size' keys' each' =>
      congr 1
      apply eq_of_getElem? (size.symm.trans size')
      intro i e e' he he'
      obtain ⟨a, ha⟩ := exists_getElem? size he
      have hk : e.1 = e'.1 := (keys i a e ha he).symm.trans (keys' i a e' ha he')
      have ht : e.2 = e'.2 := ih i a e ha he (each' i a e' ha he')
      exact Prod.ext hk ht

/-! ### Items of one tree look the same -/

section

variable {h h' : Heap} {x y : Item} {t : Tree}

theorem Unfolds.node_eq (a : h.Unfolds x t) (b : h'.Unfolds y t) : h'.node y = h.node x := by
  cases a with
  | prim p => cases b; rfl
  | seq same size each =>
    cases b with
    | seq same' size' each' => rw [node, node, same, same', size, size']
  | map size keys each =>
    cases b with
    | map size' keys' each' =>
      have hk := map_eq_map_of_getElem? size keys
      have hk' := map_eq_map_of_getElem? size' keys'
      rw [node, node, Entries.keys, Entries.keys, hk, hk']

/-- Items of one tree have, index by index, contents of one tree. -/
theorem Unfolds.contents (a : h.Unfolds x t) (b : h'.Unfolds y t) (i : Nat) :
    (h.contents x)[i]? = none ∧ (h'.contents y)[i]? = none ∨
      ∃ x' y' t', (h.contents x)[i]? = some x' ∧ (h'.contents y)[i]? = some y' ∧
        h.Unfolds x' t' ∧ h'.Unfolds y' t' := by
  cases a with
  | prim p =>
    cases b
    exact .inl ⟨rfl, rfl⟩
  | @seq r kind children same size each =>
    cases b with
    | @seq r' _ _ same' size' each' =>
      simp only [Heap.contents]
      cases ht : children[i]? with
      | none =>
        rw [List.getElem?_eq_none_iff] at ht
        exact .inl ⟨List.getElem?_eq_none_iff.2 (by omega), List.getElem?_eq_none_iff.2 (by omega)⟩
      | some t =>
        obtain ⟨x', hx⟩ := exists_getElem? size ht
        obtain ⟨y', hy⟩ := exists_getElem? size' ht
        exact .inr ⟨x', y', t, hx, hy, each i x' t hx ht, each' i y' t hy ht⟩
  | @map r entries size keys each =>
    cases b with
    | @map r' _ size' keys' each' =>
      simp only [Heap.contents, Entries.values, List.getElem?_map]
      cases he : entries[i]? with
      | none =>
        rw [List.getElem?_eq_none_iff] at he
        rw [List.getElem?_eq_none_iff.2 (by omega), List.getElem?_eq_none_iff.2 (by omega)]
        exact .inl ⟨rfl, rfl⟩
      | some e =>
        obtain ⟨c, hc⟩ := exists_getElem? size he
        obtain ⟨d, hd⟩ := exists_getElem? size' he
        rw [hc, hd]
        exact .inr ⟨c.2, d.2, e.2, rfl, rfl, each i c e hc he, each' i d e hd he⟩

theorem Unfolds.unfolding_eq (a : h.Unfolds x t) (b : h'.Unfolds y t) :
    h'.unfolding y = h.unfolding x := by
  funext path
  induction path generalizing x y t with
  | nil => rw [unfolding_nil, unfolding_nil, a.node_eq b]
  | cons i path ih =>
    rw [unfolding_cons, unfolding_cons]
    rcases a.contents b i with ⟨hx, hy⟩ | ⟨x', y', t', hx, hy, a', b'⟩
    · rw [hx, hy, Option.bind_none, Option.bind_none]
    · rw [hx, hy, Option.bind_some, Option.bind_some, ih a' b']

end

end Heap

end StackItems
