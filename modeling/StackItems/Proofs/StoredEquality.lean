/-
Whether an item equals what is loaded back.

An item that was stored and loaded again has the same tree as before and no storage in
common with it.  A comparison of the two goes through the whole tree, or up to the
first array in it: arrays are equal by identity only, and the two have none in common.
It meets no more elements than storing has counted items and enters no container that
storing has not entered.

* `Apart` — two items that meet no container in common;
* `ArrayFree` — an item in whose unfolding there is no array;
* `answers_of_apart` — two items of one tree that are apart are equal exactly if there
  is no array in them, and the size and the depth of the tree bound the comparison;
* `compare_stored` — **a stored item equals what is loaded back exactly if it holds no
  array, and no limit hides the answer.**
-/
import StackItems.Proofs.Bisimilarity
import StackItems.Proofs.Places
import StackItems.Proofs.RoundTrip

namespace StackItems.Heap

open StackItems.Tree (Storable)

/-- A comparison that comes to an answer within a number of visits and a nesting: to
"equal" exactly if a proposition holds. -/
def Answers (h : Heap) (task : Task) (P : Prop) (n d : Nat) : Prop :=
  ∃ equal k e, h.Settles task equal k e ∧ (equal = true ↔ P) ∧ k ≤ n ∧ e ≤ d

/-- No container is met in both items. -/
def Apart (h : Heap) (x y : Item) : Prop :=
  ∀ (p q : List Nat) (c : Item), h.at? Kind.isCompound x p = some c →
    h.at? Kind.isCompound y q = some c → c.kind.isCompound = false

/-- There is no array in the unfolding of an item. -/
def ArrayFree (h : Heap) (x : Item) : Prop :=
  ∀ (path : List Nat) (size : Nat), h.unfolding x path ≠ some (.seq .array size)

section

variable {h : Heap} {x y a b : Item} {n d : Nat}

/-! ### What is apart -/

theorem Apart.contents (apart : h.Apart x y) (hx : x.kind.isCompound = true)
    (hy : y.kind.isCompound = true) (ha : a ∈ h.contents x) (hb : b ∈ h.contents y) :
    h.Apart a b := by
  intro p q c hp hq
  obtain ⟨i, hi⟩ := List.getElem?_of_mem ha
  obtain ⟨j, hj⟩ := List.getElem?_of_mem hb
  have hp' : h.at? Kind.isCompound x (i :: p) = some c := (at?_cons_eq_some hx).2 ⟨a, hi, hp⟩
  have hq' : h.at? Kind.isCompound y (j :: q) = some c := (at?_cons_eq_some hy).2 ⟨b, hj, hq⟩
  exact apart _ _ c hp' hq'

theorem Apart.ne (apart : h.Apart x y) (hx : x.kind.isCompound = true) : x ≠ y := by
  intro hxy
  have hnot := apart [] [] x rfl (by rw [hxy]; rfl)
  rw [hx] at hnot
  exact absurd hnot (by simp)

/-! ### What holds no array -/

theorem arrayFree_iff :
    h.ArrayFree x ↔ x.kind ≠ .array ∧ ∀ a ∈ h.contents x, h.ArrayFree a := by
  have hnode : (∃ size, h.node x = .seq .array size) ↔ x.kind = .array := by
    cases x with
    | prim q => cases q <;> simp [node, Item.kind, Primitive.kind]
    | host r => simp [node, Item.kind]
    | map r => simp [node, Item.kind]
    | seq r =>
      obtain ⟨kind, slot⟩ := r
      cases kind <;> simp [node, Item.kind, SeqKind.kind]
  constructor
  · intro free
    constructor
    · intro hx
      obtain ⟨size, hsize⟩ := hnode.2 hx
      exact free [] size (by rw [unfolding_nil, hsize])
    · intro a ha path size hpath
      obtain ⟨i, hi⟩ := List.getElem?_of_mem ha
      exact free (i :: path) size (by rw [unfolding_cons, hi]; exact hpath)
  · intro hfree path size hpath
    cases path with
    | nil =>
      rw [unfolding_nil, Option.some_inj] at hpath
      exact hfree.1 (hnode.1 ⟨size, hpath⟩)
    | cons i path =>
      rw [unfolding_cons, Option.bind_eq_some_iff] at hpath
      obtain ⟨a, hi, hpath⟩ := hpath
      exact hfree.2 a (List.mem_of_getElem? hi) path size hpath

/-! ### Comparisons that go through a whole tree -/

theorem Answers.mono {task : Task} {P : Prop} {n' d' : Nat} (answers : h.Answers task P n d)
    (hn : n ≤ n') (hd : d ≤ d') : h.Answers task P n' d' := by
  obtain ⟨equal, k, e, hs, hequal, hk, he⟩ := answers
  exact ⟨equal, k, e, hs, hequal, by omega, by omega⟩

/-- Two lists are compared pair by pair.  If the pairs have their costs from the elements
of a third list, then one visit and the cost of each of these is enough. -/
theorem answers_all {τ : Type} {cost : τ → Nat} {total : List τ → Nat} {P : Item → Prop}
    (total_cons : ∀ t ts, total (t :: ts) = 1 + cost t + total ts) {xs ys : List Item}
    {ts : List τ} (size : xs.length = ts.length) (size' : ys.length = ts.length)
    (each : ∀ (i : Nat) (a b : Item) (t : τ), xs[i]? = some a → ys[i]? = some b →
      ts[i]? = some t → h.Answers (.pair a b) (P a) (cost t) d) :
    h.Answers (.all ((xs.zip ys).map some)) (∀ a ∈ xs, P a) (total ts) d := by
  induction ts generalizing xs ys with
  | nil =>
    obtain rfl := List.length_eq_zero_iff.1 size
    exact ⟨true, 0, 0, .nil, by simp, Nat.zero_le _, Nat.zero_le _⟩
  | cons t ts ih =>
    cases xs with
    | nil => simp at size
    | cons a xs =>
      cases ys with
      | nil => simp at size'
      | cons b ys =>
        obtain ⟨equal, k, e, first, hequal, hk, he⟩ := each 0 a b t rfl rfl rfl
        rw [total_cons]
        cases equal with
        | false =>
          -- The comparison stops here, and what lies behind costs nothing.
          refine ⟨false, 1 + k, e, .differ first _, ?_, by omega, he⟩
          have hnot : ¬ P a := fun ha => absurd (hequal.2 ha) (by simp)
          simp [hnot]
        | true =>
          obtain ⟨equal', k', e', others, hequal', hk', he'⟩ :=
            ih (by simpa using size) (by simpa using size') fun i => each (i + 1)
          refine ⟨equal', 1 + k + k', max e e', .next first others, ?_, by omega, by omega⟩
          rw [hequal']
          simp [hequal.1 rfl]

/-- Two containers of different storage that look the same are entered, and what they hold
is compared in its order. -/
theorem Answers.entered {P : Prop} (hxy : x ≠ y) (same : h.node x = h.node y)
    (hx : x.kind.isCompared = true)
    (inside : h.Answers (.all (((h.contents x).zip (h.contents y)).map some)) P n d) :
    h.Answers (.pair x y) P n (d + 1) := by
  obtain ⟨equal, k, e, hs, hequal, hk, he⟩ := inside
  have hlen : (h.places x).length = (h.places y).length := by
    rw [length_places, length_places, length_contents_eq same]
  have opens : h.opening x y
      = .entered (some (((h.contents x).zip (h.contents y)).map some)) :=
    entered_some_iff.2 ⟨hxy, kind_eq_of_node_eq same, hx, hlen, (map_pairAt_eq_zip same).symm⟩
  exact ⟨equal, k, e + 1, .entered opens hs, hequal, hk, Nat.succ_le_succ he⟩

/-- Two arrays of different storage differ, whatever they hold. -/
theorem answers_of_array (hxy : x ≠ y) (hx : x.kind = .array) :
    h.Answers (.pair x y) (h.ArrayFree x) n d := by
  have opens : h.opening x y = .told false := by
    rw [opening_eq, if_neg hxy, if_neg]
    intro hk
    rw [hx] at hk
    exact absurd hk.2 Bool.false_ne_true
  refine ⟨false, 0, 0, .told opens, ?_, Nat.zero_le _, Nat.zero_le _⟩
  rw [arrayFree_iff]
  simp [hx]

/-- Two containers that are compared by what they hold have no array in them exactly if
nothing that they hold has. -/
theorem answers_of_contents {ts : List Tree} (hxy : x ≠ y) (same : h.node x = h.node y)
    (hx : x.kind.isCompared = true) (size : (h.contents x).length = ts.length)
    (size' : (h.contents y).length = ts.length)
    (each : ∀ (i : Nat) (a b : Item) (t : Tree), (h.contents x)[i]? = some a →
      (h.contents y)[i]? = some b → ts[i]? = some t →
        h.Answers (.pair a b) (h.ArrayFree a) (t.size - 1) d) :
    h.Answers (.pair x y) (h.ArrayFree x) (Tree.sizeAll ts) (d + 1) := by
  have total_cons : ∀ t ts, Tree.sizeAll (t :: ts) = 1 + (t.size - 1) + Tree.sizeAll ts := by
    intro t ts
    have hpos := t.size_pos
    rw [Tree.sizeAll]
    omega
  have harray : x.kind ≠ .array := by
    intro harray
    rw [harray] at hx
    exact absurd hx Bool.false_ne_true
  have inside := answers_all total_cons size size' each
  have hfree : h.ArrayFree x ↔ ∀ a ∈ h.contents x, h.ArrayFree a := by
    rw [arrayFree_iff]
    simp [harray]
  rw [hfree]
  exact .entered hxy same hx inside

theorem sizeAll_map_snd_le (es : List (Primitive × Tree)) :
    Tree.sizeAll (es.map Prod.snd) ≤ Tree.sizeEntries es := by
  induction es with
  | nil => exact Nat.le_refl 0
  | cons e es ih =>
    rw [List.map_cons, Tree.sizeAll, Tree.sizeEntries_cons]
    omega

/-- Two items of one tree that meet no container in common are equal exactly if there is
no array in them.  A comparison visits no more elements than the tree has below its root
and enters no more levels than the tree was stored with. -/
theorem answers_of_apart {t : Tree} {limits : Limits} {depth : Nat} (hx : h.Unfolds x t)
    (hy : h.Unfolds y t) (apart : h.Apart x y) (storable : Storable limits depth t) :
    h.Answers (.pair x y) (h.ArrayFree x) (t.size - 1) (limits.maxStructDepth.toNat - depth) := by
  induction hx generalizing y depth with
  | prim p =>
    have hyp : y = .prim p := by
      cases hy
      rfl
    subst hyp
    refine ⟨true, 0, 0, settles_self_iff.2 ⟨rfl, rfl⟩, ?_, Nat.zero_le _, Nat.zero_le _⟩
    rw [arrayFree_iff]
    cases p <;> simp [Item.kind, Primitive.kind, Heap.contents]
  | @seq r kind children same size each ih =>
    have hr := isCompound_seq r
    have hnode := ((Unfolds.seq same size each).node_eq hy).symm
    cases kind with
    | array => exact answers_of_array (apart.ne hr) (by rw [Item.kind, same]; rfl)
    | struct =>
      have hcompared : (Item.seq r).kind.isCompared = true := by
        rw [kind_of_struct same]
        rfl
      cases hy with
      | @seq s _ _ same' size' each' =>
        cases storable with
        | seq room below =>
          have inside : h.Answers (.pair (.seq r) (.seq s)) (h.ArrayFree (.seq r))
              (Tree.sizeAll children) (limits.maxStructDepth.toNat - (depth + 1) + 1) := by
            apply answers_of_contents (apart.ne hr) hnode hcompared size size'
            intro i a b t ha hb ht
            have hab := apart.contents hr (isCompound_seq s) (List.mem_of_getElem? ha)
              (List.mem_of_getElem? hb)
            exact ih i a t ha ht (each' i b t hb ht) hab (below t (List.mem_of_getElem? ht))
          exact inside.mono (by rw [Tree.size]; omega) (by omega)
  | @map r entries size keys each ih =>
    have hnode := ((Unfolds.map size keys each).node_eq hy).symm
    cases hy with
    | @map s _ size' keys' each' =>
      cases storable with
      | map room distinct small below =>
        have inside : h.Answers (.pair (.map r) (.map s)) (h.ArrayFree (.map r))
            (Tree.sizeAll (entries.map Prod.snd))
            (limits.maxStructDepth.toNat - (depth + 1) + 1) := by
          apply answers_of_contents (apart.ne rfl) hnode rfl
          · simpa [Heap.contents, Entries.values] using size
          · simpa [Heap.contents, Entries.values] using size'
          · intro i a b t ha hb ht
            have hab := apart.contents rfl rfl (List.mem_of_getElem? ha) (List.mem_of_getElem? hb)
            simp only [Heap.contents, Entries.values, List.getElem?_map,
              Option.map_eq_some_iff] at ha hb ht
            obtain ⟨c, hc, rfl⟩ := ha
            obtain ⟨c', hc', rfl⟩ := hb
            obtain ⟨e, he, rfl⟩ := ht
            exact ih i c e hc he (each' i c' e hc' he) hab (below e (List.mem_of_getElem? he))
        have htotal := sizeAll_map_snd_le entries
        exact inside.mono (by rw [Tree.size]; omega) (by omega)

/-! ### What an item meets and what new storage meets -/

/-- An item of a closed heap is apart from what was made of new storage. -/
theorem Separate.apart {h' : Heap} (closed : h.Closed) (held : h.Holds x) (grown : h.Extends h')
    (separate : Separate Kind.isCompound h h' y) : h'.Apart x y := by
  intro p q c hp hq
  rw [at?_of_extends grown fun _ _ hc _ => closed.holds_at? held hc] at hp
  by_contra hc
  exact (separate.fresh q c hq (by simpa using hc)).1 (closed.holds_at? held hp)

/-! ### Items that were stored -/

/-- If the budget for storing is not larger than the budget for comparing, the root not
counted, then what was stored is loaded back within the same limits, and a comparison of
the two always answers: they are equal if no array is in the item, and differ if one is. -/
theorem compare_stored {limits : Limits} {b : List UInt8} (closed : h.Closed)
    (held : h.Holds x) (budget : limits.maxItems.toNat ≤ limits.maxComparableItems.toNat + 1)
    (hwrite : (h.serialize limits x).result = .ok b) :
    ∃ y h', (h.deserialize limits b).result = .ok (y, h') ∧
      (h.ArrayFree x → (h'.compare limits x y).result = .ok true) ∧
      (¬ h.ArrayFree x → (h'.compare limits x y).result = .ok false) := by
  obtain ⟨t, hu, hs, hsize, rfl⟩ := serialize_eq_ok_iff.1 hwrite
  have hlt : t.size < 2 ^ 64 := Nat.lt_of_le_of_lt hsize limits.maxItems.toNat_lt
  have hread : (h.deserialize limits t.encode).result = .ok (t.build h) :=
    deserialize_eq_ok_iff.2 ⟨t, Tree.form_encode hs hlt, hsize, rfl⟩
  have made := Tree.build_carries hs h
  -- The item itself is what it was, for nothing that it leads to has changed.
  have hu' : (t.build h).2.Unfolds x t :=
    lasts_unfolds _ _ x t hu made.grown fun _ _ hc _ => closed.holds_at? held hc
  have hfree : (t.build h).2.ArrayFree x ↔ h.ArrayFree x := by
    rw [ArrayFree, ArrayFree, hu.unfolding_eq hu']
  obtain ⟨equal, k, e, settles, hequal, hk, he⟩ :=
    answers_of_apart hu' made.shows (made.separate.apart closed held made.grown) hs
  have hrun : ((t.build h).2.compare limits x (t.build h).1).result = .ok equal :=
    compare_eq_ok_iff.2 ⟨k, e, settles, by omega, by omega⟩
  rw [hfree] at hequal
  refine ⟨_, _, hread, ?_, ?_⟩
  · intro free
    rw [hrun, hequal.2 free]
  · intro hnot
    rw [hrun, Bool.eq_false_iff.2 fun he => hnot (hequal.1 he)]

end

/-- A struct without an array equals what is loaded back, one with an array does not; the
budgets are the smallest that the first one can be stored and compared with. -/
theorem compare_stored_doubled :
    (∃ y h', (doubled.deserialize { maxItems := 2, maxComparableItems := 1 }
        [0x41, 1, 0x20, 1]).result = .ok (y, h') ∧
      (h'.compare { maxItems := 2, maxComparableItems := 1 } (.seq ⟨.struct, 0⟩) y).result
        = .ok true) ∧
    ∃ y h', (doubled.deserialize .default
        [0x41, 3, 0x41, 1, 0x20, 1, 0x41, 1, 0x20, 1, 0x40, 0]).result = .ok (y, h') ∧
      (h'.compare .default (.seq ⟨.struct, 1⟩) y).result = .ok false := by
  have held : doubled.Holds (.seq ⟨.struct, 0⟩) := (by decide : 0 < 2)
  have hwrite : (doubled.serialize { maxItems := 2, maxComparableItems := 1 }
      (.seq ⟨.struct, 0⟩)).result = .ok [0x41, 1, 0x20, 1] := rfl
  have held' : doubled.Holds (.seq ⟨.struct, 1⟩) := (by decide : 1 < 2)
  have hwrite' : (doubled.serialize .default (.seq ⟨.struct, 1⟩)).result
      = .ok [0x41, 3, 0x41, 1, 0x20, 1, 0x41, 1, 0x20, 1, 0x40, 0] := rfl
  have free : doubled.ArrayFree (.seq ⟨.struct, 0⟩) := by
    refine arrayFree_iff.2 ⟨by decide, fun a ha => ?_⟩
    obtain rfl := List.mem_singleton.1 ha
    exact arrayFree_iff.2 ⟨by decide, fun b hb => absurd hb List.not_mem_nil⟩
  -- The third element of the struct is the array.
  have holdsArray : ¬ doubled.ArrayFree (.seq ⟨.struct, 1⟩) := fun free => free [2] 0 rfl
  obtain ⟨y, h', hread, equal, -⟩ := compare_stored closed_doubled held (by decide) hwrite
  obtain ⟨z, h'', hread', -, differ⟩ := compare_stored closed_doubled held' (by decide) hwrite'
  exact ⟨⟨y, h', hread, equal free⟩, z, h'', hread', differ holdsArray⟩

end StackItems.Heap
