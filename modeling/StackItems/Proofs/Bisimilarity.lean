/-
What the walk to storage can tell apart.

Two items are bisimilar if they look the same, and what they hold is bisimilar index by
index.  Nothing is said about the storage behind them: it may be shared at other places,
and it may lead back to itself.  The walk to storage follows handles and never looks at
them, so it cannot tell such items apart, whether it succeeds or not.

* `IsBisimulation`, `Bisimilar` — items of two heaps that look the same all the way down;
* `bisimilar_iff_unfolding_eq` — the same by positions: bisimilar items have one
  unfolding;
* `treeAt_eq` — the walk gives the same for related items, whatever the limits;
* `serialize_ignores_sharing` — **bisimilar items are stored alike, errors included, and a
  copy of a struct is stored as the struct is.**

Design notes: an unfolding may be infinite, so there is no tree to do induction on.  The
induction is on the levels that the walk has room for.
-/
import StackItems.Proofs.StructCopy

namespace StackItems

section

variable {m : Type → Type} [Monad m] [LawfulMonad m] {α β γ : Type} {as : List α} {bs : List β}

/-- Two lists are visited alike if their elements are, index by index. -/
theorem mapM_eq_of_getElem? {f : α → m γ} {g : β → m γ} (size : as.length = bs.length)
    (each : ∀ (i : Nat) (a : α) (b : β), as[i]? = some a → bs[i]? = some b → f a = g b) :
    as.mapM f = bs.mapM g := by
  have hmap : as.map f = bs.map g := map_eq_map_of_getElem? size each
  calc as.mapM f = as.mapM (id ∘ f) := rfl
    _ = (as.map f).mapM id := List.mapM_map.symm
    _ = (bs.map g).mapM id := by rw [hmap]
    _ = bs.mapM (id ∘ g) := List.mapM_map

end

namespace Entries

variable {α β : Type} {e : Entries α} {f : Entries β}

/-- Maps with the same keys in the same order have, index by index, entries of one key. -/
theorem fst_eq_of_keys_eq (same : e.keys = f.keys) {i : Nat} {a : Primitive × α}
    {b : Primitive × β} (ha : e.toList[i]? = some a) (hb : f.toList[i]? = some b) :
    a.1 = b.1 := by
  have hkeys := congrArg (·[i]?) same
  rw [keys, keys, List.getElem?_map, List.getElem?_map, ha, hb] at hkeys
  exact Option.some.inj hkeys

theorem length_eq_of_keys_eq (same : e.keys = f.keys) : e.toList.length = f.toList.length := by
  have hlen := congrArg List.length same
  rwa [keys, keys, List.length_map, List.length_map] at hlen

end Entries

namespace Heap

/-- A relation between the items of two heaps: related items look the same, and what they
hold is related index by index. -/
structure IsBisimulation (h h' : Heap) (R : Item → Item → Prop) : Prop where
  node_eq : ∀ {x y : Item}, R x y → h.node x = h'.node y
  contents : ∀ {x y : Item}, R x y → ∀ (i : Nat) (a b : Item), (h.contents x)[i]? = some a →
    (h'.contents y)[i]? = some b → R a b

/-- Items of two heaps that look the same all the way down. -/
def Bisimilar (h h' : Heap) (x y : Item) : Prop := ∃ R, IsBisimulation h h' R ∧ R x y

section

variable {h h' : Heap} {R : Item → Item → Prop} {x y : Item}

/-! ### Items that look the same -/

/-- Items that look the same are of one kind; sequences have one size and maps the same
keys in the same order. -/
theorem node_eq_cases (same : h.node x = h'.node y) :
    (∃ p, x = .prim p ∧ y = .prim p) ∨ (∃ r s, x = .host r ∧ y = .host s) ∨
      (∃ r s, x = .seq r ∧ y = .seq s ∧ r.kind = s.kind ∧
        (h.items r).length = (h'.items s).length) ∨
      ∃ r s, x = .map r ∧ y = .map s ∧ (h.entries r).keys = (h'.entries s).keys := by
  cases x with
  | prim p =>
    cases y with
    | prim q =>
      injection same with hp
      exact .inl ⟨p, rfl, by rw [hp]⟩
    | host s => injection same
    | seq s => injection same
    | map s => injection same
  | host r =>
    cases y with
    | host s => exact .inr (.inl ⟨r, s, rfl, rfl⟩)
    | prim q => injection same
    | seq s => injection same
    | map s => injection same
  | seq r =>
    cases y with
    | seq s =>
      injection same with hkind hsize
      exact .inr (.inr (.inl ⟨r, s, rfl, rfl, hkind, hsize⟩))
    | prim q => injection same
    | host s => injection same
    | map s => injection same
  | map r =>
    cases y with
    | map s =>
      injection same with hkeys
      exact .inr (.inr (.inr ⟨r, s, rfl, rfl, hkeys⟩))
    | prim q => injection same
    | host s => injection same
    | seq s => injection same

theorem length_contents_eq (same : h.node x = h'.node y) :
    (h.contents x).length = (h'.contents y).length := by
  rcases node_eq_cases same with ⟨p, rfl, rfl⟩ | ⟨r, s, rfl, rfl⟩ | ⟨r, s, rfl, rfl, -, hsize⟩ |
    ⟨r, s, rfl, rfl, hkeys⟩
  · rfl
  · rfl
  · exact hsize
  · rw [contents, contents, Entries.values, Entries.values, List.length_map, List.length_map,
      Entries.length_eq_of_keys_eq hkeys]

/-! ### Bisimilar items and unfoldings -/

theorem IsBisimulation.unfolding_eq (b : IsBisimulation h h' R) (hxy : R x y)
    (path : List Nat) : h.unfolding x path = h'.unfolding y path := by
  induction path generalizing x y with
  | nil => rw [unfolding_nil, unfolding_nil, b.node_eq hxy]
  | cons i path ih =>
    have hlen := length_contents_eq (b.node_eq hxy)
    rw [unfolding_cons, unfolding_cons]
    cases hc : (h.contents x)[i]? with
    | none =>
      rw [List.getElem?_eq_none_iff, hlen] at hc
      rw [List.getElem?_eq_none_iff.2 hc]
      rfl
    | some c =>
      obtain ⟨d, hd⟩ := exists_getElem? hlen.symm hc
      rw [hd, Option.bind_some, Option.bind_some]
      exact ih (b.contents hxy i c d hc hd)

/-- Items with one unfolding are the largest bisimulation. -/
theorem isBisimulation_unfolding (h h' : Heap) :
    IsBisimulation h h' fun x y => h.unfolding x = h'.unfolding y where
  node_eq {x y} same := by
    have hroot := congrFun same []
    rwa [unfolding_nil, unfolding_nil, Option.some_inj] at hroot
  contents {x y} same i a b ha hb := by
    funext path
    have hbelow := congrFun same (i :: path)
    rwa [unfolding_cons, unfolding_cons, ha, hb] at hbelow

theorem bisimilar_iff_unfolding_eq : h.Bisimilar h' x y ↔ h.unfolding x = h'.unfolding y := by
  constructor
  · rintro ⟨R, b, hxy⟩
    exact funext (b.unfolding_eq hxy)
  · intro same
    exact ⟨_, isBisimulation_unfolding h h', same⟩

/-! ### The walk to storage -/

/-- The walk to storage gives the same for related items, from every budget. -/
theorem IsBisimulation.treeAt_eq (b : IsBisimulation h h' R) (limits : Limits)
    (room depth : Nat) (hxy : R x y) :
    h.treeAt limits room depth x = h'.treeAt limits room depth y := by
  induction room generalizing depth x y with
  | zero =>
    rcases node_eq_cases (b.node_eq hxy) with ⟨p, rfl, rfl⟩ | ⟨r, s, rfl, rfl⟩ |
      ⟨r, s, rfl, rfl, -, -⟩ | ⟨r, s, rfl, rfl, -⟩
    · rw [treeAt, treeAt]
    · rw [treeAt, treeAt]
    · rw [treeAt, treeAt]
    · rw [treeAt, treeAt]
  | succ room ih =>
    have below := b.contents hxy
    rcases node_eq_cases (b.node_eq hxy) with ⟨p, rfl, rfl⟩ | ⟨r, s, rfl, rfl⟩ |
      ⟨r, s, rfl, rfl, hkind, hsize⟩ | ⟨r, s, rfl, rfl, hkeys⟩
    · rw [treeAt, treeAt]
    · rw [treeAt, treeAt]
    · have visit : (h.items r).mapM (h.treeAt limits room (depth + 1))
          = (h'.items s).mapM (h'.treeAt limits room (depth + 1)) :=
        mapM_eq_of_getElem? hsize fun i a c ha hc => ih (depth + 1) (below i a c ha hc)
      rw [treeAt, treeAt, hkind, visit]
    · rw [treeAt, treeAt, mapM_eq_of_getElem? (Entries.length_eq_of_keys_eq hkeys)]
      intro i a c ha hc
      -- Entries at one index have one key, and their values are at one index too.
      have hkey : a.1 = c.1 := Entries.fst_eq_of_keys_eq hkeys ha hc
      have hvalue : R a.2 c.2 := by
        apply below i
        · rw [Heap.contents, Entries.values, List.getElem?_map, ha, Option.map_some]
        · rw [Heap.contents, Entries.values, List.getElem?_map, hc, Option.map_some]
      rw [hkey, ih (depth + 1) hvalue]

theorem IsBisimulation.serialize_eq (b : IsBisimulation h h' R) (hxy : R x y)
    (limits : Limits) : h.serialize limits x = h'.serialize limits y := by
  rw [h.serialize_eq, h'.serialize_eq, tree, tree, b.treeAt_eq limits _ 0 hxy]

/-! ### Copies and their structs -/

/-- Items of one spine hold items of one spine, down to the leaves, which are the same. -/
theorem isBisimulation_spine (h : Heap) :
    IsBisimulation h h fun x y => x = y ∨ ∃ s, h.HasSpine x s ∧ h.HasSpine y s where
  node_eq {x y} related := by
    rcases related with rfl | ⟨s, hx, hy⟩
    · rfl
    · cases hx with
      | leaf => cases hy; rfl
      | struct size each =>
        cases hy with
        | struct size' each' => rw [node, node, size, size']
  contents {x y} related i a b ha hb := by
    rcases related with rfl | ⟨s, hx, hy⟩
    · rw [ha, Option.some_inj] at hb
      exact .inl hb
    · cases hx with
      | leaf other =>
        cases hy
        rw [ha, Option.some_inj] at hb
        exact .inl hb
      | @struct slot children size each =>
        cases hy with
        | struct size' each' =>
          obtain ⟨s, hs⟩ := exists_getElem? size.symm ha
          exact .inr ⟨s, each i a s ha hs, each' i b s hb hs⟩

/-- What a closed heap holds looks the same when the heap grows. -/
theorem Closed.isBisimulation (closed : h.Closed) (grown : h.Extends h') :
    IsBisimulation h h' fun x y => y = x ∧ h.Holds x where
  node_eq {x y} related := by
    obtain ⟨rfl, held⟩ := related
    exact (grown.same y held).node_eq.symm
  contents {x y} related i a b ha hb := by
    obtain ⟨rfl, held⟩ := related
    rw [(grown.same y held).contents_eq, ha, Option.some_inj] at hb
    subst hb
    exact ⟨rfl, closed.holds_contents a (List.mem_of_getElem? ha)⟩

/-- A copy of a struct of a closed heap has the spine that the struct had and has. -/
theorem exists_spine_of_cloneStruct {slot : Nat} {limits : Limits} {c : Item}
    (closed : h.Closed) (held : h.Holds (.seq ⟨.struct, slot⟩))
    (hclone : (h.cloneStruct limits ⟨.struct, slot⟩).result = .ok (c, h')) :
    ∃ s, h'.HasSpine (.seq ⟨.struct, slot⟩) s ∧ h'.HasSpine c s ∧ h.Extends h' ∧
      Spine.Fits limits 0 s ∧ s.children ≤ limits.maxCloneLength.toNat := by
  obtain ⟨s, hs, fits, hn, hbuild⟩ := cloneStruct_eq_ok_iff.1 hclone
  have made := hs.build_makes h
  rw [hbuild] at made
  -- All that is met along the spine is older than the copy.
  have kept := lasts_hasSpine _ _ _ _ hs made.grown fun _ _ hp _ => closed.holds_at? held hp
  exact ⟨s, kept, made.shows, made.grown, fits, hn⟩

end

/-! ### What is stored -/

/-- Bisimilar items are stored as the same bytes, or fail with the same fault, and put the
same on record.  In particular a copy of a struct is stored as the struct itself is,
before the copy was made and afterwards. -/
theorem serialize_ignores_sharing (h h' : Heap) :
    (∀ x y, h.Bisimilar h' x y → ∀ limits, h.serialize limits x = h'.serialize limits y) ∧
      ∀ (slot : Nat) (limits : Limits) (c : Item), h.Closed → h.Holds (.seq ⟨.struct, slot⟩) →
        (h.cloneStruct limits ⟨.struct, slot⟩).result = .ok (c, h') →
        ∀ limits', h'.serialize limits' c = h'.serialize limits' (.seq ⟨.struct, slot⟩) ∧
          h'.serialize limits' c = h.serialize limits' (.seq ⟨.struct, slot⟩) := by
  constructor
  · rintro x y ⟨R, b, hxy⟩ limits
    exact b.serialize_eq hxy limits
  · intro slot limits c closed held hclone limits'
    obtain ⟨s, hsource, hcopy, grown, -, -⟩ := exists_spine_of_cloneStruct closed held hclone
    have now : h'.serialize limits' c = h'.serialize limits' (.seq ⟨.struct, slot⟩) :=
      (isBisimulation_spine h').serialize_eq (.inr ⟨s, hcopy, hsource⟩) limits'
    have before := (closed.isBisimulation grown).serialize_eq ⟨rfl, held⟩ limits'
    exact ⟨now, now.trans before.symm⟩

/-- An array that holds itself, and two arrays that hold each other. -/
def rings : Heap :=
  { arrays := #[#[.seq ⟨.array, 0⟩], #[.seq ⟨.array, 2⟩], #[.seq ⟨.array, 1⟩]] }

/-- One array that holds itself cannot be told from two that hold each other: no limits
allow to store either, and both fail alike.  A struct that holds another one twice is
stored as its copy is, which holds two. -/
theorem serialize_ignores_sharing_rings :
    (∀ limits, rings.serialize limits (.seq ⟨.array, 0⟩)
        = rings.serialize limits (.seq ⟨.array, 1⟩)) ∧
      (rings.serialize .default (.seq ⟨.array, 1⟩)).result = .error (.depthExceeded 10) ∧
      ∃ c g, (doubled.cloneStruct .default ⟨.struct, 1⟩).result = .ok (c, g) ∧
        ∀ limits, g.serialize limits c = doubled.serialize limits (.seq ⟨.struct, 1⟩) := by
  have alike : rings.Bisimilar rings (.seq ⟨.array, 0⟩) (.seq ⟨.array, 1⟩) := by
    refine ⟨fun x y => x = .seq ⟨.array, 0⟩ ∧ (y = .seq ⟨.array, 1⟩ ∨ y = .seq ⟨.array, 2⟩),
      ⟨?_, ?_⟩, rfl, .inl rfl⟩
    · rintro x y ⟨rfl, rfl | rfl⟩
      · rfl
      · rfl
    · rintro x y ⟨rfl, hy⟩ i a b ha hb
      have ha : a = .seq ⟨.array, 0⟩ := List.mem_singleton.1 (List.mem_of_getElem? ha)
      refine ⟨ha, ?_⟩
      rcases hy with rfl | rfl
      · exact .inr (List.mem_singleton.1 (List.mem_of_getElem? hb))
      · exact .inl (List.mem_singleton.1 (List.mem_of_getElem? hb))
  obtain ⟨same, -⟩ := serialize_ignores_sharing rings rings
  have hclone : (doubled.cloneStruct .default ⟨.struct, 1⟩).result = .ok _ := rfl
  obtain ⟨-, copied⟩ := serialize_ignores_sharing doubled _
  have held : doubled.Holds (.seq ⟨.struct, 1⟩) := (by decide : 1 < 2)
  exact ⟨same _ _ alike, rfl, _, _, hclone,
    fun limits => (copied 1 .default _ closed_doubled held hclone limits).2⟩

end Heap

end StackItems
