/-
Heaps that differ in the names of their storage.

What a program can see of a heap does not depend on which slot of a table storage lies
in, nor on storage that nothing leads to.  A renaming relates the items of two heaps one
to one, so that related items look the same and hold related items.  Storage that it does
not relate to anything may be whatever it is.

* `Renaming` — such a relation;
* `Renaming.grown` — **new storage that nothing leads to does not matter**;
* `Renaming.insert`, `Renaming.put` — storage that is made, or changed, alike in both
  heaps;
* `Renaming.symm`, `Renaming.trans`, `Closed.renaming` — renamings can be turned round
  and composed, and a closed heap is a renaming of itself.

Design notes: a renaming is a relation rather than a function, so that nothing has to be
said about items which neither heap leads to.
-/
import Mathlib.Data.List.Forall2
import StackItems.Proofs.Bisimilarity

namespace StackItems

section

variable {α β : Type} {R S : α → β → Prop} {as : List α} {bs : List β}

/-- Lists whose elements are related one by one, by index. -/
theorem forall₂_iff_getElem? : List.Forall₂ R as bs ↔ as.length = bs.length ∧
    ∀ (i : Nat) (a : α) (b : β), as[i]? = some a → bs[i]? = some b → R a b := by
  constructor
  · intro related
    refine ⟨related.length_eq, ?_⟩
    induction related with
    | nil => exact fun i a b ha => absurd ha (by simp)
    | cons first rest ih =>
      intro i a b ha hb
      cases i with
      | zero =>
        rw [List.getElem?_cons_zero, Option.some_inj] at ha hb
        rwa [← ha, ← hb]
      | succ i => exact ih i a b ha hb
  · rintro ⟨size, each⟩
    induction as generalizing bs with
    | nil =>
      rw [List.eq_nil_of_length_eq_zero size.symm]
      exact .nil
    | cons a as ih =>
      cases bs with
      | nil => exact absurd size (by simp)
      | cons b bs =>
        exact .cons (each 0 a b rfl rfl)
          (ih (Nat.succ.inj size) fun i => each (i + 1))

end

/-- Related things under one key, or under one name. -/
def KeyedAlike {κ α β : Type} (R : α → β → Prop) (a : κ × α) (b : κ × β) : Prop :=
  a.1 = b.1 ∧ R a.2 b.2

/-- Arrays whose items are related one by one. -/
def PairedItems (R : Item → Item → Prop) (xs ys : Array Item) : Prop :=
  List.Forall₂ R xs.toList ys.toList

theorem PairedItems.push {R : Item → Item → Prop} {xs ys : Array Item} {x y : Item}
    (related : PairedItems R xs ys) (hxy : R x y) : PairedItems R (xs.push x) (ys.push y) := by
  rw [PairedItems, Array.toList_push, Array.toList_push]
  exact List.rel_append related (.cons hxy .nil)

namespace Heap

/-- A one-to-one relation between items of two heaps that lead somewhere: related items
look the same, and what they hold is related index by index. -/
structure Renaming (h g : Heap) (R : Item → Item → Prop) : Prop extends IsBisimulation h g R where
  same : ∀ {x y x' y' : Item}, R x y → R x' y' → (x = x' ↔ y = y')
  holds : ∀ {x y : Item}, R x y → h.Holds x ∧ g.Holds y
  prim : ∀ p : Primitive, R (.prim p) (.prim p)
  object : ∀ {r s : HostRef}, R (.host r) (.host s) → h.object r = g.object s

section

variable {h h' g g' k : Heap} {R S : Item → Item → Prop} {x y : Item}

/-! ### What related items hold -/

theorem Renaming.contents_related (ρ : Renaming h g R) (hxy : R x y) :
    List.Forall₂ R (h.contents x) (g.contents y) :=
  forall₂_iff_getElem?.2 ⟨length_contents_eq (ρ.node_eq hxy), ρ.contents hxy⟩

theorem Renaming.items (ρ : Renaming h g R) {r s : SeqRef} (hrs : R (.seq r) (.seq s)) :
    List.Forall₂ R (h.items r) (g.items s) := ρ.contents_related hrs

theorem Renaming.entries (ρ : Renaming h g R) {r s : MapRef} (hrs : R (.map r) (.map s)) :
    List.Forall₂ (KeyedAlike R) (h.entries r).toList (g.entries s).toList := by
  have look := ρ.node_eq hrs
  injection look with keys
  refine forall₂_iff_getElem?.2 ⟨Entries.length_eq_of_keys_eq keys, fun i a b ha hb => ?_⟩
  refine ⟨Entries.fst_eq_of_keys_eq keys ha hb, ρ.contents hrs i a.2 b.2 ?_ ?_⟩
  · rw [Heap.contents, Entries.values, List.getElem?_map, ha, Option.map_some]
  · rw [Heap.contents, Entries.values, List.getElem?_map, hb, Option.map_some]

/-- Related items are the same primitive, or handles of one kind. -/
theorem Renaming.cases (ρ : Renaming h g R) (hxy : R x y) :
    (∃ p, x = .prim p ∧ y = .prim p) ∨ (∃ r s, x = .host r ∧ y = .host s) ∨
      (∃ r s, x = .seq r ∧ y = .seq s ∧ r.kind = s.kind) ∨ ∃ r s, x = .map r ∧ y = .map s := by
  rcases node_eq_cases (ρ.node_eq hxy) with prims | hosts | ⟨r, s, hx, hy, hkind, -⟩ |
    ⟨r, s, hx, hy, -⟩
  · exact .inl prims
  · exact .inr (.inl hosts)
  · exact .inr (.inr (.inl ⟨r, s, hx, hy, hkind⟩))
  · exact .inr (.inr (.inr ⟨r, s, hx, hy⟩))

theorem Renaming.kind_eq (ρ : Renaming h g R) (hxy : R x y) : x.kind = y.kind := by
  rcases ρ.cases hxy with ⟨p, rfl, rfl⟩ | ⟨r, s, rfl, rfl⟩ | ⟨r, s, rfl, rfl, hkind⟩ |
    ⟨r, s, rfl, rfl⟩
  · rfl
  · rfl
  · rw [Item.kind, Item.kind, hkind]
  · rfl

theorem Renaming.seqKind_eq (ρ : Renaming h g R) {r s : SeqRef} (hrs : R (.seq r) (.seq s)) :
    r.kind = s.kind := (Node.seq.inj (ρ.node_eq hrs)).1

/-! ### Turning round and composing -/

/-- A closed heap is a renaming of itself, which leaves every name as it is. -/
theorem Closed.renaming (closed : h.Closed) : Renaming h h fun x y => y = x ∧ h.Holds x where
  toIsBisimulation := closed.isBisimulation (.refl h)
  same := by
    rintro x y x' y' ⟨rfl, -⟩ ⟨rfl, -⟩
    exact Iff.rfl
  holds := by
    rintro x y ⟨rfl, held⟩
    exact ⟨held, held⟩
  prim p := ⟨rfl, trivial⟩
  object := by
    rintro r s ⟨hrs, -⟩
    rw [Item.host.inj hrs]

theorem Renaming.symm (ρ : Renaming h g R) : Renaming g h fun y x => R x y where
  node_eq hxy := (ρ.node_eq hxy).symm
  contents hxy i a b ha hb := ρ.contents hxy i b a hb ha
  same hxy hxy' := (ρ.same hxy hxy').symm
  holds hxy := (ρ.holds hxy).symm
  prim := ρ.prim
  object hrs := (ρ.object hrs).symm

theorem Renaming.trans (ρ : Renaming h g R) (σ : Renaming g k S) :
    Renaming h k fun x z => ∃ y, R x y ∧ S y z where
  node_eq := by
    rintro x z ⟨y, hxy, hyz⟩
    exact (ρ.node_eq hxy).trans (σ.node_eq hyz)
  contents := by
    rintro x z ⟨y, hxy, hyz⟩ i a c ha hc
    obtain ⟨b, hb⟩ := exists_getElem? (length_contents_eq (σ.node_eq hyz)) hc
    exact ⟨b, ρ.contents hxy i a b ha hb, σ.contents hyz i b c hb hc⟩
  same := by
    rintro x z x' z' ⟨y, hxy, hyz⟩ ⟨y', hxy', hyz'⟩
    exact (ρ.same hxy hxy').trans (σ.same hyz hyz')
  holds := by
    rintro x z ⟨y, hxy, hyz⟩
    exact ⟨(ρ.holds hxy).1, (σ.holds hyz).2⟩
  prim p := ⟨.prim p, ρ.prim p, σ.prim p⟩
  object := by
    rintro r t ⟨y, hxy, hyz⟩
    rcases ρ.cases hxy with ⟨p, hr, -⟩ | ⟨-, s, -, rfl⟩ | ⟨_, s, hr, -⟩ | ⟨_, s, hr, -⟩
    · exact absurd hr (by simp)
    · exact (ρ.object hxy).trans (σ.object hyz)
    · exact absurd hr (by simp)
    · exact absurd hr (by simp)

/-! ### Storage that is left alone -/

/-- Storage that holds the same in both heaps as it did keeps all that a renaming says of
it. -/
theorem Renaming.look (ρ : Renaming h g R) (hxy : R x y) (left : h.SameAt h' x)
    (right : g.SameAt g' y) :
    h'.node x = g'.node y ∧ List.Forall₂ R (h'.contents x) (g'.contents y) := by
  rw [left.node_eq, right.node_eq, left.contents_eq, right.contents_eq]
  exact ⟨ρ.node_eq hxy, ρ.contents_related hxy⟩

/-- A renaming stays one when both heaps grow: new storage that nothing leads to does not
matter. -/
theorem Renaming.grown (ρ : Renaming h g R) (left : h.Extends h') (right : g.Extends g') :
    Renaming h' g' R where
  node_eq {x y} hxy :=
    (ρ.look hxy (left.same x (ρ.holds hxy).1) (right.same y (ρ.holds hxy).2)).1
  contents {x y} hxy :=
    (forall₂_iff_getElem?.1
      (ρ.look hxy (left.same x (ρ.holds hxy).1) (right.same y (ρ.holds hxy).2)).2).2
  same := ρ.same
  holds {x y} hxy := ⟨left.holds x (ρ.holds hxy).1, right.holds y (ρ.holds hxy).2⟩
  prim := ρ.prim
  object {r s} hrs := by
    have hr : h'.object r = h.object r := left.same _ (ρ.holds hrs).1
    have hs : g'.object s = g.object s := right.same _ (ρ.holds hrs).2
    rw [hr, hs, ρ.object hrs]

/-! ### Storage that is made or changed in both heaps -/

/-- The relation with one more pair. -/
def withPair (R : Item → Item → Prop) (x y : Item) : Item → Item → Prop :=
  fun a b => R a b ∨ a = x ∧ b = y

theorem subrelation_withPair (R : Item → Item → Prop) (x y : Item) :
    Subrelation R (withPair R x y) := fun hab => .inl hab

/-- New storage on both sides is related if it looks the same and holds related items. -/
theorem Renaming.insert (ρ : Renaming h g R) (left : h.Extends h') (right : g.Extends g')
    (hx : ¬ h.Holds x ∧ h'.Holds x) (hy : ¬ g.Holds y ∧ g'.Holds y)
    (look : h'.node x = g'.node y) (below : List.Forall₂ R (h'.contents x) (g'.contents y))
    (object : ∀ r s, x = .host r → y = .host s → h'.object r = g'.object s) :
    Renaming h' g' (withPair R x y) := by
  have old := ρ.grown left right
  constructor
  · constructor
    · rintro a b (hab | ⟨rfl, rfl⟩)
      · exact old.node_eq hab
      · exact look
    · rintro a b (hab | ⟨rfl, rfl⟩) i c d hc hd
      · exact .inl (old.contents hab i c d hc hd)
      · exact .inl ((forall₂_iff_getElem?.1 below).2 i c d hc hd)
  · -- What is new is not related to anything yet, on either side.
    have fresh : ∀ {a b}, R a b → ¬ a = x ∧ ¬ b = y := by
      intro a b hab
      constructor
      · rintro rfl
        exact hx.1 (ρ.holds hab).1
      · rintro rfl
        exact hy.1 (ρ.holds hab).2
    rintro a b a' b' (hab | ⟨rfl, rfl⟩) (hab' | ⟨rfl, rfl⟩)
    · exact ρ.same hab hab'
    · exact iff_of_false (fresh hab).1 (fresh hab).2
    · exact iff_of_false (Ne.symm (fresh hab').1) (Ne.symm (fresh hab').2)
    · exact iff_of_true rfl rfl
  · rintro a b (hab | ⟨rfl, rfl⟩)
    · exact old.holds hab
    · exact ⟨hx.2, hy.2⟩
  · exact fun p => .inl (ρ.prim p)
  · rintro r s (hrs | ⟨hr, hs⟩)
    · exact old.object hrs
    · exact object r s hr.symm hs.symm

/-- A change to related storage keeps a renaming if what is there afterwards looks the
same and holds related items. -/
theorem Renaming.put (ρ : Renaming h g R) (hxy : R x y)
    (left : ∀ a, a ≠ x → h.SameAt h' a) (right : ∀ b, b ≠ y → g.SameAt g' b)
    (holds : ∀ a, h.Holds a → h'.Holds a) (holds' : ∀ b, g.Holds b → g'.Holds b)
    (notHost : ∀ r, x ≠ .host r) (look : h'.node x = g'.node y)
    (below : List.Forall₂ R (h'.contents x) (g'.contents y)) : Renaming h' g' R := by
  -- A related pair is the changed one, or untouched on both sides.
  have each : ∀ {a b}, R a b →
      h'.node a = g'.node b ∧ List.Forall₂ R (h'.contents a) (g'.contents b) := by
    intro a b hab
    by_cases ha : a = x
    · have hb := (ρ.same hab hxy).1 ha
      rw [ha, hb]
      exact ⟨look, below⟩
    · have hb := mt (ρ.same hab hxy).2 ha
      exact ρ.look hab (left a ha) (right b hb)
  refine ⟨⟨fun hab => (each hab).1, fun hab => (forall₂_iff_getElem?.1 (each hab).2).2⟩, ρ.same,
    fun hab => ⟨holds _ (ρ.holds hab).1, holds' _ (ρ.holds hab).2⟩, ρ.prim, fun {r s} hrs => ?_⟩
  have hr : Item.host r ≠ x := (notHost r).symm
  have hs : Item.host s ≠ y := mt (ρ.same hrs hxy).2 hr
  have hleft : h'.object r = h.object r := left _ hr
  have hright : g'.object s = g.object s := right _ hs
  rw [hleft, hright, ρ.object hrs]

end

end Heap

end StackItems
