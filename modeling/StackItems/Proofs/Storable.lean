/-
What the walk to storage accepts.

* `Storable` — the trees that storage can carry within limits;
* `tree_eq_ok_iff` — the walk gives exactly the tree of an item, and gives it exactly
  if that tree is storable and the budget holds all of its items.

Design notes: the walk is followed from what it gives to what it was given and back,
so every step of it has one statement, an equivalence.
-/
import StackItems.Proofs.SilentWalks
import StackItems.Proofs.Unfolding

namespace StackItems

/-- Trees that a walk to storage does not refuse: no primitive is too large, no
key occurs twice in a map, and every container lies above the limit of nesting. -/
inductive Tree.Storable (limits : Limits) : (depth : Nat) → Tree → Prop where
  | prim {depth : Nat} {p : Primitive} (small : p.storageFault? limits = none) :
      Storable limits depth (.prim p)
  | seq {depth : Nat} {kind : SeqKind} {children : List Tree}
      (room : depth < limits.maxStructDepth.toNat)
      (each : ∀ t ∈ children, Storable limits (depth + 1) t) :
      Storable limits depth (.seq kind children)
  | map {depth : Nat} {entries : List (Primitive × Tree)}
      (room : depth < limits.maxStructDepth.toNat)
      (distinct : (entries.map Prod.fst).Nodup)
      (small : ∀ e ∈ entries, e.1.storageFault? limits = none)
      (each : ∀ e ∈ entries, Storable limits (depth + 1) e.2) :
      Storable limits depth (.map entries)

namespace Heap

/-! ### The walk to storage -/

open StackItems.Tree (Storable)

section

variable {h : Heap} {limits : Limits}

theorem visitPrimitive_eq_ok_iff {p : Primitive} {n left : Nat} {u : Unit} :
    visitPrimitive limits p n = .ok (u, left) ↔
      p.storageFault? limits = none ∧ n = 1 + left := by
  rw [visitPrimitive, bind_eq_ok_iff]
  constructor
  · rintro ⟨_, m, hs, hrest⟩
    have hn := Budgeted.spend_eq_ok_iff.1 hs
    cases hp : p.storageFault? limits with
    | some fault =>
      rw [hp] at hrest
      exact absurd hrest Budgeted.stop_ne_ok
    | none =>
      rw [hp] at hrest
      obtain ⟨-, rfl⟩ := pure_eq_ok_iff.1 hrest
      exact ⟨rfl, by omega⟩
  · rintro ⟨hp, rfl⟩
    refine ⟨(), left, Budgeted.spend_eq_ok_iff.2 (Nat.add_comm ..), ?_⟩
    rw [hp]
    exact pure_eq_ok_iff.2 ⟨rfl, rfl⟩

/-- What the walk gives for an item at a depth, and what it costs. -/
def Walked (h : Heap) (limits : Limits) (depth : Nat) (x : Item) (t : Tree) (k : Nat) : Prop :=
  (h.Unfolds x t ∧ Storable limits depth t) ∧ k = t.size

theorem treeAt_prim_eq_ok_iff {room depth : Nat} {p : Primitive} {t : Tree} {n left : Nat} :
    h.treeAt limits room depth (.prim p) n = .ok (t, left) ↔
      ∃ k, h.Walked limits depth (.prim p) t k ∧ n = k + left := by
  rw [treeAt, bind_eq_ok_iff]
  constructor
  · rintro ⟨_, m, hv, ht⟩
    obtain ⟨hp, rfl⟩ := visitPrimitive_eq_ok_iff.1 hv
    obtain ⟨rfl, rfl⟩ := pure_eq_ok_iff.1 ht
    exact ⟨1, ⟨⟨.prim p, .prim hp⟩, by rw [Tree.size]⟩, rfl⟩
  · rintro ⟨k, ⟨⟨hu, hs⟩, rfl⟩, rfl⟩
    cases hu
    cases hs with
    | prim small =>
      rw [Tree.size]
      exact ⟨(), left, visitPrimitive_eq_ok_iff.2 ⟨small, rfl⟩, pure_eq_ok_iff.2 ⟨rfl, rfl⟩⟩

theorem treeAt_host_ne_ok {room depth : Nat} {r : HostRef} {t : Tree} {n left : Nat} :
    h.treeAt limits room depth (.host r) n ≠ .ok (t, left) := by
  rw [treeAt]
  intro hrun
  obtain ⟨_, m, -, hstop⟩ := bind_eq_ok_iff.1 hrun
  exact Budgeted.stop_ne_ok hstop

theorem treeAt_seq_eq_ok_iff {room depth : Nat}
    (hroom : depth < limits.maxStructDepth.toNat)
    (inner : ∀ x n t left, h.treeAt limits room (depth + 1) x n = .ok (t, left) ↔
      ∃ k, h.Walked limits (depth + 1) x t k ∧ n = k + left)
    {r : SeqRef} {t : Tree} {n left : Nat} :
    h.treeAt limits (room + 1) depth (.seq r) n = .ok (t, left) ↔
      ∃ k, h.Walked limits depth (.seq r) t k ∧ n = k + left := by
  have visit : ∀ {n ts left}, (h.items r).mapM (h.treeAt limits room (depth + 1)) n
      = .ok (ts, left) ↔ ∃ k, Each (h.Walked limits (depth + 1)) (h.items r) ts k ∧ n = k + left :=
    mapM_eq_ok_iff fun x _ => inner x
  have total : ∀ {ts k}, Each (h.Walked limits (depth + 1)) (h.items r) ts k ↔ _ :=
    each_iff Tree.sizeAll rfl fun _ _ => rfl
  rw [treeAt, bind_eq_ok_iff]
  constructor
  · rintro ⟨_, m, hspend, hrest⟩
    obtain ⟨ts, m', hts, ht⟩ := bind_eq_ok_iff.1 hrest
    obtain ⟨rfl, rfl⟩ := pure_eq_ok_iff.1 ht
    obtain ⟨k, hk, rfl⟩ := visit.1 hts
    obtain ⟨size, each, rfl⟩ := total.1 hk
    refine ⟨1 + Tree.sizeAll ts, ⟨⟨?_, ?_⟩, by rw [Tree.size]⟩, ?_⟩
    · exact .seq rfl size fun i x t hx ht => (each i x t hx ht).1
    · exact .seq hroom (forall_mem_of_getElem? size fun i x t hx ht => (each i x t hx ht).2)
    · have := Budgeted.spend_eq_ok_iff.1 hspend
      omega
  · rintro ⟨k, ⟨⟨hu, hs⟩, rfl⟩, rfl⟩
    cases hu with
    | @seq _ _ ts same size each =>
      subst same
      cases hs with
      | seq _ storable =>
        have hk := total.2 ⟨size, fun i x t hx ht =>
          ⟨each i x t hx ht, storable t (List.mem_of_getElem? ht)⟩, rfl⟩
        refine ⟨(), Tree.sizeAll ts + left, ?_, ?_⟩
        · rw [Budgeted.spend_eq_ok_iff, Tree.size]
          omega
        · exact bind_eq_ok_iff.2 ⟨ts, left, visit.2 ⟨_, hk, rfl⟩, pure_eq_ok_iff.2 ⟨rfl, rfl⟩⟩

/-- The same for an entry of a map, whose key is an item of its own. -/
def WalkedEntry (h : Heap) (limits : Limits) (depth : Nat) (a : Primitive × Item)
    (e : Primitive × Tree) (k : Nat) : Prop :=
  (a.1 = e.1 ∧ h.Unfolds a.2 e.2 ∧ e.1.storageFault? limits = none ∧
    Storable limits depth e.2) ∧ k = 1 + e.2.size

theorem treeAt_map_eq_ok_iff {room depth : Nat}
    (hroom : depth < limits.maxStructDepth.toNat)
    (inner : ∀ x n t left, h.treeAt limits room (depth + 1) x n = .ok (t, left) ↔
      ∃ k, h.Walked limits (depth + 1) x t k ∧ n = k + left)
    {r : MapRef} {t : Tree} {n left : Nat} :
    h.treeAt limits (room + 1) depth (.map r) n = .ok (t, left) ↔
      ∃ k, h.Walked limits depth (.map r) t k ∧ n = k + left := by
  have visitEntry : ∀ a ∈ (h.entries r).toList, ∀ n e left,
      (do visitPrimitive limits a.1
          return (a.1, ← h.treeAt limits room (depth + 1) a.2) : Budgeted Halt _) n
        = .ok (e, left) ↔ ∃ k, h.WalkedEntry limits (depth + 1) a e k ∧ n = k + left := by
    intro a _ n e left
    rw [bind_eq_ok_iff]
    constructor
    · rintro ⟨_, m, hv, hrest⟩
      obtain ⟨t, m', ht, he⟩ := bind_eq_ok_iff.1 hrest
      obtain ⟨rfl, rfl⟩ := pure_eq_ok_iff.1 he
      obtain ⟨hp, rfl⟩ := visitPrimitive_eq_ok_iff.1 hv
      obtain ⟨k, ⟨⟨hu, hs⟩, rfl⟩, rfl⟩ := (inner a.2 _ t _).1 ht
      exact ⟨1 + t.size, ⟨⟨rfl, hu, hp, hs⟩, rfl⟩, (Nat.add_assoc ..).symm⟩
    · rintro ⟨k, ⟨⟨hkey, hu, hp, hs⟩, rfl⟩, rfl⟩
      obtain ⟨key, t⟩ := e
      obtain rfl : a.1 = key := hkey
      refine ⟨(), t.size + left, ?_, ?_⟩
      · exact visitPrimitive_eq_ok_iff.2 ⟨hp, Nat.add_assoc ..⟩
      · have ht := (inner a.2 _ t left).2 ⟨t.size, ⟨⟨hu, hs⟩, rfl⟩, rfl⟩
        exact bind_eq_ok_iff.2 ⟨t, left, ht, pure_eq_ok_iff.2 ⟨rfl, rfl⟩⟩
  have visit := @mapM_eq_ok_iff _ _ _ _ _ _ visitEntry
  have total : ∀ {es k}, Each (h.WalkedEntry limits (depth + 1)) (h.entries r).toList es k ↔ _ :=
    each_iff Tree.sizeEntries rfl Tree.sizeEntries_cons
  rw [treeAt, bind_eq_ok_iff]
  constructor
  · rintro ⟨_, m, hspend, hrest⟩
    obtain ⟨es, m', hes, ht⟩ := bind_eq_ok_iff.1 hrest
    obtain ⟨rfl, rfl⟩ := pure_eq_ok_iff.1 ht
    obtain ⟨k, hk, rfl⟩ := visit.1 hes
    obtain ⟨size, each, rfl⟩ := total.1 hk
    have keys := map_eq_map_of_getElem? size fun i a e ha he => (each i a e ha he).1
    refine ⟨1 + Tree.sizeEntries es, ⟨⟨?_, ?_⟩, by rw [Tree.size]⟩, ?_⟩
    · exact .map size (fun i a e ha he => (each i a e ha he).1)
        fun i a e ha he => (each i a e ha he).2.1
    · refine .map hroom ?_ ?_ ?_
      · rw [← keys]
        exact (h.entries r).nodup
      · exact forall_mem_of_getElem? size fun i a e ha he => (each i a e ha he).2.2.1
      · exact forall_mem_of_getElem? size fun i a e ha he => (each i a e ha he).2.2.2
    · have := Budgeted.spend_eq_ok_iff.1 hspend
      omega
  · rintro ⟨k, ⟨⟨hu, hs⟩, rfl⟩, rfl⟩
    cases hu with
    | @map _ es size keys each =>
      cases hs with
      | map _ distinct small storable =>
        have hk := total.2 ⟨size, fun i a e ha he =>
          have he' := List.mem_of_getElem? he
          ⟨keys i a e ha he, each i a e ha he, small e he', storable e he'⟩, rfl⟩
        refine ⟨(), Tree.sizeEntries es + left, ?_, ?_⟩
        · rw [Budgeted.spend_eq_ok_iff, Tree.size]
          omega
        · exact bind_eq_ok_iff.2 ⟨es, left, visit.2 ⟨_, hk, rfl⟩, pure_eq_ok_iff.2 ⟨rfl, rfl⟩⟩

/-- A container at the limit of nesting is not walked. -/
theorem treeAt_zero_ne_ok {depth : Nat} {x : Item} (hx : x.kind.isCompound = true) {t : Tree}
    {n left : Nat} : h.treeAt limits 0 depth x n ≠ .ok (t, left) := by
  intro hrun
  cases x with
  | prim p => cases p <;> exact absurd hx Bool.false_ne_true
  | host r => exact absurd hx Bool.false_ne_true
  | seq r =>
    rw [treeAt] at hrun
    obtain ⟨_, m, -, hstop⟩ := bind_eq_ok_iff.1 hrun
    exact Budgeted.stop_ne_ok hstop
  | map r =>
    rw [treeAt] at hrun
    obtain ⟨_, m, -, hstop⟩ := bind_eq_ok_iff.1 hrun
    exact Budgeted.stop_ne_ok hstop

/-- The tree of a container is storable above the limit of nesting only. -/
theorem Walked.room {depth : Nat} {x : Item} {t : Tree} {k : Nat}
    (walked : h.Walked limits depth x t k) (hx : x.kind.isCompound = true) :
    depth < limits.maxStructDepth.toNat := by
  obtain ⟨⟨unfolds, storable⟩, -⟩ := walked
  cases unfolds with
  | prim p => cases p <;> exact absurd hx Bool.false_ne_true
  | seq same size each => cases storable; assumption
  | map size keys each => cases storable; assumption

theorem treeAt_eq_ok_iff {room depth : Nat} (hd : depth + room = limits.maxStructDepth.toNat)
    (x : Item) (n : Nat) (t : Tree) (left : Nat) :
    h.treeAt limits room depth x n = .ok (t, left) ↔
      ∃ k, h.Walked limits depth x t k ∧ n = k + left := by
  have host : ∀ {room depth r n t left}, h.treeAt limits room depth (.host r) n = .ok (t, left) ↔
      ∃ k, h.Walked limits depth (.host r) t k ∧ n = k + left := by
    intro room depth r n t left
    refine ⟨fun hrun => (treeAt_host_ne_ok hrun).elim, ?_⟩
    rintro ⟨k, ⟨⟨hu, -⟩, -⟩, -⟩
    cases hu
  -- The induction is on the levels that there is room for; depth counts the others.
  induction room generalizing depth x t n left with
  | zero =>
    have full : x.kind.isCompound = true → (h.treeAt limits 0 depth x n = .ok (t, left) ↔
        ∃ k, h.Walked limits depth x t k ∧ n = k + left) := by
      intro hx
      refine ⟨fun hrun => (treeAt_zero_ne_ok hx hrun).elim, ?_⟩
      rintro ⟨k, walked, -⟩
      have hroom := walked.room hx
      omega
    cases x with
    | prim p => exact treeAt_prim_eq_ok_iff
    | host r => exact host
    | seq r => exact full (isCompound_seq r)
    | map r => exact full rfl
  | succ room ih =>
    cases x with
    | prim p => exact treeAt_prim_eq_ok_iff
    | host r => exact host
    | seq r => exact treeAt_seq_eq_ok_iff (by omega) (ih (by omega))
    | map r => exact treeAt_map_eq_ok_iff (by omega) (ih (by omega))

/-- The walk to storage gives the tree of an item, exactly if the tree is storable
and its items do not exceed the budget. -/
theorem tree_eq_ok_iff {x : Item} {t : Tree} :
    h.tree limits x = .ok t ↔
      h.Unfolds x t ∧ Storable limits 0 t ∧ t.size ≤ limits.maxItems.toNat := by
  rw [tree, Budgeted.runFrom_eq_ok_iff]
  constructor
  · rintro ⟨left, hrun⟩
    obtain ⟨k, ⟨⟨hu, hs⟩, rfl⟩, hn⟩ := (treeAt_eq_ok_iff (Nat.zero_add _) x _ t left).1 hrun
    exact ⟨hu, hs, by omega⟩
  · rintro ⟨hu, hs, hsize⟩
    refine ⟨limits.maxItems.toNat - t.size, ?_⟩
    exact (treeAt_eq_ok_iff (Nat.zero_add _) x _ t _).2 ⟨t.size, ⟨⟨hu, hs⟩, rfl⟩, by omega⟩

end

end Heap

end StackItems
