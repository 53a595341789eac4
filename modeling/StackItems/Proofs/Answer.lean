/-
What the answer of a comparison says.

* `alike_structs_iff`, `alike_maps_iff` — when two containers of different storage are
  alike, in the words of the comparison;
* `Settles.iff_alike` — the answer says whether the items are alike.

Design notes: a comparison of maps looks up the keys of the first map only.  The maps
have one size and no key twice, so no key of the second map is missed.
-/
import Mathlib.Data.List.Perm.Subperm
import StackItems.Proofs.Settling

namespace StackItems

/-- The value under a key is that of the one entry with the key. -/
theorem Entries.get?_eq_some_iff {α : Type} {e : Entries α} {k : Primitive} {v : α} :
    e.get? k = some v ↔ (k, v) ∈ e.toList := by
  obtain ⟨l, hl⟩ := e
  show l.lookup k = some v ↔ (k, v) ∈ l
  induction l with
  | nil => simp
  | cons entry l ih =>
    obtain ⟨a, b⟩ := entry
    obtain ⟨hnew, hl⟩ := List.nodup_cons.1 hl
    by_cases hk : k = a
    · subst hk
      rw [List.lookup_cons_self, Option.some_inj, List.mem_cons, Prod.mk.injEq]
      constructor
      · rintro rfl
        exact .inl ⟨rfl, rfl⟩
      · rintro (⟨-, rfl⟩ | hmem)
        · rfl
        · exact absurd (List.mem_map_of_mem (f := Prod.fst) hmem) hnew
    · rw [List.lookup_cons, beq_false_of_ne hk, ih hl, List.mem_cons, Prod.mk.injEq]
      exact ⟨.inr, fun h => h.resolve_left fun h => hk h.1⟩

/-- The items of a pair are alike, and so are those of every pair of a list. -/
def Task.Alike (h : Heap) : Task → Prop
  | .pair x y => h.Alike x y
  | .all pairs => ∀ o ∈ pairs, ∃ x y, o = some (x, y) ∧ h.Alike x y

namespace Heap

section

variable {h : Heap} {x y : Item}

/-- Two structs of different storage are alike exactly if they have one size and are
alike element by element. -/
theorem alike_structs_iff {r s : SeqRef} (hr : r.kind = .struct) (hs : s.kind = .struct)
    (hrs : r ≠ s) :
    h.Alike (.seq r) (.seq s) ↔
      (h.elements r).size = (h.elements s).size ∧
        (Task.all (((h.items r).zip (h.items s)).map some)).Alike h := by
  have hsize : (h.items r).length = (h.items s).length ↔
      (h.elements r).size = (h.elements s).size := by
    rw [items, items, Array.length_toList, Array.length_toList]
  constructor
  · intro halike
    cases halike with
    | seq => exact absurd rfl hrs
    | elements _ _ size each =>
      refine ⟨hsize.1 size, ?_⟩
      intro o ho
      obtain ⟨⟨a, b⟩, hab, rfl⟩ := List.mem_map.1 ho
      obtain ⟨i, hi⟩ := List.mem_iff_getElem?.1 hab
      obtain ⟨ha, hb⟩ := List.getElem?_zip_eq_some.1 hi
      exact ⟨a, b, rfl, each i a b ha hb⟩
  · rintro ⟨size, each⟩
    refine .elements hr hs (hsize.2 size) ?_
    intro i a b ha hb
    have hab : (a, b) ∈ (h.items r).zip (h.items s) :=
      List.mem_iff_getElem?.2 ⟨i, List.getElem?_zip_eq_some.2 ⟨ha, hb⟩⟩
    obtain ⟨a', b', ho, halike⟩ := each _ (List.mem_map_of_mem hab)
    injection ho with ho
    injection ho with ha' hb'
    rw [ha', hb']
    exact halike

/-- Two maps of one size, of which the second has every key of the first, have the
same keys. -/
theorem mem_keys_iff_of_subset {r s : MapRef} (hsize : (h.entries r).size = (h.entries s).size)
    (subset : ∀ k ∈ (h.entries r).keys, k ∈ (h.entries s).keys) (k : Primitive) :
    k ∈ (h.entries r).keys ↔ k ∈ (h.entries s).keys := by
  have hsub : (h.entries r).keys.Subperm (h.entries s).keys :=
    List.subperm_of_subset (h.entries r).nodup_keys subset
  refine (hsub.perm_of_length_le ?_).mem_iff
  rw [Entries.keys, Entries.keys, List.length_map, List.length_map]
  exact Nat.le_of_eq hsize.symm

/-- Two maps of different storage are alike exactly if they have one size and the
second has, under every key of the first, a value that is alike. -/
theorem alike_maps_iff {r s : MapRef} (hrs : r ≠ s) :
    h.Alike (.map r) (.map s) ↔
      (h.entries r).size = (h.entries s).size ∧ (Task.all (h.mapPairs r s)).Alike h := by
  constructor
  · intro halike
    cases halike with
    | map => exact absurd rfl hrs
    | entries keys each =>
      constructor
      · have hperm : (h.entries r).keys.Perm (h.entries s).keys :=
          (List.perm_ext_iff_of_nodup (h.entries r).nodup_keys (h.entries s).nodup_keys).2 keys
        have hlen := hperm.length_eq
        rwa [Entries.keys, Entries.keys, List.length_map, List.length_map] at hlen
      · intro o ho
        obtain ⟨⟨k, a⟩, hk, rfl⟩ := List.mem_map.1 ho
        have hkey : k ∈ (h.entries s).keys := (keys k).1 (List.mem_map_of_mem (f := Prod.fst) hk)
        cases hb : (h.entries s).get? k with
        | none => exact absurd hkey (Entries.get?_eq_none_iff.1 hb)
        | some b => exact ⟨a, b, rfl, each k a b (Entries.get?_eq_some_iff.2 hk) hb⟩
  · rintro ⟨hsize, each⟩
    -- Every key of the first map is found in the second one, with a value that is alike.
    have found : ∀ k a, (h.entries r).get? k = some a →
        ∃ b, (h.entries s).get? k = some b ∧ h.Alike a b := by
      intro k a ha
      obtain ⟨a', b, ho, halike⟩ :=
        each _ (List.mem_map_of_mem (Entries.get?_eq_some_iff.1 ha))
      obtain ⟨b', hb, hpair⟩ := Option.map_eq_some_iff.1 ho
      injection hpair with ha' hb'
      rw [← ha', ← hb'] at halike
      exact ⟨b', hb, halike⟩
    refine .entries (mem_keys_iff_of_subset hsize ?_) ?_
    · intro k hk
      by_contra hnot
      cases ha : (h.entries r).get? k with
      | none => exact Entries.get?_eq_none_iff.1 ha hk
      | some a =>
        obtain ⟨b, hb, -⟩ := found k a ha
        rw [Entries.get?_eq_none_iff.2 hnot] at hb
        exact absurd hb (by simp)
    · intro k a b ha hb
      obtain ⟨b', hb', halike⟩ := found k a ha
      rw [hb, Option.some_inj] at hb'
      rw [hb']
      exact halike

/-- Items that a comparison enters are two structs or two maps of different storage. -/
theorem opening_cases {pairs : Option (List (Option (Item × Item)))}
    (opens : h.opening x y = .entered pairs) :
    (∃ r s, x = .seq r ∧ y = .seq s ∧ r.kind = .struct ∧ s.kind = .struct ∧ r ≠ s ∧
        pairs = if (h.elements r).size = (h.elements s).size
          then some (((h.items r).zip (h.items s)).map some) else none) ∨
      ∃ r s, x = .map r ∧ y = .map s ∧ r ≠ s ∧
        pairs = if (h.entries r).size = (h.entries s).size
          then some (h.mapPairs r s) else none := by
  rw [opening.eq_def] at opens
  split at opens
  · injection opens
  · injection opens
  · next r s =>
    split at opens
    · next hk =>
      split at opens
      · injection opens
      · next hrs =>
        injection opens with ho
        exact .inl ⟨r, s, rfl, rfl, hk.1, hk.2, hrs, ho.symm⟩
    · injection opens
  · next r s =>
    split at opens
    · injection opens
    · next hrs =>
      injection opens with ho
      exact .inr ⟨r, s, rfl, rfl, hrs, ho.symm⟩
  · injection opens

theorem alike_iff_of_entered {pairs : Option (List (Option (Item × Item)))}
    (opens : h.opening x y = .entered pairs) :
    h.Alike x y ↔ ∃ l, pairs = some l ∧ (Task.all l).Alike h := by
  rcases opening_cases opens with ⟨r, s, rfl, rfl, hr, hs, hrs, rfl⟩ | ⟨r, s, rfl, rfl, hrs, rfl⟩
  · rw [alike_structs_iff hr hs hrs]
    split
    · next hsize => simp [hsize]
    · next hsize => simp [hsize]
  · rw [alike_maps_iff hrs]
    split
    · next hsize => simp [hsize]
    · next hsize => simp [hsize]

theorem alike_iff_of_told {equal : Bool} (opens : h.opening x y = .told equal) :
    equal = true ↔ h.Alike x y := by
  rw [opening.eq_def] at opens
  split at opens
  · next p q =>
    injection opens with ho
    subst ho
    rw [beq_iff_eq]
    constructor
    · rintro rfl
      exact .prim p
    · intro halike
      cases halike
      rfl
  · next r s =>
    injection opens with ho
    subst ho
    rw [beq_iff_eq]
    constructor
    · rintro rfl
      exact .host r
    · intro halike
      cases halike
      rfl
  · next r s =>
    split at opens
    · split at opens
      · next hrs =>
        injection opens with ho
        subst ho hrs
        exact ⟨fun _ => .seq r, fun _ => rfl⟩
      · injection opens
    · next hk =>
      injection opens with ho
      subst ho
      rw [beq_iff_eq]
      constructor
      · rintro rfl
        exact .seq r
      · intro halike
        cases halike with
        | seq => rfl
        | elements hr hs _ _ => exact absurd ⟨hr, hs⟩ hk
  · next r s =>
    split at opens
    · next hrs =>
      injection opens with ho
      subst ho hrs
      exact ⟨fun _ => .map r, fun _ => rfl⟩
    · injection opens
  · next hprim hhost hseq hmap =>
    injection opens with ho
    subst ho
    constructor
    · intro hfalse
      exact absurd hfalse (by simp)
    · intro halike
      cases halike with
      | prim p => exact (hprim p p rfl rfl).elim
      | host r => exact (hhost r r rfl rfl).elim
      | seq r => exact (hseq r r rfl rfl).elim
      | map r => exact (hmap r r rfl rfl).elim
      | elements _ _ _ _ => exact (hseq _ _ rfl rfl).elim
      | entries _ _ => exact (hmap _ _ rfl rfl).elim

/-- The answer of a comparison says whether the items are alike. -/
theorem Settles.iff_alike {task : Task} {equal : Bool} {n d : Nat}
    (hs : h.Settles task equal n d) : equal = true ↔ task.Alike h := by
  induction hs with
  | told opens => exact alike_iff_of_told opens
  | sizes opens =>
    rw [Task.Alike, alike_iff_of_entered opens]
    simp
  | entered opens inside ih =>
    rw [Task.Alike, alike_iff_of_entered opens, ih]
    simp
  | nil => simp [Task.Alike]
  | alone rest => simp [Task.Alike]
  | differ first rest ih =>
    -- One pair that is not alike is enough, whatever the pairs behind it.
    have hfirst := mt ih.2 (by simp)
    constructor
    · intro hfalse
      exact absurd hfalse (by simp)
    · intro hall
      obtain ⟨a, b, ho, halike⟩ := hall _ (List.mem_cons_self ..)
      injection ho with ho
      injection ho with ha hb
      subst ha hb
      exact absurd halike hfirst
  | next first others ih ihothers =>
    have hfirst := ih.1 rfl
    rw [ihothers]
    constructor
    · intro hrest o ho
      rcases List.mem_cons.1 ho with rfl | ho
      · exact ⟨_, _, rfl, hfirst⟩
      · exact hrest o ho
    · intro hall o ho
      exact hall o (List.mem_cons_of_mem _ ho)

end

end Heap

end StackItems
