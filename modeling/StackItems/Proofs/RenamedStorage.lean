/-
New and changed storage in renamed heaps.

What is done alike in two heaps that differ in the names of storage leaves them so: a
change to related storage keeps the renaming, and storage that is made on both sides joins
it.

* `MadeAlike` — the same thing made in both heaps;
* `Renaming.newSeq`, `Renaming.newMap`, `Renaming.newHost` — new storage;
* `Renaming.putSeq`, `Renaming.putMap` — changed storage, and from them every operation on
  a sequence or a map;
* `Renaming.build` — the storage of a tree;
* `copyAt_alike` — **the copy of a struct, which stops in both heaps or in neither.**

Design notes: operations that fail give the same fault on both sides; what they leave
behind in a heap is left out here.
-/
import StackItems.Proofs.RenamedReads
import StackItems.Proofs.StepwiseCopy
import StackItems.Sequence
import StackItems.Tree

namespace StackItems

/-! ### Related contents -/

section

variable {R R' : Item → Item → Prop} {xs ys : Array Item} {es fs : Entries Item} {x y : Item}

/-- Entries with the same keys in the same order and related values. -/
def PairedEntries (R : Item → Item → Prop) (es fs : Entries Item) : Prop :=
  List.Forall₂ (KeyedAlike R) es.toList fs.toList

theorem PairedItems.mono (related : PairedItems R xs ys) (more : Subrelation R R') :
    PairedItems R' xs ys := List.Forall₂.imp (fun _ _ hab => more hab) related

theorem PairedEntries.mono (related : PairedEntries R es fs) (more : Subrelation R R') :
    PairedEntries R' es fs := List.Forall₂.imp (fun _ _ hab => ⟨hab.1, more hab.2⟩) related

theorem PairedItems.size_eq (related : PairedItems R xs ys) : xs.size = ys.size :=
  related.length_eq

theorem PairedItems.getElem? (related : PairedItems R xs ys) (i : Nat) :
    Option.Rel R xs[i]? ys[i]? := by
  rw [← Array.getElem?_toList, ← Array.getElem?_toList]
  cases hx : xs.toList[i]? with
  | none =>
    rw [List.getElem?_eq_none_iff, related.length_eq] at hx
    rw [List.getElem?_eq_none_iff.2 hx]
    exact .none
  | some a =>
    obtain ⟨b, hb⟩ := exists_getElem? related.length_eq.symm hx
    rw [hb]
    exact .some ((forall₂_iff_getElem?.1 related).2 i a b hx hb)

theorem PairedItems.setIfInBounds (related : PairedItems R xs ys) (i : Nat) (hxy : R x y) :
    PairedItems R (xs.setIfInBounds i x) (ys.setIfInBounds i y) := by
  rw [PairedItems, Array.toList_setIfInBounds, Array.toList_setIfInBounds,
    List.set_eq_take_append_cons_drop, List.set_eq_take_append_cons_drop, related.length_eq]
  split
  · exact List.rel_append (List.forall₂_take i related)
      (.cons hxy (List.forall₂_drop (i + 1) related))
  · exact related

theorem PairedItems.pop (related : PairedItems R xs ys) : PairedItems R xs.pop ys.pop := by
  rw [PairedItems, Array.toList_pop, Array.toList_pop, List.dropLast_eq_take,
    List.dropLast_eq_take, related.length_eq]
  exact List.forall₂_take _ related

theorem PairedItems.eraseIdxIfInBounds (related : PairedItems R xs ys) (i : Nat) :
    PairedItems R (xs.eraseIdxIfInBounds i) (ys.eraseIdxIfInBounds i) := by
  rw [PairedItems, Array.toList_eraseIdxIfInBounds, Array.toList_eraseIdxIfInBounds,
    List.eraseIdx_eq_take_drop_succ, List.eraseIdx_eq_take_drop_succ]
  exact List.rel_append (List.forall₂_take i related) (List.forall₂_drop (i + 1) related)

theorem PairedEntries.keys_eq (related : PairedEntries R es fs) : es.keys = fs.keys := by
  rw [Entries.keys, Entries.keys, ← List.forall₂_eq_eq_eq, List.forall₂_map_left_iff,
    List.forall₂_map_right_iff]
  exact List.Forall₂.imp (fun _ _ hab => hab.1) related

theorem PairedEntries.values (related : PairedEntries R es fs) :
    List.Forall₂ R es.values fs.values := by
  rw [Entries.values, Entries.values, List.forall₂_map_left_iff, List.forall₂_map_right_iff]
  exact List.Forall₂.imp (fun _ _ hab => hab.2) related

theorem PairedEntries.insert (related : PairedEntries R es fs) (k : Primitive) (hxy : R x y) :
    PairedEntries R (es.insert k x) (fs.insert k y) := by
  have keys := related.keys_eq
  by_cases hk : k ∈ es.keys
  · rw [PairedEntries, Entries.toList_insert_of_mem x hk,
      Entries.toList_insert_of_mem y (keys ▸ hk), Entries.replaceIn, Entries.replaceIn,
      List.forall₂_map_left_iff, List.forall₂_map_right_iff]
    refine List.Forall₂.imp (fun a b hab => ?_) related
    rw [hab.1]
    split
    · exact ⟨rfl, hxy⟩
    · exact hab
  · rw [PairedEntries, Entries.toList_insert_of_not_mem x hk,
      Entries.toList_insert_of_not_mem y (keys ▸ hk)]
    exact List.rel_append related (.cons ⟨rfl, hxy⟩ .nil)

theorem PairedEntries.erase (related : PairedEntries R es fs) (k : Primitive) :
    PairedEntries R (es.erase k) (fs.erase k) := by
  refine List.rel_filter ?_ related
  intro a b hab
  dsimp only
  rw [hab.1]

theorem pairedEntries_numbered {as bs : List Item} (related : List.Forall₂ R as bs) :
    PairedEntries R (.numbered as) (.numbered bs) := by
  rw [PairedEntries, Entries.numbered, Entries.numbered, List.forall₂_map_left_iff,
    List.forall₂_map_right_iff]
  have counted : ∀ n, List.Forall₂ (fun a b => a.2 = b.2 ∧ R a.1 b.1)
      (as.zipIdx n) (bs.zipIdx n) := by
    induction related with
    | nil => exact fun n => .nil
    | cons hab rest ih => exact fun n => .cons ⟨rfl, hab⟩ (ih (n + 1))
  refine List.Forall₂.imp (fun a b hab => ?_) (counted 0)
  exact ⟨by rw [hab.1], hab.2⟩

end

namespace Heap

/-- The same thing made in two heaps: the renaming has grown, what was made is related in
the one that there is now, and the second heap still holds all that it held. -/
def MadeAlike {α β : Type} (R : Item → Item → Prop) (g : Heap)
    (S : (Item → Item → Prop) → α → β → Prop) (made : α × Heap) (made' : β × Heap) : Prop :=
  ∃ R', Subrelation R R' ∧ Renaming made.2 made'.2 R' ∧ g.Extends made'.2 ∧ S R' made.1 made'.1

section

variable {h g : Heap} {R : Item → Item → Prop} {x y : Item} {r s : SeqRef} {m n : MapRef}
  {xs ys : Array Item} {es fs : Entries Item}

/-! ### New storage -/

theorem extends_newHost (h : Heap) (o : HostObject) : h.Extends (h.newHost o).2 := by
  constructor
  · intro x hx
    cases x with
    | prim p => trivial
    | seq r => obtain ⟨kind, slot⟩ := r; cases kind <;> exact hx
    | map r => exact hx
    | host r => exact Nat.lt_of_lt_of_le hx (by simp [newHost])
  · intro x hx
    cases x with
    | prim p => trivial
    | seq r => obtain ⟨kind, slot⟩ := r; cases kind <;> rfl
    | map r => rfl
    | host r =>
      have hx : r.slot < h.hosts.size := hx
      simp [SameAt, object, newHost, Array.getElem?_push, Nat.ne_of_lt hx]

theorem Renaming.newSeq (ρ : Renaming h g R) (kind : SeqKind) (related : PairedItems R xs ys) :
    MadeAlike R g (fun R' => R') (.seq (h.newSeq kind xs).1, (h.newSeq kind xs).2)
      (.seq (g.newSeq kind ys).1, (g.newSeq kind ys).2) := by
  have hitems : (h.newSeq kind xs).2.items (h.newSeq kind xs).1 = xs.toList := by
    rw [Heap.items, elements_newSeq_self]
  have gitems : (g.newSeq kind ys).2.items (g.newSeq kind ys).1 = ys.toList := by
    rw [Heap.items, elements_newSeq_self]
  refine ⟨withPair R _ _, subrelation_withPair R _ _, ?_, g.extends_newSeq kind ys, .inr ⟨rfl, rfl⟩⟩
  refine ρ.insert (h.extends_newSeq kind xs) (g.extends_newSeq kind ys)
    ⟨h.not_holds_newSeq kind xs, h.holds_newSeq kind xs⟩
    ⟨g.not_holds_newSeq kind ys, g.holds_newSeq kind ys⟩ ?_ ?_ (fun _ _ hr => absurd hr (by simp))
  · rw [node, node, hitems, gitems, related.length_eq]
    rfl
  · rw [Heap.contents, Heap.contents, hitems, gitems]
    exact related

theorem Renaming.newMap (ρ : Renaming h g R) (related : PairedEntries R es fs) :
    MadeAlike R g (fun R' => R') (.map (h.newMap es).1, (h.newMap es).2)
      (.map (g.newMap fs).1, (g.newMap fs).2) := by
  refine ⟨withPair R _ _, subrelation_withPair R _ _, ?_, g.extends_newMap fs, .inr ⟨rfl, rfl⟩⟩
  refine ρ.insert (h.extends_newMap es) (g.extends_newMap fs)
    ⟨h.not_holds_newMap es, h.holds_newMap es⟩ ⟨g.not_holds_newMap fs, g.holds_newMap fs⟩ ?_ ?_
    (fun _ _ hr => absurd hr (by simp))
  · rw [node, node, entries_newMap_self, entries_newMap_self, related.keys_eq]
  · rw [Heap.contents, Heap.contents, entries_newMap_self, entries_newMap_self]
    exact related.values

theorem Renaming.newHost (ρ : Renaming h g R) (o : HostObject) :
    MadeAlike R g (fun R' => R') (.host (h.newHost o).1, (h.newHost o).2)
      (.host (g.newHost o).1, (g.newHost o).2) := by
  have fresh : ∀ k : Heap, ¬ k.Holds (.host (k.newHost o).1) ∧
      (k.newHost o).2.Holds (.host (k.newHost o).1) ∧
      (k.newHost o).2.object (k.newHost o).1 = o := by
    intro k
    refine ⟨Nat.lt_irrefl k.hosts.size, ?_, ?_⟩
    · simp [Holds, Heap.newHost]
    · simp [Heap.object, Heap.newHost]
  obtain ⟨hfresh, hheld, hobject⟩ := fresh h
  obtain ⟨gfresh, gheld, gobject⟩ := fresh g
  refine ⟨withPair R _ _, subrelation_withPair R _ _, ?_, g.extends_newHost o, .inr ⟨rfl, rfl⟩⟩
  refine ρ.insert (h.extends_newHost o) (g.extends_newHost o) ⟨hfresh, hheld⟩ ⟨gfresh, gheld⟩ rfl
    .nil ?_
  intro r s hr hs
  rw [← Item.host.inj hr, ← Item.host.inj hs, hobject, gobject]

/-! ### Changed storage -/

theorem Renaming.putSeq (ρ : Renaming h g R) (hrs : R (.seq r) (.seq s))
    (related : PairedItems R xs ys) : Renaming (h.putSeq r xs) (g.putSeq s ys) R := by
  obtain ⟨hr, hs⟩ := ρ.holds hrs
  have hitems := items_putSeq xs hr
  have gitems := items_putSeq ys hs
  refine ρ.put hrs (fun _ => sameAt_putSeq xs) (fun _ => sameAt_putSeq ys)
    (fun _ => (h.holds_putSeq r xs).2) (fun _ => (g.holds_putSeq s ys).2) (fun _ => by simp) ?_ ?_
  · rw [node, node, hitems, gitems, related.length_eq, ρ.seqKind_eq hrs]
  · rw [Heap.contents, Heap.contents, hitems, gitems]
    exact related

theorem Renaming.putMap (ρ : Renaming h g R) (hmn : R (.map m) (.map n))
    (related : PairedEntries R es fs) : Renaming (h.putMap m es) (g.putMap n fs) R := by
  obtain ⟨hm, hn⟩ := ρ.holds hmn
  refine ρ.put hmn (fun _ => h.sameAt_putMap es) (fun _ => g.sameAt_putMap fs)
    (fun _ => (h.holds_putMap m es).2) (fun _ => (g.holds_putMap n fs).2) (fun _ => by simp) ?_ ?_
  · rw [node, node, entries_putMap_self es hm, entries_putMap_self fs hn, related.keys_eq]
  · rw [Heap.contents, Heap.contents, entries_putMap_self es hm, entries_putMap_self fs hn]
    exact related.values

/-! ### Operations on sequences and maps -/

theorem Renaming.elements (ρ : Renaming h g R) (hrs : R (.seq r) (.seq s)) :
    PairedItems R (h.elements r) (g.elements s) := ρ.items hrs

theorem Renaming.getAt_likewise (ρ : Renaming h g R) (hrs : R (.seq r) (.seq s)) (i : Nat) :
    Likewise R (h.getAt r i) (g.getAt s i) := by
  have found := (ρ.elements hrs).getElem? i
  rw [getAt, getAt, (ρ.elements hrs).size_eq]
  revert found
  generalize (h.elements r)[i]? = p
  generalize (g.elements s)[i]? = q
  rintro (hpq | _)
  · exact .done hpq
  · exact .failed _

theorem Renaming.setAt_likewise (ρ : Renaming h g R) (hrs : R (.seq r) (.seq s)) (i : Nat)
    (hxy : R x y) :
    Likewise (fun h' g' => Renaming h' g' R) (h.setAt r i x) (g.setAt s i y) := by
  rw [setAt, setAt, (ρ.elements hrs).size_eq]
  split
  · exact .done (ρ.putSeq hrs ((ρ.elements hrs).setIfInBounds i hxy))
  · exact .failed _

theorem Renaming.add (ρ : Renaming h g R) (hrs : R (.seq r) (.seq s)) (hxy : R x y) :
    Renaming (h.add r x) (g.add s y) R := ρ.putSeq hrs ((ρ.elements hrs).push hxy)

theorem Renaming.pop_likewise (ρ : Renaming h g R) (hrs : R (.seq r) (.seq s)) :
    Likewise (fun made made' => R made.1 made'.1 ∧ Renaming made.2 made'.2 R)
      (h.pop r) (g.pop s) := by
  have elements := ρ.elements hrs
  have found := elements.getElem? ((g.elements s).size - 1)
  rw [Heap.pop, Heap.pop, Array.back?_eq_getElem?, Array.back?_eq_getElem?, elements.size_eq]
  revert found
  generalize (h.elements r)[(g.elements s).size - 1]? = p
  generalize (g.elements s)[(g.elements s).size - 1]? = q
  rintro (hpq | _)
  · exact .done ⟨hpq, ρ.putSeq hrs elements.pop⟩
  · exact .failed _

theorem Renaming.removeAt_likewise (ρ : Renaming h g R) (hrs : R (.seq r) (.seq s))
    (mode : RemovalMode) (i : Nat) :
    Likewise (fun made made' => R made.1 made'.1 ∧ Renaming made.2 made'.2 R)
      (h.removeAt mode r i) (g.removeAt mode s i) := by
  have elements := ρ.elements hrs
  simp only [removeAt, elements.size_eq]
  cases mode.position? i with
  | none => exact .failed _
  | some position =>
    have found := elements.getElem? position
    simp only
    revert found
    generalize (h.elements r)[position]? = p
    generalize (g.elements s)[position]? = q
    rintro (hpq | _)
    · exact .done ⟨hpq, ρ.putSeq hrs (elements.eraseIdxIfInBounds position)⟩
    · exact .failed _

theorem Renaming.removeExact_likewise (ρ : Renaming h g R) (hrs : R (.seq r) (.seq s)) (i : Nat) :
    Likewise (fun made made' => R made.1 made'.1 ∧ Renaming made.2 made'.2 R)
      (h.removeExact r i) (g.removeExact s i) := by
  rw [removeExact_eq_removeAt, removeExact_eq_removeAt]
  exact ρ.removeAt_likewise hrs .exact i

theorem Renaming.clear (ρ : Renaming h g R) (hrs : R (.seq r) (.seq s)) :
    Renaming (h.clear r) (g.clear s) R := ρ.putSeq hrs .nil

theorem Renaming.clearMap (ρ : Renaming h g R) (hmn : R (.map m) (.map n)) :
    Renaming (h.clearMap m) (g.clearMap n) R := ρ.putMap hmn .nil

theorem Renaming.clearReferences (ρ : Renaming h g R) (hxy : R x y) :
    Renaming (h.clearReferences x) (g.clearReferences y) R := by
  rcases ρ.cases hxy with ⟨p, rfl, rfl⟩ | ⟨r, s, rfl, rfl⟩ | ⟨r, s, rfl, rfl, -⟩ |
    ⟨r, s, rfl, rfl⟩
  · exact ρ
  · exact ρ
  · exact ρ.clear hxy
  · exact ρ.clearMap hxy

theorem Renaming.insertKey (ρ : Renaming h g R) (hmn : R (.map m) (.map n)) (k : Primitive)
    (hxy : R x y) :
    Option.Rel R (h.insertKey m k x).1 (g.insertKey n k y).1 ∧
      Renaming (h.insertKey m k x).2 (g.insertKey n k y).2 R := by
  have entries : PairedEntries R (h.entries m) (g.entries n) := ρ.entries hmn
  exact ⟨ρ.get?_related hmn k, ρ.putMap hmn (entries.insert k hxy)⟩

theorem Renaming.removeKey (ρ : Renaming h g R) (hmn : R (.map m) (.map n)) (k : Primitive) :
    Option.Rel R (h.removeKey m k).1 (g.removeKey n k).1 ∧
      Renaming (h.removeKey m k).2 (g.removeKey n k).2 R := by
  have entries : PairedEntries R (h.entries m) (g.entries n) := ρ.entries hmn
  exact ⟨ρ.get?_related hmn k, ρ.putMap hmn (entries.erase k)⟩

/-! ### The storage of a tree -/

theorem Renaming.unchanged {α β : Type} {S : (Item → Item → Prop) → α → β → Prop} {a : α} {b : β}
    (ρ : Renaming h g R) (related : S R a b) : MadeAlike R g S (a, h) (b, g) :=
  ⟨R, fun hab => hab, ρ, .refl g, related⟩

/-- What is made alike later on is made alike from the start. -/
theorem MadeAlike.after {α β : Type} {S : (Item → Item → Prop) → α → β → Prop} {made : α × Heap}
    {made' : β × Heap} {R' : Item → Item → Prop} {g' : Heap} (alike : MadeAlike R' g' S made made')
    (more : Subrelation R R') (grown : g.Extends g') : MadeAlike R g S made made' := by
  obtain ⟨R'', more', ρ, grown', related⟩ := alike
  exact ⟨R'', fun hab => more' (more hab), ρ, grown.trans grown', related⟩

/-- What is made after something else that was made alike. -/
theorem MadeAlike.andThen {α β γ δ : Type} {S : (Item → Item → Prop) → α → β → Prop}
    {T : (Item → Item → Prop) → γ → δ → Prop} {made : α × Heap} {made' : β × Heap}
    {next : γ × Heap} {next' : δ × Heap} (first : MadeAlike R g S made made')
    (others : ∀ R', Subrelation R R' → Renaming made.2 made'.2 R' → S R' made.1 made'.1 →
      MadeAlike R' made'.2 T next next') : MadeAlike R g T next next' := by
  obtain ⟨R', more, ρ, grown, related⟩ := first
  exact (others R' more ρ related).after more grown

end

mutual

/-- The storage of a tree is made alike in both heaps. -/
theorem Renaming.build {h g : Heap} {R : Item → Item → Prop} (ρ : Renaming h g R) (t : Tree) :
    MadeAlike R g (fun R' => R') (t.build h) (t.build g) := by
  cases t with
  | prim p => exact ρ.unchanged (S := fun R' => R') (ρ.prim p)
  | seq kind children =>
    have below : MadeAlike R g PairedItems (Tree.buildAll children #[] h)
        (Tree.buildAll children #[] g) := ρ.buildAll children .nil
    exact below.andThen fun R' _ ρ' related => ρ'.newSeq kind related
  | map entries =>
    have below : MadeAlike R g PairedEntries (Tree.buildEntries entries .empty h)
        (Tree.buildEntries entries .empty g) := ρ.buildEntries entries .nil
    exact below.andThen fun R' _ ρ' related => ρ'.newMap related

theorem Renaming.buildAll {h g : Heap} {R : Item → Item → Prop} (ρ : Renaming h g R)
    (ts : List Tree) {xs ys : Array Item} (related : PairedItems R xs ys) :
    MadeAlike R g PairedItems (Tree.buildAll ts xs h) (Tree.buildAll ts ys g) := by
  cases ts with
  | nil => exact ρ.unchanged related
  | cons t ts =>
    exact (ρ.build t).andThen fun R' more ρ' hxy =>
      ρ'.buildAll ts ((related.mono more).push hxy)

theorem Renaming.buildEntries {h g : Heap} {R : Item → Item → Prop} (ρ : Renaming h g R)
    (es : List (Primitive × Tree)) {fs gs : Entries Item} (related : PairedEntries R fs gs) :
    MadeAlike R g PairedEntries (Tree.buildEntries es fs h) (Tree.buildEntries es gs g) := by
  match es with
  | [] => exact ρ.unchanged related
  | (k, t) :: es =>
    exact (ρ.build t).andThen fun R' more ρ' hxy =>
      ρ'.buildEntries es ((related.mono more).insert k hxy)

end

/-! ### Copies of structs -/

/-- The same run in two heaps: it stops for the same cause, or the same is made. -/
inductive RunAlike {ε α β : Type} (R : Item → Item → Prop) (g : Heap)
    (S : (Item → Item → Prop) → α → β → Prop) : Except ε α × Heap → Except ε β × Heap → Prop where
  | stopped (cause : ε) (h' g' : Heap) : RunAlike R g S (.error cause, h') (.error cause, g')
  | made {a : α} {b : β} {h' g' : Heap} (alike : MadeAlike R g S (a, h') (b, g')) :
      RunAlike R g S (.ok a, h') (.ok b, g')

/-- Copies that are related, with as much left of the budget. -/
def CopyRelated {α β : Type} (S : (Item → Item → Prop) → α → β → Prop) (R : Item → Item → Prop)
    (p : α × Nat) (q : β × Nat) : Prop := S R p.1 q.1 ∧ p.2 = q.2

section

variable {h g : Heap} {R : Item → Item → Prop}

theorem RunAlike.andThen {ε α β γ δ : Type} {S : (Item → Item → Prop) → α → β → Prop}
    {T : (Item → Item → Prop) → γ → δ → Prop} {done : Except ε α × Heap}
    {done' : Except ε β × Heap} {next : α → Heap → Except ε γ × Heap}
    {next' : β → Heap → Except ε δ × Heap} (first : RunAlike R g S done done')
    (others : ∀ a b h' g' R', Subrelation R R' → Renaming h' g' R' → S R' a b →
      RunAlike R' g' T (next a h') (next' b g')) :
    RunAlike R g T (Heap.andThen done next) (Heap.andThen done' next') := by
  cases first with
  | stopped cause h' g' => exact .stopped cause h' g'
  | @made a b h' g' alike =>
    obtain ⟨R', more, ρ, grown, related⟩ := alike
    have rest := others a b h' g' R' more ρ related
    show RunAlike R g T (next a h') (next' b g')
    generalize next a h' = run, next' b g' = run' at rest
    cases rest with
    | stopped cause h'' g'' => exact .stopped cause h'' g''
    | made alike => exact .made (alike.after more grown)

/-- What copying a struct does in two heaps, whatever renames the one to the other. -/
def CopiesAlike (copy copy' : SeqRef → Nat → Heap → Except Cutoff (Item × Nat) × Heap) : Prop :=
  ∀ {h g : Heap} {R : Item → Item → Prop} {r s : SeqRef} (n : Nat), Renaming h g R →
    R (.seq r) (.seq s) → RunAlike R g (CopyRelated fun R' => R') (copy r n h) (copy' s n g)

variable {copy copy' : SeqRef → Nat → Heap → Except Cutoff (Item × Nat) × Heap}

theorem Renaming.copyItem_alike (ρ : Renaming h g R) (inner : CopiesAlike copy copy') {x y : Item}
    (hxy : R x y) (n : Nat) :
    RunAlike R g (CopyRelated fun R' => R') (copyItem copy x n h) (copyItem copy' y n g) := by
  have kind := ρ.kind_eq hxy
  by_cases hx : x.kind.isStruct = true
  · obtain ⟨slot, rfl⟩ := seq_of_isStruct hx
    obtain ⟨slot', rfl⟩ := seq_of_isStruct (kind ▸ hx)
    exact inner n ρ hxy
  · have hx : x.kind.isStruct = false := by simpa using hx
    rw [copyItem_other hx, copyItem_other (kind ▸ hx)]
    exact .made (ρ.unchanged ⟨hxy, rfl⟩)

theorem Renaming.copyAll_alike (ρ : Renaming h g R) (inner : CopiesAlike copy copy')
    {rest rest' : List Item} (elements : List.Forall₂ R rest rest') {xs ys : Array Item}
    (related : PairedItems R xs ys) (n : Nat) :
    RunAlike R g (CopyRelated PairedItems) (copyAll copy rest xs n h)
      (copyAll copy' rest' ys n g) := by
  -- The renaming grows from element to element, so it varies in the induction.
  induction rest generalizing rest' xs ys n h g R with
  | nil =>
    cases elements
    exact .made (ρ.unchanged ⟨related, rfl⟩)
  | cons x rest ih =>
    cases elements with
    | @cons _ y _ rest' hxy others =>
      cases n with
      | zero => exact .stopped Cutoff.budget h g
      | succ n =>
        rw [copyAll, copyAll]
        apply (ρ.copyItem_alike inner hxy n).andThen
        rintro ⟨x', left⟩ ⟨y', left'⟩ h' g' R' more ρ' ⟨hxy', hleft⟩
        obtain rfl : left = left' := hleft
        exact ih ρ' (others.imp fun _ _ hab => more hab) ((related.mono more).push hxy') left

/-- The copy of a struct stops in both heaps for the same cause, or makes copies that are
related in both. -/
theorem copyAt_alike (room depth : Nat) : CopiesAlike (copyAt room depth) (copyAt room depth) := by
  induction room generalizing depth with
  | zero =>
    intro h g R r s n ρ hrs
    exact .stopped (Cutoff.depth depth) h g
  | succ room ih =>
    intro h g R r s n ρ hrs
    rw [copyAt, copyAt]
    apply (ρ.copyAll_alike (ih (depth + 1)) (ρ.items hrs) .nil n).andThen
    rintro ⟨xs, left⟩ ⟨ys, left'⟩ h' g' R' more ρ' ⟨related, hleft⟩
    obtain ⟨R'', more', ρ'', grown, hxy⟩ := ρ'.newSeq .struct related
    exact .made ⟨R'', more', ρ'', grown, hxy, hleft⟩

end

end Heap

end StackItems
