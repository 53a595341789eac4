/-
A copy of a struct is independent of the struct.

* `sameAt_changed` — changes to sequences leave all other storage as it was;
* `IsCopy` — what a copy is: it has the shape of the struct and structs of its own,
  and what is done later to the one does not show in the other;
* `cloneStruct_copies` — `cloneStruct` makes such a copy or leaves everything as it
  was.

Design notes: what is done later may be any list of changes to any sequences, so long
as all of them are older than the copy, or all of them are not.
-/
import StackItems.Proofs.StepwiseCopy
import StackItems.Sequence

namespace StackItems

namespace Heap

/-! ### Later changes -/

/-- A change to a sequence through its handle. -/
inductive SeqChange where
  | set (index : Nat) (x : Item)
  | add (x : Item)
  | pop
  | removeAt (index : Nat)
  | clear

/-- The heap after a change. -/
def SeqChange.run (h : Heap) (r : SeqRef) : SeqChange → Except Fault Heap
  | .set index x => h.setAt r index x
  | .add x => .ok (h.add r x)
  | .pop => (h.pop r).map Prod.snd
  | .removeAt index => (h.removeExact r index).map Prod.snd
  | .clear => .ok (h.clear r)

/-- The heap after changes to sequences, one after the other; a change that fails
is passed over. -/
def changed (h : Heap) : List (SeqRef × SeqChange) → Heap
  | [] => h
  | (r, change) :: rest =>
    match change.run h r with
    | .ok h' => changed h' rest
    | .error _ => changed h rest

section

variable {h h' : Heap} {r : SeqRef} {x : Item}

/-- Whatever a change does, it does to the one sequence that it was made to. -/
theorem SeqChange.exists_putSeq {change : SeqChange} (hrun : change.run h r = .ok h') :
    ∃ xs, h' = h.putSeq r xs := by
  cases change with
  | set index x =>
    rw [run, setAt_eq] at hrun
    split at hrun
    · exact ⟨_, (Except.ok.inj hrun).symm⟩
    · injection hrun
  | add x => exact ⟨_, (Except.ok.inj hrun).symm⟩
  | pop =>
    rw [run, pop_eq] at hrun
    split at hrun
    · exact ⟨_, (Except.ok.inj hrun).symm⟩
    · injection hrun
  | removeAt index =>
    rw [run, removeExact_eq] at hrun
    split at hrun
    · exact ⟨_, (Except.ok.inj hrun).symm⟩
    · injection hrun
  | clear => exact ⟨_, (Except.ok.inj hrun).symm⟩

/-- Changes to other sequences leave the storage of an item as it was. -/
theorem sameAt_changed {changes : List (SeqRef × SeqChange)}
    (apart : ∀ change ∈ changes, x ≠ .seq change.1) : h.SameAt (h.changed changes) x := by
  induction changes generalizing h with
  | nil => exact .refl h x
  | cons change rest ih =>
    obtain ⟨r, change⟩ := change
    have hrest := fun (g : Heap) =>
      ih (h := g) fun change' hc => apart change' (List.mem_cons_of_mem _ hc)
    rw [changed]
    split
    · next g hrun =>
      obtain ⟨xs, rfl⟩ := SeqChange.exists_putSeq hrun
      exact (sameAt_putSeq xs (apart _ (List.mem_cons_self ..))).trans (hrest _)
    · exact hrest h

end

/-! ### What a copy is -/

/-- `c` in the second heap is a copy of `x` in the first one: the two look the same
along structs, all structs of the copy are new and met at one place only, nothing
older has changed, and later changes to sequences of the one heap or the other do
not meet. -/
structure IsCopy (h h' : Heap) (x c : Item) : Prop where
  grown : h.Extends h'
  alike : ∀ path, Option.Rel Item.Copied (h.at? Kind.isStruct x path)
    (h'.at? Kind.isStruct c path)
  separate : Separate Kind.isStruct h h' c
  old_kept : ∀ changes : List (SeqRef × SeqChange),
    (∀ change ∈ changes, ¬ h.Holds (.seq change.1)) →
      ∀ y, h.Holds y → h.SameAt (h'.changed changes) y
  new_kept : ∀ changes : List (SeqRef × SeqChange),
    (∀ change ∈ changes, h.Holds (.seq change.1)) →
      ∀ y, ¬ h.Holds y → h'.SameAt (h'.changed changes) y

theorem HasSpine.isCopy {h : Heap} {x : Item} {s : Spine} (hs : h.HasSpine x s) :
    IsCopy h (s.build h).2 x (s.build h).1 := by
  have made := hs.build_makes h
  refine ⟨made.grown, hs.copied made.shows, made.separate, ?_, ?_⟩
  -- No sequence is both older than the copy and not older.
  · intro changes new y hy
    refine (made.grown.same y hy).trans (sameAt_changed ?_)
    rintro change hc rfl
    exact new change hc hy
  · intro changes old y hy
    refine sameAt_changed ?_
    rintro change hc rfl
    exact hy (old change hc)

/-- A copy of a struct that succeeds is a copy.  One that stops gives no heap; the copy
that makes its storage as it goes along then stops likewise, and leaves all older
storage as it was.  Where no struct may be shared, a struct is copied in this way and
any other item is shared. -/
theorem cloneStruct_copies (h : Heap) (limits : Limits) (slot : Nat) :
    (∀ c h', (h.cloneStruct limits ⟨.struct, slot⟩).result = .ok (c, h') →
        IsCopy h h' (.seq ⟨.struct, slot⟩) c) ∧
      (∀ fault, (h.cloneStruct limits ⟨.struct, slot⟩).result = .error fault →
        h.Extends (h.copyStruct limits ⟨.struct, slot⟩).2 ∧
          (h.Closed → h.Holds (.seq ⟨.struct, slot⟩) →
            (h.copyStruct limits ⟨.struct, slot⟩).1 = .error fault)) ∧
      h.cloneValue limits (.seq ⟨.struct, slot⟩) = h.cloneStruct limits ⟨.struct, slot⟩ ∧
      ∀ x : Item, x.kind ≠ .struct → (h.cloneValue limits x).result = .ok (x, h) := by
  refine ⟨?_, ?_, rfl, ?_⟩
  · intro c h' hclone
    rw [cloneStruct_result] at hclone
    split at hclone
    · exact absurd hclone (by simp)
    · next children left hspine =>
      obtain ⟨k, ⟨⟨hs, -⟩, -⟩, -⟩ :=
        (spineAt_eq_ok_iff (Nat.zero_add _) slot _ children left).1 hspine
      have copied := hs.isCopy
      rw [Except.ok.inj hclone] at copied
      exact copied
  · intro fault hclone
    refine ⟨h.extends_copyStruct limits ⟨.struct, slot⟩, ?_⟩
    intro closed held
    have agrees := copyStruct_eq closed limits held
    rw [hclone] at agrees
    exact agrees
  · intro x hx
    cases x with
    | prim p => rfl
    | map r => rfl
    | host r => rfl
    | seq r =>
      obtain ⟨kind, slot⟩ := r
      cases kind with
      | array => rfl
      | struct => exact absurd rfl hx

/-- A struct that holds another struct twice, and an array. -/
def doubled : Heap where
  arrays := #[#[]]
  structs := #[#[.prim (.boolean true)],
    #[.seq ⟨.struct, 0⟩, .seq ⟨.struct, 0⟩, .seq ⟨.array, 0⟩]]

theorem closed_doubled : doubled.Closed where
  seq r x hx := by
    obtain ⟨kind, slot⟩ := r
    cases kind with
    | array =>
      match slot with
      | 0 => exact absurd hx List.not_mem_nil
      | slot + 1 => exact absurd hx List.not_mem_nil
    | struct =>
      match slot with
      | 0 =>
        obtain rfl := List.mem_singleton.1 hx
        trivial
      | 1 =>
        have hx : x ∈ [Item.seq ⟨.struct, 0⟩, .seq ⟨.struct, 0⟩, .seq ⟨.array, 0⟩] := hx
        simp only [List.mem_cons, List.not_mem_nil, or_false] at hx
        rcases hx with rfl | rfl | rfl
        · exact (by decide : 0 < 2)
        · exact (by decide : 0 < 2)
        · exact (by decide : 0 < 1)
      | slot + 2 => exact absurd hx List.not_mem_nil
  map r x hx := absurd hx List.not_mem_nil

/-- The struct is copied, and if only three children may be visited the copy stops
behind a struct that it has already made. -/
theorem cloneStruct_copies_doubled :
    (∃ c h', (doubled.cloneStruct .default ⟨.struct, 1⟩).result = .ok (c, h') ∧
        IsCopy doubled h' (.seq ⟨.struct, 1⟩) c) ∧
      doubled.Extends (doubled.copyStruct { maxCloneLength := 3 } ⟨.struct, 1⟩).2 ∧
      (doubled.copyStruct { maxCloneLength := 3 } ⟨.struct, 1⟩).1
        = .error (.itemLimitExceeded 3) := by
  have held : doubled.Holds (.seq ⟨.struct, 1⟩) := (by decide : 1 < 2)
  obtain ⟨copies, -⟩ := cloneStruct_copies doubled .default 1
  obtain ⟨-, stops, -⟩ := cloneStruct_copies doubled { maxCloneLength := 3 } 1
  obtain ⟨kept, same⟩ := stops (.itemLimitExceeded 3) rfl
  exact ⟨⟨_, _, rfl, copies _ _ rfl⟩, kept, same closed_doubled held⟩

end Heap

end StackItems
