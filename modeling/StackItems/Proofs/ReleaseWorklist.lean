/-
The release of a list of handles, turn by turn.

* `Counted.turn_cons` — what is dropped in a turn has nothing left in it to release, so that
  no release starts within a release;
* `Counted.turns_release` — the turns come to an end, after as many of them as there are
  handles to release;
* `Counted.release_frees` — what a release leaves behind: the storage that must be freed is
  emptied and all other storage is what it was, as after the recursive release and after the
  release of the same handles in any other order.

Design notes: that `Counted.drop` starts a release of its own is not assumed away.  It is part
of what a turn does, and `turn_cons` finds that the list for it is empty.
-/
import Mathlib.Logic.Function.Iterate
import StackItems.Proofs.Releasing

namespace StackItems

theorem Heap.clearReferences_clearReferences (h : Heap) (x : Item) :
    (h.clearReferences x).clearReferences x = h.clearReferences x := by
  cases x with
  | prim p => rfl
  | host r => rfl
  | seq r =>
    obtain ⟨kind, slot⟩ := r
    cases kind <;> simp [clearReferences, clear, putSeq, mapSeqs]
  | map r => simp [clearReferences, clearMap, putMap]

namespace Counted

variable {c c' d : Counted} {handles handles' rest : List Item} {x : Item}

/-! ### One turn -/

/-- What has been taken out of a container cannot be taken out again. -/
theorem detach_detach (c : Counted) (x : Item) :
    (c.detach x).2.detach x = ([], (c.detach x).2) := by
  by_cases last : c.handles x = 1
  · have still : ({ c with heap := c.heap.clearReferences x } : Counted).handles x = 1 := last
    rw [detach_of_last last, detach_of_last still, c.heap.clearReferences_clearReferences x,
      (c.heap.vacant_clearReferences x).contents_eq]
  · have shared := detach_of_not_last (c := c) fun _ => last
    rw [shared, shared]

theorem drop_detach (c : Counted) (x : Item) : (c.detach x).2.drop x = (c.detach x).2.giveUp x := by
  rw [drop, detach_detach, List.reverse_nil, release]

theorem turn_cons (c : Counted) (x : Item) (rest : List Item) :
    turn (x :: rest, c) = ((c.detach x).1.reverse ++ rest, (c.detach x).2.giveUp x) := by
  rw [turn, drop_detach]

/-- A container is dropped while it is still shared or after it has been emptied. -/
theorem shared_or_vacant_of_detach (hpos : 1 ≤ c.handles x) :
    2 ≤ (c.detach x).2.handles x ∨ (c.detach x).2.heap.Vacant x := by
  by_cases last : c.handles x = 1
  · rw [detach_of_last last]
    exact .inr (c.heap.vacant_clearReferences x)
  · rw [detach_of_not_last fun _ => last]
    refine .inl ?_
    show 2 ≤ c.handles x
    omega

/-! ### All turns -/

/-- Each turn gives up one of the handles that are to be released or in storage. -/
theorem turns_release (c : Counted) (handles : List Item) :
    ∃ n, turn^[n] (handles, c) = ([], c.release handles) ∧
      n + (c.release handles).heap.held.length = handles.length + c.heap.held.length := by
  induction c, handles using release.induct with
  | case1 c =>
    rw [release]
    exact ⟨0, rfl, rfl⟩
  | case2 c x rest ih =>
    obtain ⟨n, hturns, hlen⟩ := ih
    have hheld := c.length_held_detach x
    rw [release]
    refine ⟨n + 1, ?_, ?_⟩
    · rw [Function.iterate_succ_apply, turn_cons, hturns]
    · simp only [giveUp, List.length_append, List.length_reverse, List.length_cons] at hlen ⊢
      omega

/-- What holds after every turn. -/
theorem exists_underway (counts : c.Counts handles) (n : Nat) :
    ∃ freed, Underway c handles freed (turn^[n] (handles, c)).1 (turn^[n] (handles, c)).2 := by
  induction n with
  | zero => exact ⟨[], .start c handles⟩
  | succ n ih =>
    obtain ⟨freed, u⟩ := ih
    rw [Function.iterate_succ_apply']
    generalize turn^[n] (handles, c) = state at u
    obtain ⟨todo, d⟩ := state
    cases todo with
    | nil => exact ⟨freed, u⟩
    | cons x rest =>
      rw [turn_cons]
      exact u.next counts (.refl _) ((List.reverse_perm _).append_right rest)

/-! ### The whole release -/

/-- The same storage, with the same number of handles for every container. -/
def Alike (c c' : Counted) : Prop :=
  c.heap = c'.heap ∧ ∀ x : Item, x.kind.isCompound = true → c.handles x = c'.handles x

theorem Released.alike (a : Released c handles c') (b : Released c handles d) : Alike c' d :=
  ⟨a.heap_eq b, fun _ hx => a.handles_eq b hx⟩

/-- **A release frees what the recursive release frees.**  It comes to an end; the storage whose
handles all are in the list or in storage that is freed is emptied, and no other storage
changes; neither the order of the list nor that of the release matters; and what is dropped on
the way is still shared or holds nothing, so that there is nothing to release within a drop. -/
theorem release_frees (counts : c.Counts handles) (live : c.Live) :
    (∃ n, turn^[n] (handles, c) = ([], c.release handles) ∧
      n + (c.release handles).heap.held.length = handles.length + c.heap.held.length) ∧
    Released c handles (c.release handles) ∧
    (∃ c', Drops c handles c') ∧
    (∀ c', Drops c handles c' → Alike c' (c.release handles)) ∧
    (∀ handles', handles'.Perm handles → Alike (c.release handles') (c.release handles)) ∧
    ∀ n x rest d, turn^[n] (handles, c) = (x :: rest, d) → x.kind.isCompound = true →
      (2 ≤ (d.detach x).2.handles x ∨ (d.detach x).2.heap.Vacant x) ∧
        ((d.detach x).2.detach x).1 = [] := by
  have released := (releases_release c handles).released counts live
  refine ⟨c.turns_release handles, released, ?_, ?_, ?_, ?_⟩
  · obtain ⟨c', drops, _⟩ := exists_drops c handles
    exact ⟨c', drops⟩
  · exact fun c' drops => (drops.releases.released counts live).alike released
  · intro handles' hperm
    -- A release of the same handles in another order is a release of them in some order.
    have others := (releases_release c handles').perm hperm.symm
    exact (others.released counts live).alike released
  · intro n x rest d hturns hx
    obtain ⟨freed, u⟩ := exists_underway counts n
    rw [hturns] at u
    have hle := u.count_le counts hx
    have hmem : 0 < (x :: rest ++ d.heap.held).count x := List.count_pos_iff.2 (.head _)
    exact ⟨shared_or_vacant_of_detach (Nat.le_trans hmem hle), by rw [detach_detach]⟩

/-- Three arrays and a map.  The first array holds the second one and the map, the second one
holds itself, and the map holds the third one.  Elsewhere there are two handles of the first
array and one of the third. -/
def tangled : Counted :=
  let heap : Heap :=
    { arrays := #[#[.seq ⟨.array, 1⟩, .map ⟨0⟩], #[.seq ⟨.array, 1⟩], #[]]
      maps := #[Entries.empty.insert (.integer 1) (.seq ⟨.array, 2⟩)] }
  let elsewhere : List Item := [.seq ⟨.array, 0⟩, .seq ⟨.array, 0⟩, .seq ⟨.array, 2⟩]
  { heap, handles := fun x => (elsewhere ++ heap.held).count x }

theorem live_tangled : tangled.Live := by
  intro x hx held
  cases x with
  | prim p => cases p <;> exact absurd hx Bool.false_ne_true
  | host r => exact absurd hx Bool.false_ne_true
  | map r =>
    obtain rfl : r = ⟨0⟩ := congrArg MapRef.mk (Nat.lt_one_iff.1 held)
    decide
  | seq r =>
    obtain ⟨kind, slot⟩ := r
    cases kind with
    | struct => exact absurd held (Nat.not_lt_zero slot)
    | array =>
      have held : slot < 3 := held
      have each : ∀ i < 3, 1 ≤ tangled.handles (.seq ⟨.array, i⟩) := by decide
      exact each slot held

/-- Both handles of the first array are released, and the third array still has one. -/
theorem release_frees_tangled :
    tangled.Counts [.seq ⟨.array, 0⟩, .seq ⟨.array, 0⟩] ∧ tangled.Live ∧
      (tangled.release [.seq ⟨.array, 0⟩, .seq ⟨.array, 0⟩]).heap.Vacant (.seq ⟨.array, 0⟩) ∧
      (tangled.release [.seq ⟨.array, 0⟩, .seq ⟨.array, 0⟩]).heap.Vacant (.map ⟨0⟩) ∧
      1 ≤ (tangled.release [.seq ⟨.array, 0⟩, .seq ⟨.array, 0⟩]).handles (.seq ⟨.array, 2⟩) := by
  have counts : tangled.Counts [.seq ⟨.array, 0⟩, .seq ⟨.array, 0⟩] := by
    intro x _
    simp only [tangled, List.count_append, List.count_cons]
    omega
  have released := (release_frees counts live_tangled).2.1
  have array : tangled.Freed [.seq ⟨.array, 0⟩, .seq ⟨.array, 0⟩] (.seq ⟨.array, 0⟩) :=
    .intro [] .nil (fun _ h => absurd h List.not_mem_nil) (by decide)
  have map : tangled.Freed [.seq ⟨.array, 0⟩, .seq ⟨.array, 0⟩] (.map ⟨0⟩) := by
    refine .intro [.seq ⟨.array, 0⟩] (by decide) (fun y hy => ?_) (by decide)
    rwa [List.mem_singleton.1 hy]
  refine ⟨counts, live_tangled, released.emptied _ rfl array, released.emptied _ rfl map, ?_⟩
  have all : tangled.handles (.seq ⟨.array, 2⟩) = 2 := by decide
  have seen : (([.seq ⟨.array, 0⟩, .seq ⟨.array, 0⟩] : List Item) ++ tangled.heap.held).count
      (.seq ⟨.array, 2⟩) = 1 := by decide
  have := released.counted (.seq ⟨.array, 2⟩) rfl
  omega

end Counted

end StackItems
