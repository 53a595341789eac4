/-
Which structs can be copied, and why the others cannot.

A copy visits the children of a struct from left to right, and what lies below a child that
is a struct before the next child.  The struct itself is the visit zero, so the number of a
visit is the number of the child.

* `Uncopyable` — what is wrong with a visit;
* `tracks_visitChild` — the walk along a spine is the tour of these visits;
* `spineAt_congr` — the walk reads the structs of a heap and nothing else;
* `cloneStruct_decided` — **a struct is copied exactly if it has a spine within both limits,
  and otherwise fails with what is wrong with the first visit; what arrays and maps hold makes
  no difference.**
-/
import StackItems.Proofs.StepwiseCopy
import StackItems.Proofs.Tour

namespace StackItems

/-- What is wrong with a visit of a copy.  The number comes first: only a child within the
budget is looked into. -/
inductive Uncopyable (limits : Limits) : Nat → Nat × Item → Fault → Prop where
  | children {k : Nat} {stop : Nat × Item} (past : limits.maxCloneLength.toNat < k) :
      Uncopyable limits k stop (.itemLimitExceeded limits.maxCloneLength)
  | depth {k depth : Nat} {x : Item} (within : k ≤ limits.maxCloneLength.toNat)
      (struct : x.kind.isStruct = true) (deep : limits.maxStructDepth.toNat ≤ depth) :
      Uncopyable limits k (depth, x) (.depthExceeded limits.maxStructDepth)

theorem Uncopyable.unique {limits : Limits} {k : Nat} {stop : Nat × Item} {f f' : Fault}
    (a : Uncopyable limits k stop f) (b : Uncopyable limits k stop f') : f = f' := by
  cases a with
  | children past =>
    cases b with
    | children => rfl
    | depth => omega
  | depth within =>
    cases b with
    | children => omega
    | depth => rfl

namespace Heap

/-- What a copy looks into: the elements of a struct, and nothing of any other item. -/
def structParts (h : Heap) (x : Item) : List Item :=
  if x.kind.isStruct then h.contents x else []

/-- The walk of a copy. -/
def cloneTour (h : Heap) (limits : Limits) : Tour Item Fault where
  below := h.structParts
  Wrong := Uncopyable limits
  unique := Uncopyable.unique

section

variable {h h' : Heap} {limits : Limits} {room depth slot : Nat} {x : Item}

/-! ### The walk does the tour -/

/-- The child after the last one that the budget allows is wrong, whatever it is. -/
theorem over_cloneLength (stop : Nat × Item) :
    Uncopyable limits (limits.maxCloneLength.toNat + 1) stop (cloneFault limits .budget) :=
  .children (Nat.lt_succ_self _)

/-- Within the budget nothing is wrong with a child that is no struct or lies above the limit
of nesting. -/
theorem clear_of_within {k : Nat} (hk : k < limits.maxCloneLength.toNat + 1)
    (hx : x.kind.isStruct = true → depth < limits.maxStructDepth.toNat) :
    (h.cloneTour limits).Clear k (depth, x) := by
  intro f wrong
  cases wrong with
  | children past => omega
  | depth _ struct deep =>
    have := hx struct
    omega

theorem structParts_other (hx : x.kind.isStruct = false) : h.structParts x = [] := by
  rw [structParts, if_neg (by simp [hx])]

theorem advance_cloneTour_other (hx : x.kind.isStruct = false) :
    (h.cloneTour limits).advance [(depth, x)] = [] := by
  show (h.structParts x).map (depth + 1, ·) ++ [] = []
  rw [structParts_other hx]
  rfl

theorem advance_cloneTour_struct :
    (h.cloneTour limits).advance [(depth, .seq ⟨.struct, slot⟩)]
      = (h.items ⟨.struct, slot⟩).flatMap fun y => [(depth + 1, y)] := by
  show (h.items ⟨.struct, slot⟩).map (depth + 1, ·) ++ [] = _
  rw [List.append_nil, List.map_eq_flatMap]

/-- A child that is no struct is visited, and nothing lies below it. -/
theorem tracks_visitChild_other (inner : SeqRef → Budgeted Cutoff (List Spine))
    (hx : x.kind.isStruct = false) :
    (h.cloneTour limits).Tracks (limits.maxCloneLength.toNat + 1) (cloneFault limits)
      (visitChild inner x) [(depth, x)] := by
  rw [visitChild_other hx]
  refine .visit (over_cloneLength _) (fun k hk => clear_of_within hk (by simp [hx])) ?_
  rw [advance_cloneTour_other hx]
  exact Tour.tracks_pure (Spine.leaf x)

/-- The walk below a struct visits its elements one after the other. -/
theorem tracks_spineAt_succ
    (child : ∀ y, (h.cloneTour limits).Tracks (limits.maxCloneLength.toNat + 1)
      (cloneFault limits) (visitChild (h.spineAt room (depth + 1)) y) [(depth + 1, y)])
    (slot : Nat) :
    (h.cloneTour limits).Tracks (limits.maxCloneLength.toNat + 1) (cloneFault limits)
      (h.spineAt (room + 1) depth ⟨.struct, slot⟩)
      ((h.cloneTour limits).advance [(depth, .seq ⟨.struct, slot⟩)]) := by
  rw [advance_cloneTour_struct, spineAt_succ]
  exact .mapM fun y _ => child y

theorem tracks_visitChild (h : Heap) (limits : Limits)
    (hd : depth + room = limits.maxStructDepth.toNat) (x : Item) :
    (h.cloneTour limits).Tracks (limits.maxCloneLength.toNat + 1) (cloneFault limits)
      (visitChild (h.spineAt room depth) x) [(depth, x)] := by
  induction room generalizing depth x with
  | zero =>
    by_cases hx : x.kind.isStruct = true
    · obtain ⟨slot, rfl⟩ := seq_of_isStruct hx
      exact Tour.tracks_stop (over_cloneLength _) fun k hk => .depth (by omega) hx (by omega)
    · exact tracks_visitChild_other _ (by simpa using hx)
  | succ room ih =>
    by_cases hx : x.kind.isStruct = true
    · obtain ⟨slot, rfl⟩ := seq_of_isStruct hx
      have hroom : depth + 1 + room = limits.maxStructDepth.toNat := by omega
      have below := tracks_spineAt_succ (ih hroom) slot
      exact .visit (over_cloneLength _) (fun k hk => clear_of_within hk fun _ => by omega)
        (below.map Spine.struct)
    · exact tracks_visitChild_other _ (by simpa using hx)

/-- The tour from a struct settles whether it is copied, and else the fault. -/
theorem cloneStruct_result_iff :
    ((∃ out, (h.cloneStruct limits ⟨.struct, slot⟩).result = .ok out) ↔
        (h.cloneTour limits).Completes (.seq ⟨.struct, slot⟩)) ∧
      ∀ f, (h.cloneStruct limits ⟨.struct, slot⟩).result = .error f ↔
        (h.cloneTour limits).StopsWith (.seq ⟨.struct, slot⟩) f := by
  rw [cloneStruct_result]
  -- The struct itself costs nothing, so its visit is not part of what the walk does.
  cases hroom : limits.maxStructDepth.toNat with
  | zero =>
    have deep : Uncopyable limits 0 (0, .seq ⟨.struct, slot⟩) (cloneFault limits (.depth 0)) :=
      .depth (Nat.zero_le _) rfl (by omega)
    refine Tour.decides (fun _ hr => by injection hr) fun f hr => ?_
    rw [← Except.error.inj hr]
    exact Tour.Fails.stopsWith ⟨_, [], 0, .done _ _, deep⟩
  | succ room =>
    have clear : (h.cloneTour limits).Clear 0 (0, .seq ⟨.struct, slot⟩) :=
      clear_of_within (Nat.succ_pos _) fun _ => by omega
    have below : 0 + 1 + room = limits.maxStructDepth.toNat := by omega
    obtain ⟨hok, herror⟩ := tracks_spineAt_succ (tracks_visitChild h limits below) slot
      limits.maxCloneLength.toNat 1 [] (Nat.add_comm ..)
    rw [List.append_nil] at hok herror
    cases hrun : h.spineAt (room + 1) 0 ⟨.struct, slot⟩ limits.maxCloneLength.toNat with
    | ok walked =>
      obtain ⟨m, -, passes⟩ := hok walked.1 walked.2 hrun
      refine Tour.decides (fun _ _ => ?_) fun f hr => by injection hr
      exact (Tour.Passes.visit clear passes).completes
    | error cause =>
      obtain ⟨stop, rest, m, passes, wrong⟩ := herror cause hrun
      refine Tour.decides (fun _ hr => by injection hr) fun f hr => ?_
      rw [← Except.error.inj hr]
      exact Tour.Fails.stopsWith ⟨stop, rest, m, .visit clear passes, wrong⟩

/-! ### Structs are all that matters -/

theorem visitChild_congr {inner inner' : SeqRef → Budgeted Cutoff (List Spine)}
    (same : ∀ slot, inner ⟨.struct, slot⟩ = inner' ⟨.struct, slot⟩) (x : Item) :
    visitChild inner x = visitChild inner' x := by
  by_cases hx : x.kind.isStruct = true
  · obtain ⟨slot, rfl⟩ := seq_of_isStruct hx
    rw [visitChild, visitChild]
    simp only [same]
  · have hx : x.kind.isStruct = false := by simpa using hx
    rw [visitChild_other hx, visitChild_other hx]

/-- The walk reads the structs of a heap and nothing else. -/
theorem spineAt_congr (same : h'.structs = h.structs) (room depth slot : Nat) :
    h'.spineAt room depth ⟨.struct, slot⟩ = h.spineAt room depth ⟨.struct, slot⟩ := by
  induction room generalizing depth slot with
  | zero => rfl
  | succ room ih =>
    have hitems : h'.items ⟨.struct, slot⟩ = h.items ⟨.struct, slot⟩ := by
      show ((h'.structs).getD slot #[]).toList = _
      rw [same]
      rfl
    have hvisit := funext (visitChild_congr (ih (depth + 1)))
    rw [spineAt_succ, spineAt_succ, hitems, hvisit]

/-- A struct is copied exactly if its structs, followed without end, give a spine whose
structs all lie above the limit of nesting and whose children are no more than the budget;
otherwise the fault is what is wrong with the first visit with which something is wrong.
Heaps with the same structs give the same answer, whatever their arrays and maps hold. -/
theorem cloneStruct_decided (h : Heap) (limits : Limits) (slot : Nat) :
    ((∃ out, (h.cloneStruct limits ⟨.struct, slot⟩).result = .ok out) ↔
        ∃ s, h.HasSpine (.seq ⟨.struct, slot⟩) s ∧ Spine.Fits limits 0 s ∧
          s.children ≤ limits.maxCloneLength.toNat) ∧
      (∀ f, (h.cloneStruct limits ⟨.struct, slot⟩).result = .error f ↔
        (h.cloneTour limits).StopsWith (.seq ⟨.struct, slot⟩) f) ∧
      ∀ h' : Heap, h'.structs = h.structs →
        (h'.cloneStruct limits ⟨.struct, slot⟩).result.map (fun _ => ())
          = (h.cloneStruct limits ⟨.struct, slot⟩).result.map fun _ => () := by
  refine ⟨⟨?_, ?_⟩, cloneStruct_result_iff.2, ?_⟩
  · rintro ⟨out, hclone⟩
    obtain ⟨s, hs, fits, hn, -⟩ := cloneStruct_eq_ok_iff.1 hclone
    exact ⟨s, hs, fits, hn⟩
  · rintro ⟨s, hs, fits, hn⟩
    exact ⟨s.build h, cloneStruct_eq_ok_iff.2 ⟨s, hs, fits, hn, rfl⟩⟩
  · intro h' same
    rw [cloneStruct_result, cloneStruct_result, spineAt_congr same]
    cases h.spineAt limits.maxStructDepth.toNat 0 ⟨.struct, slot⟩ limits.maxCloneLength.toNat with
    | error cause => rfl
    | ok walked => rfl

/-- A struct that holds an array and a struct, which holds the same array; the array holds
itself. -/
def looped : Heap where
  arrays := #[#[.seq ⟨.array, 0⟩]]
  structs := #[#[.seq ⟨.array, 0⟩, .seq ⟨.struct, 1⟩], #[.seq ⟨.array, 0⟩]]

/-- Two levels and three children are just enough, as they are with an empty array.  With one
level the inner struct is too deep, and with one child as well it is not looked into. -/
theorem cloneStruct_decided_looped :
    (∃ s, looped.HasSpine (.seq ⟨.struct, 0⟩) s ∧
        Spine.Fits { maxStructDepth := 2, maxCloneLength := 3 } 0 s ∧ s.children ≤ 3) ∧
      (looped.cloneTour { maxStructDepth := 1, maxCloneLength := 2 }).StopsWith
        (.seq ⟨.struct, 0⟩) (.depthExceeded 1) ∧
      (looped.cloneTour { maxStructDepth := 1, maxCloneLength := 1 }).StopsWith
        (.seq ⟨.struct, 0⟩) (.itemLimitExceeded 1) ∧
      ∀ limits, ({ looped with arrays := #[#[]] }.cloneStruct limits ⟨.struct, 0⟩).result.map
          (fun _ => ())
        = (looped.cloneStruct limits ⟨.struct, 0⟩).result.map fun _ => () := by
  have decided := fun limits => cloneStruct_decided looped limits 0
  refine ⟨?_, ?_, ?_, fun limits => (decided limits).2.2 _ rfl⟩
  · exact (decided { maxStructDepth := 2, maxCloneLength := 3 }).1.1 ⟨_, rfl⟩
  · exact ((decided _).2.1 _).1 rfl
  · exact ((decided _).2.1 _).1 rfl

end

end Heap

end StackItems
