/-
The copy of a struct that makes its storage as it goes along.

* `copyAt`, `copyStruct` — the copy, with the heap that it leaves behind even if it stops;
* `extends_copyStruct` — whether or not it stops, all older storage is as it was;
* `ClosedOn.copyAt_agrees` — it does what reading the spine first does, if nothing leads out
  of what is copied;
* `cloneStruct_eq_ok_iff` — when `cloneStruct` succeeds, and with what;
* `copyStruct_eq` — in a closed heap it stops, or copies, as `cloneStruct` does.

Design notes: `cloneStruct` reads the whole spine before it makes any storage.  The
copy that interleaves the two reads through the heap that it has changed, so it
needs a closed heap: there, all that it reads is older than itself.
-/
import StackItems.Proofs.SpineWalk

namespace StackItems

namespace Heap

/-! ### Copying and making storage at once -/

/-- One step after the other; a step that stops leaves its heap behind. -/
def andThen {ε α β : Type} (first : Except ε α × Heap) (next : α → Heap → Except ε β × Heap) :
    Except ε β × Heap :=
  match first with
  | (.error cause, h) => (.error cause, h)
  | (.ok a, h) => next a h

section

variable {ε α β : Type} {h : Heap} {first : Except ε α × Heap}
  {next : α → Heap → Except ε β × Heap}

theorem extends_andThen (grown : h.Extends first.2)
    (grows : ∀ (a : α) (g : Heap), g.Extends (next a g).2) :
    h.Extends (andThen first next).2 := by
  obtain ⟨result, g⟩ := first
  cases result with
  | error cause => exact grown
  | ok a => exact grown.trans (grows a g)

theorem andThen_of_error {cause : ε} (stops : first.1 = .error cause) :
    (andThen first next).1 = .error cause := by
  obtain ⟨result, g⟩ := first
  subst stops
  rfl

end

/-- What the copy puts in the place of an element. -/
def copyItem (copy : SeqRef → Nat → Heap → Except Cutoff (Item × Nat) × Heap) (x : Item)
    (n : Nat) (h : Heap) : Except Cutoff (Item × Nat) × Heap :=
  match x with
  | .seq ⟨.struct, slot⟩ => copy ⟨.struct, slot⟩ n h
  | x => (.ok (x, n), h)

/-- Copies elements one after the other, behind the items already made. -/
def copyAll (copy : SeqRef → Nat → Heap → Except Cutoff (Item × Nat) × Heap) :
    List Item → Array Item → Nat → Heap → Except Cutoff (Array Item × Nat) × Heap
  | [], xs, n, h => (.ok (xs, n), h)
  | _ :: _, _, 0, h => (.error .budget, h)
  | x :: rest, xs, n + 1, h =>
    andThen (copyItem copy x n h) fun done h => copyAll copy rest (xs.push done.1) done.2 h

/-- A copy of a struct at a depth, with room for so many levels of structs and a
budget, that makes new storage as soon as the elements of a struct are copied. -/
def copyAt : (room depth : Nat) → SeqRef → Nat → Heap → Except Cutoff (Item × Nat) × Heap
  | 0, depth, _, _, h => (.error (.depth depth), h)
  | room + 1, depth, r, n, h =>
    andThen (copyAll (copyAt room (depth + 1)) (h.items r) #[] n h) fun done h =>
      (.ok (.seq (h.newSeq .struct done.1).1, done.2), (h.newSeq .struct done.1).2)

section

variable {copy : SeqRef → Nat → Heap → Except Cutoff (Item × Nat) × Heap}

theorem copyItem_other {x : Item} (hx : x.kind.isStruct = false) (n : Nat) (h : Heap) :
    copyItem copy x n h = (.ok (x, n), h) := by
  cases x with
  | prim p => rfl
  | map r => rfl
  | host r => rfl
  | seq r =>
    obtain ⟨kind, slot⟩ := r
    cases kind with
    | array => rfl
    | struct => exact absurd hx.symm Bool.false_ne_true

theorem extends_copyItem (grows : ∀ (r : SeqRef) (n : Nat) (h : Heap), h.Extends (copy r n h).2)
    (x : Item) (n : Nat) (h : Heap) : h.Extends (copyItem copy x n h).2 := by
  by_cases hx : x.kind.isStruct = true
  · obtain ⟨slot, rfl⟩ := seq_of_isStruct hx
    exact grows ⟨.struct, slot⟩ n h
  · rw [copyItem_other (by simpa using hx)]
    exact .refl h

theorem extends_copyAll (grows : ∀ (r : SeqRef) (n : Nat) (h : Heap), h.Extends (copy r n h).2)
    (rest : List Item) (xs : Array Item) (n : Nat) (h : Heap) :
    h.Extends (copyAll copy rest xs n h).2 := by
  induction rest generalizing xs n h with
  | nil => exact .refl h
  | cons x rest ih =>
    cases n with
    | zero => exact .refl h
    | succ n =>
      rw [copyAll]
      exact extends_andThen (extends_copyItem grows x n h) fun done g => ih _ _ g

end

theorem extends_copyAt (room depth : Nat) (r : SeqRef) (n : Nat) (h : Heap) :
    h.Extends (copyAt room depth r n h).2 := by
  induction room generalizing depth r n h with
  | zero => exact .refl h
  | succ room ih =>
    rw [copyAt]
    exact extends_andThen (extends_copyAll (ih (depth + 1)) (h.items r) #[] n h)
      fun done g => g.extends_newSeq .struct done.1

/-! ### The same copy -/

/-- A copy of an item stops where the walk along the spine stops, and otherwise
makes the storage of the spine that the walk gives. -/
def Agrees (g : Heap) (walk : Except Cutoff (Spine × Nat))
    (copied : Except Cutoff (Item × Nat) × Heap) : Prop :=
  match walk with
  | .error cause => copied.1 = .error cause
  | .ok (s, left) => copied = (.ok ((s.build g).1, left), (s.build g).2)

/-- The same for the elements of a struct. -/
def AgreesAll (g : Heap) (xs : Array Item) (walk : Except Cutoff (List Spine × Nat))
    (copied : Except Cutoff (Array Item × Nat) × Heap) : Prop :=
  match walk with
  | .error cause => copied.1 = .error cause
  | .ok (spines, left) =>
    copied = (.ok ((Spine.buildAll spines xs g).1, left), (Spine.buildAll spines xs g).2)

section

variable {h : Heap} {P : Item → Prop} {room depth : Nat}

/-- A visit to a child that the budget holds. -/
theorem copyItem_agrees
    (inner : ∀ slot n g, P (.seq ⟨.struct, slot⟩) → h.Extends g →
      Agrees g ((h.spineAt room depth ⟨.struct, slot⟩ n).map fun done => (.struct done.1, done.2))
        (copyAt room depth ⟨.struct, slot⟩ n g))
    {x : Item} (hx : P x) (n : Nat) {g : Heap} (a : h.Extends g) :
    Agrees g (visitChild (h.spineAt room depth) x (n + 1))
      (copyItem (copyAt room depth) x n g) := by
  by_cases hk : x.kind.isStruct = true
  · obtain ⟨slot, rfl⟩ := seq_of_isStruct hk
    have hin := inner slot n g hx a
    have hvisit : visitChild (h.spineAt room depth) (.seq ⟨.struct, slot⟩) (n + 1)
        = (h.spineAt room depth ⟨.struct, slot⟩ n).map fun done => (.struct done.1, done.2) := by
      show (h.spineAt room depth ⟨.struct, slot⟩ >>= fun children => pure (Spine.struct children)) n
        = _
      rw [bind_apply]
      cases h.spineAt room depth ⟨.struct, slot⟩ n with
      | error cause => rfl
      | ok done => rfl
    rw [hvisit]
    exact hin
  · have hk : x.kind.isStruct = false := by simpa using hk
    rw [visitChild_other hk, copyItem_other hk]
    rfl

theorem copyAll_agrees
    (child : ∀ x n g, P x → h.Extends g →
      Agrees g (visitChild (h.spineAt room depth) x (n + 1)) (copyItem (copyAt room depth) x n g))
    {rest : List Item} (held : ∀ x ∈ rest, P x) (xs : Array Item) (n : Nat) {g : Heap}
    (a : h.Extends g) :
    AgreesAll g xs (rest.mapM (visitChild (h.spineAt room depth)) n)
      (copyAll (copyAt room depth) rest xs n g) := by
  -- The heap grows from element to element, and what is held stays held.
  induction rest generalizing xs n g with
  | nil => rfl
  | cons x rest ih =>
    rw [List.mapM_cons, bind_apply]
    cases n with
    | zero =>
      have hstop : visitChild (h.spineAt room depth) x 0 = .error .budget := rfl
      rw [hstop]
      rfl
    | succ n =>
      have hx := child x n g (held x (List.mem_cons_self ..)) a
      have grown := extends_copyItem (extends_copyAt room depth) x n g
      cases hvisit : visitChild (h.spineAt room depth) x (n + 1) with
      | error cause =>
        rw [hvisit] at hx
        exact andThen_of_error hx
      | ok done =>
        obtain ⟨s, m⟩ := done
        rw [hvisit] at hx
        have hx : copyItem (copyAt room depth) x n g = (.ok ((s.build g).1, m), (s.build g).2) := hx
        rw [hx] at grown
        have hrest := ih (fun y hy => held y (List.mem_cons_of_mem x hy))
          (xs.push (s.build g).1) m (a.trans grown)
        have hall : copyAll (copyAt room depth) (x :: rest) xs (n + 1) g
            = copyAll (copyAt room depth) rest (xs.push (s.build g).1) m (s.build g).2 := by
          rw [copyAll, hx]
          rfl
        rw [hall]
        simp only [bind_apply]
        cases hspines : rest.mapM (visitChild (h.spineAt room depth)) m with
        | error cause =>
          rw [hspines] at hrest
          exact hrest
        | ok done =>
          rw [hspines] at hrest
          exact hrest

/-- Where nothing leads out of what is held, the copy that makes its storage as it goes
along does what reading the spine first and then making its storage does. -/
theorem ClosedOn.copyAt_agrees (closed : h.ClosedOn P) (room depth : Nat) (r : SeqRef) (n : Nat)
    (g : Heap) (hP : P (.seq r)) (a : h.Extends g) :
    Agrees g ((h.spineAt room depth r n).map fun done => (.struct done.1, done.2))
      (copyAt room depth r n g) := by
  induction room generalizing depth r n g with
  | zero => rfl
  | succ room ih =>
    -- The struct is older than the copy, so the copy reads what the walk reads.
    have hitems : g.items r = h.items r := (a.same (.seq r) (closed.holds _ hP)).contents_eq
    have held : ∀ x ∈ h.items r, P x := closed.contents _ hP
    have hall := copyAll_agrees
      (fun x n g hx a => copyItem_agrees (fun slot => ih (depth + 1) ⟨.struct, slot⟩) hx n a)
      held #[] n a
    rw [spineAt_succ, copyAt, hitems]
    cases hspines : (h.items r).mapM (visitChild (h.spineAt room (depth + 1))) n with
    | error cause =>
      rw [hspines] at hall
      exact andThen_of_error hall
    | ok done =>
      obtain ⟨spines, left⟩ := done
      rw [hspines] at hall
      have hall : copyAll (copyAt room (depth + 1)) (h.items r) #[] n g
        = (.ok ((Spine.buildAll spines #[] g).1, left), (Spine.buildAll spines #[] g).2) := hall
      rw [hall]
      rfl

end

/-- The copy of a struct that makes its storage as it goes along, with the heap
that it leaves behind when it stops. -/
def copyStruct (h : Heap) (limits : Limits) (r : SeqRef) : Except Fault Item × Heap :=
  let copied := copyAt limits.maxStructDepth.toNat 0 r limits.maxCloneLength.toNat h
  ((copied.1.mapError (cloneFault limits)).map Prod.fst, copied.2)

/-- Whether or not it stops, a copy leaves all older storage as it was. -/
theorem extends_copyStruct (h : Heap) (limits : Limits) (r : SeqRef) :
    h.Extends (h.copyStruct limits r).2 :=
  extends_copyAt limits.maxStructDepth.toNat 0 r limits.maxCloneLength.toNat h

theorem cloneStruct_result (h : Heap) (limits : Limits) (r : SeqRef) :
    (h.cloneStruct limits r).result
      = match h.spineAt limits.maxStructDepth.toNat 0 r limits.maxCloneLength.toNat with
        | .error cause => .error (cloneFault limits cause)
        | .ok (children, _) => .ok ((Spine.struct children).build h) := by
  rw [cloneStruct_eq]
  cases h.spineAt limits.maxStructDepth.toNat 0 r limits.maxCloneLength.toNat with
  | error cause => rfl
  | ok done => rfl

/-- A copy succeeds exactly if there is a spine within the limits, and is then new storage
for this spine. -/
theorem cloneStruct_eq_ok_iff {h : Heap} {limits : Limits} {slot : Nat} {out : Item × Heap} :
    (h.cloneStruct limits ⟨.struct, slot⟩).result = .ok out ↔
      ∃ s, h.HasSpine (.seq ⟨.struct, slot⟩) s ∧ Spine.Fits limits 0 s ∧
        s.children ≤ limits.maxCloneLength.toNat ∧ s.build h = out := by
  have reads := spineAt_eq_ok_iff (h := h) (Nat.zero_add limits.maxStructDepth.toNat) slot
    limits.maxCloneLength.toNat
  rw [cloneStruct_result]
  constructor
  · intro hclone
    split at hclone
    · injection hclone
    · next children left hrun =>
      obtain ⟨k, ⟨⟨hspine, hfits⟩, rfl⟩, hn⟩ := (reads children left).1 hrun
      exact ⟨.struct children, hspine, hfits, by omega, Except.ok.inj hclone⟩
  · rintro ⟨s, hspine, hfits, hn, rfl⟩
    cases hspine with
    | leaf other => exact absurd other.symm Bool.false_ne_true
    | @struct _ children size each =>
      obtain ⟨left, hleft⟩ := Nat.exists_eq_add_of_le hn
      rw [(reads children left).2 ⟨_, ⟨⟨.struct size each, hfits⟩, rfl⟩, hleft⟩]

/-- The two copies have the same result, and if they succeed the same heap. -/
theorem copyStruct_eq {h : Heap} (closed : h.Closed) (limits : Limits) {slot : Nat}
    (held : h.Holds (.seq ⟨.struct, slot⟩)) :
    match (h.cloneStruct limits ⟨.struct, slot⟩).result with
    | .error fault => (h.copyStruct limits ⟨.struct, slot⟩).1 = .error fault
    | .ok (c, h') => h.copyStruct limits ⟨.struct, slot⟩ = (.ok c, h') := by
  have agrees := closed.closedOn.copyAt_agrees limits.maxStructDepth.toNat 0 ⟨.struct, slot⟩
    limits.maxCloneLength.toNat h held (.refl h)
  rw [cloneStruct_result]
  cases hspine : h.spineAt limits.maxStructDepth.toNat 0 ⟨.struct, slot⟩
      limits.maxCloneLength.toNat with
  | error cause =>
    rw [hspine] at agrees
    have agrees : (copyAt limits.maxStructDepth.toNat 0 ⟨.struct, slot⟩
      limits.maxCloneLength.toNat h).1 = .error cause := agrees
    show (h.copyStruct limits ⟨.struct, slot⟩).1 = .error (cloneFault limits cause)
    rw [copyStruct, agrees]
    rfl
  | ok done =>
    rw [hspine] at agrees
    have agrees : copyAt limits.maxStructDepth.toNat 0 ⟨.struct, slot⟩
      limits.maxCloneLength.toNat h = (.ok (((Spine.struct done.1).build h).1, done.2),
        ((Spine.struct done.1).build h).2) := agrees
    show h.copyStruct limits ⟨.struct, slot⟩ = _
    rw [copyStruct, agrees]
    rfl

end Heap

end StackItems
