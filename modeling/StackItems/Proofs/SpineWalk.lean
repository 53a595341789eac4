/-
The spine of a struct: what a copy duplicates.

* `HasSpine` — a spine that is read off a heap, and `HasSpine.copied`, two items of
  one spine: position by position the one is a struct where the other is, and
  elsewhere both hold the same item;
* `Fits`, `children` — how deep the structs of a spine lie and how many children
  they have;
* `spineAt_eq_ok_iff` — the walk reads the spine of a struct, exactly if the spine
  fits and the budget holds all of its children;
* `build_makes` — new storage for a spine has this spine, all of it new and none of
  it shared.
-/
import StackItems.Proofs.Separate
import StackItems.Proofs.SilentWalks

namespace StackItems

/-- The kind that a copy duplicates. -/
def Kind.isStruct : Kind → Bool
  | .struct => true
  | _ => false

/-- What a copy puts in the place of an item: a struct for a struct, and for any
other item this item itself. -/
def Item.Copied (x y : Item) : Prop :=
  if x.kind.isStruct then y.kind.isStruct = true else y = x

/-- A spine that is read off the heap from an item. -/
inductive Heap.HasSpine (h : Heap) : Item → Spine → Prop where
  | leaf {x : Item} (other : x.kind.isStruct = false) : HasSpine h x (.leaf x)
  | struct {slot : Nat} {children : List Spine}
      (size : (h.items ⟨.struct, slot⟩).length = children.length)
      (each : ∀ (i : Nat) (x : Item) (s : Spine),
        (h.items ⟨.struct, slot⟩)[i]? = some x → children[i]? = some s → HasSpine h x s) :
      HasSpine h (.seq ⟨.struct, slot⟩) (.struct children)

namespace Spine

/-- The structs of a spine whose root lies at a depth are above the limit of
nesting. -/
inductive Fits (limits : Limits) : (depth : Nat) → Spine → Prop where
  | leaf {depth : Nat} (x : Item) : Fits limits depth (.leaf x)
  | struct {depth : Nat} {children : List Spine} (room : depth < limits.maxStructDepth.toNat)
      (each : ∀ s ∈ children, Fits limits (depth + 1) s) : Fits limits depth (.struct children)

mutual

/-- The number of children of all structs of a spine. -/
def children : Spine → Nat
  | .leaf _ => 0
  | .struct spines => childrenAll spines

/-- The number of the given spines and of the children in them. -/
def childrenAll : List Spine → Nat
  | [] => 0
  | s :: rest => 1 + children s + childrenAll rest

end

end Spine

namespace Heap

/-! ### Items of one spine -/

section

variable {h h' : Heap} {x y : Item} {s : Spine}

theorem seq_of_isStruct (hx : x.kind.isStruct = true) : ∃ slot, x = .seq ⟨.struct, slot⟩ := by
  cases x with
  | prim p => cases p <;> exact absurd hx Bool.false_ne_true
  | map r => exact absurd hx Bool.false_ne_true
  | host r => exact absurd hx Bool.false_ne_true
  | seq r =>
    obtain ⟨kind, slot⟩ := r
    cases kind with
    | array => exact absurd hx Bool.false_ne_true
    | struct => exact ⟨slot, rfl⟩

theorem HasSpine.copied_self (a : h.HasSpine x s) (b : h'.HasSpine y s) : x.Copied y := by
  cases a with
  | leaf other =>
    cases b with
    | leaf other' => rw [Item.Copied, if_neg (by simp [other])]
  | struct size each =>
    cases b with
    | struct size' each' => exact rfl

/-- Two items of one spine are copies of each other at every position. -/
theorem HasSpine.copied (a : h.HasSpine x s) (b : h'.HasSpine y s) (path : List Nat) :
    Option.Rel Item.Copied (h.at? Kind.isStruct x path) (h'.at? Kind.isStruct y path) := by
  induction path generalizing x y s with
  | nil => exact .some (a.copied_self b)
  | cons i path ih =>
    cases a with
    | leaf other =>
      cases b with
      | leaf other' =>
        rw [at?, at?, if_neg (by simp [other]), if_neg (by simp [other])]
        exact .none
    | @struct slot children size each =>
      cases b with
      | @struct slot' _ size' each' =>
        rw [at?_cons_of_follow rfl, at?_cons_of_follow rfl, contents, contents]
        cases hs : children[i]? with
        | none =>
          rw [List.getElem?_eq_none_iff] at hs
          rw [List.getElem?_eq_none_iff.2 (by omega), List.getElem?_eq_none_iff.2 (by omega)]
          exact .none
        | some s =>
          obtain ⟨x', hx⟩ := exists_getElem? size hs
          obtain ⟨y', hy⟩ := exists_getElem? size' hs
          rw [hx, hy, Option.bind_some, Option.bind_some]
          exact ih (each i x' s hx hs) (each' i y' s hy hs)

end

/-! ### The walk along a spine -/

open Spine (Fits)

section

variable {h : Heap} {limits : Limits}

/-- What the walk gives for an item at a depth, and how many children it visits
below it. -/
def Walks (h : Heap) (limits : Limits) (depth : Nat) (x : Item) (s : Spine) (k : Nat) : Prop :=
  (h.HasSpine x s ∧ Fits limits depth s) ∧ k = s.children

/-- The visit to a child. -/
def visitChild (inner : SeqRef → Budgeted Cutoff (List Spine)) (x : Item) :
    Budgeted Cutoff Spine := do
  Budgeted.spend .budget
  match x with
  | .seq ⟨.struct, slot⟩ => return .struct (← inner ⟨.struct, slot⟩)
  | x => return .leaf x

theorem visitChild_struct_eq_ok_iff {inner : SeqRef → Budgeted Cutoff (List Spine)} {slot : Nat}
    {n left : Nat} {s : Spine} :
    visitChild inner (.seq ⟨.struct, slot⟩) n = .ok (s, left) ↔
      ∃ m children, n = m + 1 ∧ inner ⟨.struct, slot⟩ m = .ok (children, left) ∧
        s = .struct children := by
  rw [visitChild, bind_eq_ok_iff]
  constructor
  · rintro ⟨_, m, hspend, hrest⟩
    obtain ⟨children, m', hinner, hs⟩ := bind_eq_ok_iff.1 hrest
    obtain ⟨rfl, rfl⟩ := pure_eq_ok_iff.1 hs
    exact ⟨m, children, Budgeted.spend_eq_ok_iff.1 hspend, hinner, rfl⟩
  · rintro ⟨m, children, hn, hinner, rfl⟩
    refine ⟨(), m, Budgeted.spend_eq_ok_iff.2 hn, ?_⟩
    exact bind_eq_ok_iff.2 ⟨children, left, hinner, pure_eq_ok_iff.2 ⟨rfl, rfl⟩⟩

theorem visitChild_other {inner : SeqRef → Budgeted Cutoff (List Spine)} {x : Item}
    (hx : x.kind.isStruct = false) :
    visitChild inner x = do Budgeted.spend .budget; return .leaf x := by
  cases x with
  | prim p => rfl
  | map r => rfl
  | host r => rfl
  | seq r =>
    obtain ⟨kind, slot⟩ := r
    cases kind with
    | array => rfl
    | struct => exact absurd hx.symm Bool.false_ne_true

theorem visitChild_other_eq_ok_iff {inner : SeqRef → Budgeted Cutoff (List Spine)} {x : Item}
    (hx : x.kind.isStruct = false) {n left : Nat} {s : Spine} :
    visitChild inner x n = .ok (s, left) ↔ n = left + 1 ∧ s = .leaf x := by
  rw [visitChild_other hx, bind_eq_ok_iff]
  constructor
  · rintro ⟨_, m, hspend, hs⟩
    obtain ⟨rfl, rfl⟩ := pure_eq_ok_iff.1 hs
    exact ⟨Budgeted.spend_eq_ok_iff.1 hspend, rfl⟩
  · rintro ⟨hn, rfl⟩
    exact ⟨(), left, Budgeted.spend_eq_ok_iff.2 hn, pure_eq_ok_iff.2 ⟨rfl, rfl⟩⟩

theorem spineAt_succ (h : Heap) (room depth : Nat) (r : SeqRef) :
    h.spineAt (room + 1) depth r = (h.items r).mapM (visitChild (h.spineAt room (depth + 1))) :=
  rfl

/-- What a visit to a child costs: one unit for the child itself. -/
def Visits (h : Heap) (limits : Limits) (depth : Nat) (x : Item) (s : Spine) (k : Nat) : Prop :=
  (h.HasSpine x s ∧ Fits limits depth s) ∧ k = 1 + s.children

theorem visitChild_eq_ok_iff {room depth : Nat}
    (inner : ∀ slot n children left,
      h.spineAt room depth ⟨.struct, slot⟩ n = .ok (children, left) ↔
        ∃ k, h.Walks limits depth (.seq ⟨.struct, slot⟩) (.struct children) k ∧ n = k + left)
    (x : Item) (n : Nat) (s : Spine) (left : Nat) :
    visitChild (h.spineAt room depth) x n = .ok (s, left) ↔
      ∃ k, h.Visits limits depth x s k ∧ n = k + left := by
  by_cases hx : x.kind.isStruct = true
  · obtain ⟨slot, rfl⟩ := seq_of_isStruct hx
    rw [visitChild_struct_eq_ok_iff]
    constructor
    · rintro ⟨m, children, rfl, hinner, rfl⟩
      obtain ⟨k, ⟨hwalk, rfl⟩, rfl⟩ := (inner slot m children left).1 hinner
      exact ⟨_, ⟨hwalk, rfl⟩, by omega⟩
    · rintro ⟨k, ⟨⟨hspine, hfits⟩, rfl⟩, rfl⟩
      cases hspine with
      | leaf other => exact absurd other (by simp [hx])
      | @struct _ children size each =>
        refine ⟨(Spine.struct children).children + left, children, by omega, ?_, rfl⟩
        exact (inner slot _ children left).2 ⟨_, ⟨⟨.struct size each, hfits⟩, rfl⟩, rfl⟩
  · have hx : x.kind.isStruct = false := by simpa using hx
    rw [visitChild_other_eq_ok_iff hx]
    constructor
    · rintro ⟨rfl, rfl⟩
      exact ⟨1, ⟨⟨.leaf hx, .leaf x⟩, by rw [Spine.children]⟩, Nat.add_comm ..⟩
    · rintro ⟨k, ⟨⟨hspine, -⟩, rfl⟩, rfl⟩
      cases hspine with
      | leaf other => exact ⟨by rw [Spine.children]; omega, rfl⟩
      | struct size each => exact absurd hx.symm Bool.false_ne_true

/-- The walk gives the spine of a struct, exactly if no struct of it lies too deep
and its children do not exceed the budget. -/
theorem spineAt_eq_ok_iff {room depth : Nat} (hd : depth + room = limits.maxStructDepth.toNat)
    (slot n : Nat) (children : List Spine) (left : Nat) :
    h.spineAt room depth ⟨.struct, slot⟩ n = .ok (children, left) ↔
      ∃ k, h.Walks limits depth (.seq ⟨.struct, slot⟩) (.struct children) k ∧ n = k + left := by
  induction room generalizing depth slot n children left with
  | zero =>
    rw [spineAt]
    constructor
    · intro hrun
      exact (Budgeted.stop_ne_ok hrun).elim
    · rintro ⟨k, ⟨⟨-, hfits⟩, -⟩, -⟩
      cases hfits
      omega
  | succ room ih =>
    -- A child costs one unit of its own, on top of what the structs in it cost.
    have hroom : depth + 1 + room = limits.maxStructDepth.toNat := by omega
    have visit := visitChild_eq_ok_iff (ih hroom)
    have total : ∀ {ss k}, Each (h.Visits limits (depth + 1)) (h.items ⟨.struct, slot⟩) ss k ↔ _ :=
      each_iff Spine.childrenAll rfl fun _ _ => rfl
    rw [spineAt_succ, mapM_eq_ok_iff fun x _ => visit x]
    constructor
    · rintro ⟨k, hk, rfl⟩
      obtain ⟨size, each, rfl⟩ := total.1 hk
      refine ⟨_, ⟨⟨?_, ?_⟩, by rw [Spine.children]⟩, rfl⟩
      · exact .struct size fun i x s hx hs => (each i x s hx hs).1
      · exact .struct (by omega) (forall_mem_of_getElem? size fun i x s hx hs =>
          (each i x s hx hs).2)
    · rintro ⟨k, ⟨⟨hspine, hfits⟩, rfl⟩, rfl⟩
      cases hspine with
      | struct size each =>
        cases hfits with
        | struct room fits =>
          refine ⟨Spine.childrenAll children, total.2 ⟨size, fun i x s hx hs =>
            ⟨each i x s hx hs, fits s (List.mem_of_getElem? hs)⟩, rfl⟩, ?_⟩
          rw [Spine.children]

end

/-! ### New storage for a spine -/

theorem lasts_hasSpine : Lasts Kind.isStruct HasSpine := by
  intro h h' x s u a held
  induction u with
  | leaf other => exact .leaf other
  | @struct slot children size each ih =>
    have hitems : h'.items ⟨.struct, slot⟩ = h.items ⟨.struct, slot⟩ :=
      (a.same (.seq ⟨.struct, slot⟩) (held [] _ rfl rfl)).contents_eq
    refine .struct (by rw [hitems, size]) ?_
    intro i x s hx hs
    rw [hitems] at hx
    apply ih i x s hx hs
    intro p c hc
    exact held (i :: p) c ((at?_cons_eq_some rfl).2 ⟨x, hx, hc⟩)

/-- A new struct of separate items has the struct of their spines. -/
theorem makes_newStruct {h h' : Heap} {xs : Array Item} {spines : List Spine}
    (m : MakesAll Kind.isStruct HasSpine h h' xs.toList spines) :
    Makes Kind.isStruct HasSpine h (h'.newSeq .struct xs).2 (.seq (h'.newSeq .struct xs).1)
      (.struct spines) where
  grown := m.grown.trans (h'.extends_newSeq .struct xs)
  separate := .newSeq rfl m.separate m.grown
  shows := by
    have hitems : (h'.newSeq .struct xs).2.items ⟨.struct, (h'.seqs .struct).size⟩ = xs.toList :=
      congrArg Array.toList (h'.elements_newSeq_self .struct xs)
    refine .struct (by rw [hitems, m.size]) ?_
    rw [hitems]
    exact m.shows_of_extends lasts_hasSpine (h'.extends_newSeq .struct xs)

theorem buildAll_makes {spines : List Spine}
    (each : ∀ s ∈ spines, ∀ h, Makes Kind.isStruct HasSpine h (s.build h).2 (s.build h).1 s)
    {h h' : Heap} {xs : Array Item} {done : List Spine}
    (m : MakesAll Kind.isStruct HasSpine h h' xs.toList done) :
    MakesAll Kind.isStruct HasSpine h (Spine.buildAll spines xs h').2
      (Spine.buildAll spines xs h').1.toList (done ++ spines) := by
  induction spines generalizing h' xs done with
  | nil => rwa [Spine.buildAll, List.append_nil]
  | cons s rest ih =>
    have hnext : MakesAll Kind.isStruct HasSpine h (s.build h').2
        (xs.push (s.build h').1).toList (done ++ [s]) := by
      rw [Array.toList_push]
      exact m.concat lasts_hasSpine (each s (List.mem_cons_self ..) h')
    have hrest := ih (fun s' hs' => each s' (List.mem_cons_of_mem s hs')) hnext
    rwa [List.append_assoc] at hrest

/-- The leaves of a spine that was read off a heap are no structs, so new storage
for it has no more structs than were made. -/
theorem HasSpine.build_makes {store : Heap} {x : Item} {s : Spine} (hs : store.HasSpine x s)
    (h : Heap) : Makes Kind.isStruct HasSpine h (s.build h).2 (s.build h).1 s := by
  induction hs generalizing h with
  | leaf other =>
    rw [Spine.build]
    exact ⟨.refl h, .of_not_follow other, .leaf other⟩
  | struct size each ih =>
    have hnil : MakesAll Kind.isStruct HasSpine h h (#[] : Array Item).toList [] := .nil h
    exact makes_newStruct (buildAll_makes (forall_mem_of_getElem? size ih) hnil)

end Heap

end StackItems
