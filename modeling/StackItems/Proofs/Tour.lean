/-
Walks in preorder, and the first visit at which one must stop.

A tour visits an item, then all that lies below its first child, then all that lies below
its second child, and so on, and never looks whether it has been at an item before.  What
lies below an item may be infinite; the visits are numbered all the same.

* `Tour` — what lies below an item, and what is wrong with a visit of a number to an item at
  a depth;
* `visit?` — the visit of a number; `Completes`, `StopsWith` — nothing is wrong with any visit,
  or so much with the first that something is wrong with;
* `Tracks` — a computation with a budget that does the visits of a tour one after the other and
  stops at the first that is wrong; `tracks_pure`, `Tracks.bind`, `Tracks.mapM`,
  `Tracks.visit` — such computations are put together from such computations.

Design notes: the budget counts down what the numbers of the visits count up, so their sum is
one and the same throughout.  A tour is defined without the computation, by the list of what
is still to be visited.
-/
import Mathlib.Logic.Function.Iterate
import StackItems.Proofs.Drawing

namespace StackItems

/-- A walk in preorder that stops at the first visit with which something is wrong. -/
structure Tour (α φ : Type) where
  /-- What lies directly below an item, in the order of the visits. -/
  below : α → List α
  /-- What is wrong with the visit of a number, counted from zero, to an item at a depth. -/
  Wrong : Nat → Nat × α → φ → Prop
  unique : ∀ {k : Nat} {stop : Nat × α} {f f' : φ}, Wrong k stop f → Wrong k stop f' → f = f'

namespace Tour

variable {α β γ ε φ : Type} (T : Tour α φ)

/-- What is still to be visited after one visit more: what lies below the item comes
first, one level deeper. -/
def advance : List (Nat × α) → List (Nat × α)
  | [] => []
  | (depth, x) :: rest => (T.below x).map (depth + 1, ·) ++ rest

/-- What is still to be visited after so many visits, from an item at depth zero. -/
def pending (x : α) (k : Nat) : List (Nat × α) := T.advance^[k] [(0, x)]

/-- The visit of a number, if there are so many: the depth and the item. -/
def visit? (x : α) (k : Nat) : Option (Nat × α) := (T.pending x k).head?

/-- Nothing is wrong with a visit. -/
def Clear (k : Nat) (stop : Nat × α) : Prop := ∀ f, ¬ T.Wrong k stop f

/-- Nothing is wrong with any visit. -/
def Completes (x : α) : Prop := ∀ k stop, T.visit? x k = some stop → T.Clear k stop

/-- The first visit with which something is wrong is wrong in this way. -/
def StopsWith (x : α) (f : φ) : Prop :=
  ∃ k stop, T.visit? x k = some stop ∧ T.Wrong k stop f ∧
    ∀ j stop', j < k → T.visit? x j = some stop' → T.Clear j stop'

/-! ### Visits in a row -/

/-- From what is to be visited, the next visit having a number, there are visits with
nothing wrong up to what is to be visited then, the next visit having that number. -/
inductive Passes : List (Nat × α) → Nat → List (Nat × α) → Nat → Prop where
  | done (todo : List (Nat × α)) (k : Nat) : Passes todo k todo k
  | visit {stop : Nat × α} {rest todo : List (Nat × α)} {k m : Nat} (clear : T.Clear k stop)
      (onward : Passes (T.advance (stop :: rest)) (k + 1) todo m) :
      Passes (stop :: rest) k todo m

/-- After visits with nothing wrong there is one that is wrong in this way. -/
def Fails (todo : List (Nat × α)) (k : Nat) (f : φ) : Prop :=
  ∃ stop rest m, T.Passes todo k (stop :: rest) m ∧ T.Wrong m stop f

section

variable {T : Tour α φ} {todo todo' rest : List (Nat × α)} {k m n : Nat} {x : α} {f f' : φ}

theorem StopsWith.eq (a : T.StopsWith x f) (b : T.StopsWith x f') : f = f' := by
  obtain ⟨k, stop, hk, wrong, before⟩ := a
  obtain ⟨k', stop', hk', wrong', before'⟩ := b
  -- Of two visits that are wrong the earlier one would be clear.
  rcases Nat.lt_trichotomy k k' with h | rfl | h
  · exact absurd wrong (before' k stop h hk f)
  · rw [hk, Option.some_inj] at hk'
    subst hk'
    exact T.unique wrong wrong'
  · exact absurd wrong' (before k' stop' h hk' f')

theorem Completes.not_stopsWith (a : T.Completes x) : ¬ T.StopsWith x f := by
  rintro ⟨k, stop, hk, wrong, -⟩
  exact a k stop hk f wrong

/-- What was to be visited later is to be visited later still. -/
theorem advance_cons (stop : Nat × α) (rest : List (Nat × α)) :
    T.advance (stop :: rest) = T.advance [stop] ++ rest := by
  rw [advance, advance, List.append_nil]

theorem Passes.trans (a : T.Passes todo k todo' m) {todo'' : List (Nat × α)}
    (b : T.Passes todo' m todo'' n) : T.Passes todo k todo'' n := by
  induction a with
  | done => exact b
  | visit clear _ ih => exact .visit clear (ih b)

theorem Passes.fails (a : T.Passes todo k todo' m) (b : T.Fails todo' m f) : T.Fails todo k f := by
  obtain ⟨stop, rest, n, passes, wrong⟩ := b
  exact ⟨stop, rest, n, a.trans passes, wrong⟩

/-- Visits in a row, by their numbers. -/
theorem Passes.visits (a : T.Passes todo k todo' m) :
    ∃ i, m = k + i ∧ T.advance^[i] todo = todo' ∧
      ∀ j < i, ∃ stop, (T.advance^[j] todo).head? = some stop ∧ T.Clear (k + j) stop := by
  -- Behind the first visit every visit is one number further on.
  induction a with
  | done todo k => exact ⟨0, rfl, rfl, fun j hj => absurd hj (Nat.not_lt_zero j)⟩
  | @visit stop rest _ k m clear _ ih =>
    obtain ⟨i, rfl, hi, before⟩ := ih
    refine ⟨i + 1, by omega, hi, ?_⟩
    intro j hj
    cases j with
    | zero => exact ⟨stop, rfl, clear⟩
    | succ j =>
      obtain ⟨stop', hstop, hclear⟩ := before j (by omega)
      exact ⟨stop', hstop, by rwa [Nat.add_comm j, ← Nat.add_assoc]⟩

/-- A tour at whose end nothing is left to be visited is complete. -/
theorem Passes.completes (a : T.Passes [(0, x)] 0 [] m) : T.Completes x := by
  obtain ⟨i, rfl, hi, before⟩ := a.visits
  intro k stop hk
  by_cases h : k < i
  · obtain ⟨stop', hstop, hclear⟩ := before k h
    rw [visit?, pending, hstop, Option.some_inj] at hk
    rw [Nat.zero_add] at hclear
    rwa [← hk]
  · -- Behind the last visit there is nothing left to be visited.
    obtain ⟨j, rfl⟩ : ∃ j, k = j + i := ⟨k - i, by omega⟩
    have hend : T.advance^[j] [] = [] := Function.iterate_fixed rfl j
    rw [visit?, pending, Function.iterate_add_apply, hi, hend] at hk
    simp at hk

theorem Fails.stopsWith (a : T.Fails [(0, x)] 0 f) : T.StopsWith x f := by
  obtain ⟨stop, rest, m, passes, wrong⟩ := a
  obtain ⟨i, rfl, hi, before⟩ := passes.visits
  refine ⟨0 + i, stop, ?_, wrong, ?_⟩
  · rw [Nat.zero_add, visit?, pending, hi]
    rfl
  · intro j stop' hj hvisit
    obtain ⟨stop'', hstop, hclear⟩ := before j (by omega)
    rw [visit?, pending, hstop, Option.some_inj] at hvisit
    rw [Nat.zero_add] at hclear
    rwa [← hvisit]

/-- A result that is there if the tour is complete, and is a fault if the tour stops with it,
is there only then, and is this fault only then. -/
theorem decides {result : Except φ β} (hok : ∀ b, result = .ok b → T.Completes x)
    (herror : ∀ f, result = .error f → T.StopsWith x f) :
    ((∃ b, result = .ok b) ↔ T.Completes x) ∧ ∀ f, result = .error f ↔ T.StopsWith x f := by
  cases hr : result with
  | ok b =>
    have completes := hok b hr
    exact ⟨⟨fun _ => completes, fun _ => ⟨b, rfl⟩⟩,
      fun f => ⟨fun h => absurd h (by simp), fun stops => (completes.not_stopsWith stops).elim⟩⟩
  | error f =>
    have stops := herror f hr
    refine ⟨⟨fun ⟨b, h⟩ => absurd h (by simp),
      fun completes => (completes.not_stopsWith stops).elim⟩, fun f' => ⟨?_, ?_⟩⟩
    · intro h
      rwa [← Except.error.inj h]
    · intro stops'
      rw [stops.eq stops']

end

/-! ### Computations that do a tour -/

/-- Whatever its budget, the computation does the visits that are to be done, and leaves to
be done what comes behind them, or it stops at the first visit that is wrong.  The number of
the next visit and the budget add up to `total`. -/
def Tracks (total : Nat) (faultOf : ε → φ) (act : Budgeted ε β) (todo : List (Nat × α)) : Prop :=
  ∀ (n k : Nat) (rest : List (Nat × α)), k + n = total →
    (∀ b left, act n = .ok (b, left) →
      ∃ m, m + left = total ∧ T.Passes (todo ++ rest) k rest m) ∧
    ∀ cause, act n = .error cause → T.Fails (todo ++ rest) k (faultOf cause)

section

variable {T : Tour α φ} {total : Nat} {faultOf : ε → φ} {act : Budgeted ε β}
  {todo todo' : List (Nat × α)}

theorem tracks_pure (b : β) : T.Tracks total faultOf (pure b) [] := by
  intro n k rest hn
  constructor
  · intro b' left hrun
    obtain ⟨-, rfl⟩ := pure_eq_ok_iff.1 hrun
    exact ⟨k, hn, .done rest k⟩
  · intro cause hrun
    injection hrun

theorem Tracks.bind {next : β → Budgeted ε γ} (a : T.Tracks total faultOf act todo)
    (b : ∀ y, T.Tracks total faultOf (next y) todo') :
    T.Tracks total faultOf (act >>= next) (todo ++ todo') := by
  intro n k rest hn
  obtain ⟨aok, aerror⟩ := a n k (todo' ++ rest) hn
  rw [List.append_assoc, bind_apply]
  cases hrun : act n with
  | error cause =>
    refine ⟨fun _ _ h => by injection h, fun cause' h => ?_⟩
    rw [← Except.error.inj h]
    exact aerror cause hrun
  | ok made =>
    obtain ⟨y, left⟩ := made
    obtain ⟨m, hm, passes⟩ := aok y left hrun
    -- Where the first computation ends the second one begins, with the budget that is left.
    obtain ⟨bok, berror⟩ := b y left m rest hm
    constructor
    · intro z left' h
      obtain ⟨m', hm', passes'⟩ := bok z left' h
      exact ⟨m', hm', passes.trans passes'⟩
    · intro cause h
      exact passes.fails (berror cause h)

theorem Tracks.map (a : T.Tracks total faultOf act todo) (g : β → γ) :
    T.Tracks total faultOf (do return g (← act)) todo := by
  have mapped := a.bind fun y => tracks_pure (g y)
  rwa [List.append_nil] at mapped

theorem Tracks.mapM {visit : γ → Budgeted ε β} {xs : List γ} {stops : γ → List (Nat × α)}
    (each : ∀ x ∈ xs, T.Tracks total faultOf (visit x) (stops x)) :
    T.Tracks total faultOf (xs.mapM visit) (xs.flatMap stops) := by
  induction xs with
  | nil => exact tracks_pure []
  | cons x xs ih =>
    rw [List.mapM_cons, List.flatMap_cons]
    refine (each x (List.mem_cons_self ..)).bind fun y => ?_
    exact (ih fun x' hx' => each x' (List.mem_cons_of_mem x hx')).map (y :: ·)

/-- A visit that costs one unit of the budget, and then all that lies below. -/
theorem Tracks.visit {cause : ε} {stop : Nat × α} (past : T.Wrong total stop (faultOf cause))
    (clear : ∀ k < total, T.Clear k stop) (below : T.Tracks total faultOf act (T.advance [stop])) :
    T.Tracks total faultOf (do Budgeted.spend cause; act) [stop] := by
  intro n k rest hn
  cases n with
  | zero =>
    obtain rfl : k = total := hn
    refine ⟨fun _ _ h => by injection h, fun cause' h => ?_⟩
    rw [← Except.error.inj h]
    exact ⟨stop, rest, k, .done _ _, past⟩
  | succ n =>
    have onward : ∀ {todo m}, T.Passes (T.advance [stop] ++ rest) (k + 1) todo m →
        T.Passes ([stop] ++ rest) k todo m := by
      intro todo m passes
      rw [← advance_cons] at passes
      exact .visit (clear k (by omega)) passes
    obtain ⟨bok, berror⟩ := below n (k + 1) rest (by omega)
    constructor
    · intro y left h
      obtain ⟨m, hm, passes⟩ := bok y left h
      exact ⟨m, hm, onward passes⟩
    · intro cause' h
      obtain ⟨stop', rest', m, passes, wrong⟩ := berror cause' h
      exact ⟨stop', rest', m, onward passes, wrong⟩

/-- A visit that costs one unit of the budget and is wrong for another cause. -/
theorem tracks_stop {cause cause' : ε} {stop : Nat × α}
    (past : T.Wrong total stop (faultOf cause))
    (wrong : ∀ k < total, T.Wrong k stop (faultOf cause')) :
    T.Tracks total faultOf (do Budgeted.spend cause; (Budgeted.stop cause' : Budgeted ε β))
      [stop] := by
  intro n k rest hn
  cases n with
  | zero =>
    obtain rfl : k = total := hn
    refine ⟨fun _ _ h => by injection h, fun cause'' h => ?_⟩
    rw [← Except.error.inj h]
    exact ⟨stop, rest, k, .done _ _, past⟩
  | succ n =>
    refine ⟨fun _ _ h => by injection h, fun cause'' h => ?_⟩
    rw [← Except.error.inj h]
    exact ⟨stop, rest, k, .done _ _, wrong k (by omega)⟩

end

end Tour

end StackItems
