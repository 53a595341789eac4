/-
What walks draw from their budget.

A walk that succeeds has drawn so many units, whatever the budget it drew them
from: with less it would have stopped, and with more the same is left over.  Such
a statement is an equivalence, "from `n` the walk gives `b` and leaves `left`
exactly if `b` costs some `k` with `n = k + left`", and composes.

* `bind_eq_ok_iff`, `pure_eq_ok_iff`, `exceptT_bind_apply` — one step after the other;
* `forall_mem_of_getElem?`, `eq_of_getElem?` — two lists that are related index by
  index;
* `Each` — the elements of two lists related one by one, with a total cost;
  `mapM_eq_ok_iff` — the walk that visits a list one by one.
-/
import StackItems.Budget

namespace StackItems

variable {ε σ α β γ : Type}

theorem bind_eq_ok_iff {act : StateT σ (Except ε) α} {next : α → StateT σ (Except ε) β}
    {s s' : σ} {b : β} :
    (act >>= next) s = .ok (b, s') ↔ ∃ a t, act s = .ok (a, t) ∧ next a t = .ok (b, s') := by
  simp only [bind, StateT.bind, Except.bind]
  cases act s with
  | error e => simp
  | ok done =>
    obtain ⟨a, t⟩ := done
    constructor
    · intro h
      exact ⟨a, t, rfl, h⟩
    · rintro ⟨a', t', h, h'⟩
      injection h with h
      injection h with ha ht
      subst ha ht
      exact h'

theorem bind_apply {act : StateT σ (Except ε) α} {next : α → StateT σ (Except ε) β} {s : σ} :
    (act >>= next) s = match act s with
      | .error e => .error e
      | .ok (a, t) => next a t := by
  simp only [bind, StateT.bind, Except.bind]
  cases act s with
  | error e => rfl
  | ok done => rfl

theorem bind_of_error {act : StateT σ (Except ε) α} {next : α → StateT σ (Except ε) β} {s : σ}
    {cause : ε} (h : act s = .error cause) : (act >>= next) s = .error cause := by
  rw [bind_apply, h]

theorem bind_of_ok {act : StateT σ (Except ε) α} {next : α → StateT σ (Except ε) β} {s t : σ}
    {a : α} (h : act s = .ok (a, t)) : (act >>= next) s = next a t := by
  rw [bind_apply, h]

/-- One step after the other when what a step leaves outlives its stop. -/
theorem exceptT_bind_apply {act : ExceptT ε (StateM σ) α} {next : α → ExceptT ε (StateM σ) β}
    {s : σ} :
    (act >>= next) s = match act s with
      | (.error e, t) => (.error e, t)
      | (.ok a, t) => next a t := by
  simp only [bind, ExceptT.bind, ExceptT.mk, StateT.bind]
  rcases act s with ⟨⟨e⟩ | ⟨a⟩, t⟩
  · rfl
  · rfl

theorem pure_eq_ok_iff {s s' : σ} {a b : α} :
    (pure a : StateT σ (Except ε) α) s = .ok (b, s') ↔ b = a ∧ s' = s := by
  show Except.ok (a, s) = .ok (b, s') ↔ _
  simp [eq_comm]

theorem get_bind_eq {next : σ → StateT σ (Except ε) β} {s : σ} :
    ((get : StateT σ (Except ε) σ) >>= next) s = next s s := rfl

namespace Budgeted

/-- What a computation gives from a budget, without what is left of the budget. -/
def runFrom (act : Budgeted ε α) (budget : UInt64) : Except ε α :=
  (act budget.toNat).map Prod.fst

theorem spend_eq_ok_iff {cause : ε} {n left : Nat} {u : Unit} :
    spend cause n = .ok (u, left) ↔ n = left + 1 := by
  cases n with
  | zero => simp [spend]
  | succ n => simp [spend]

theorem stop_ne_ok {cause : ε} {n left : Nat} {a : α} :
    (stop cause : Budgeted ε α) n ≠ .ok (a, left) := by
  simp [stop]

theorem runFrom_eq_ok_iff {act : Budgeted ε α} {budget : UInt64} {a : α} :
    act.runFrom budget = .ok a ↔ ∃ left, act budget.toNat = .ok (a, left) := by
  rw [runFrom]
  cases act budget.toNat with
  | error e => simp [Except.map]
  | ok done =>
    obtain ⟨b, left⟩ := done
    simp [Except.map]

end Budgeted

/-! ### Lists that are related index by index -/

section

variable {as : List α} {bs : List β}

/-- The element of a list at the same index as an element of another one. -/
theorem exists_getElem? (h : as.length = bs.length) {i : Nat} {b : β} (hb : bs[i]? = some b) :
    ∃ a, as[i]? = some a := by
  obtain ⟨hi, -⟩ := List.getElem?_eq_some_iff.1 hb
  exact ⟨as[i], List.getElem?_eq_getElem (by omega)⟩

/-- What holds index by index holds of every element of the second list. -/
theorem forall_mem_of_getElem? {P : β → Prop} (h : as.length = bs.length)
    (each : ∀ (i : Nat) (a : α) (b : β), as[i]? = some a → bs[i]? = some b → P b) :
    ∀ b ∈ bs, P b := by
  intro b hb
  obtain ⟨i, hi⟩ := List.getElem?_of_mem hb
  obtain ⟨a, ha⟩ := exists_getElem? h hi
  exact each i a b ha hi

theorem eq_of_getElem? {bs' : List β} (h : bs.length = bs'.length)
    (each : ∀ (i : Nat) (b b' : β), bs[i]? = some b → bs'[i]? = some b' → b = b') : bs = bs' := by
  apply List.ext_getElem h
  intro i hi hi'
  exact each i _ _ (List.getElem?_eq_getElem hi) (List.getElem?_eq_getElem hi')

theorem map_eq_map_of_getElem? {f : α → γ} {g : β → γ} (h : as.length = bs.length)
    (each : ∀ (i : Nat) (a : α) (b : β), as[i]? = some a → bs[i]? = some b → f a = g b) :
    as.map f = bs.map g := by
  apply eq_of_getElem?
  · rw [List.length_map, List.length_map, h]
  · intro i c c' hc hc'
    rw [List.getElem?_map, Option.map_eq_some_iff] at hc hc'
    obtain ⟨a, ha, rfl⟩ := hc
    obtain ⟨b, hb, rfl⟩ := hc'
    exact each i a b ha hb

end

/-! ### One by one -/

/-- The elements of two lists are related one by one, each at a cost; the last
argument is the total. -/
inductive Each (R : α → β → Nat → Prop) : List α → List β → Nat → Prop where
  | nil : Each R [] [] 0
  | cons {a : α} {b : β} {k : Nat} {as : List α} {bs : List β} {n : Nat} (first : R a b k)
      (rest : Each R as bs n) : Each R (a :: as) (b :: bs) (k + n)

namespace Each

variable {R : α → β → Nat → Prop} {as : List α} {bs : List β} {n : Nat}

theorem length_eq (h : Each R as bs n) : as.length = bs.length := by
  induction h with
  | nil => rfl
  | cons _ _ ih => rw [List.length_cons, List.length_cons, ih]

/-- A share that every element costs at least, taken once for each, is within the
total. -/
theorem mul_length_le (h : Each R as bs n) {share : Nat}
    (least : ∀ a b k, R a b k → share ≤ k) : share * bs.length ≤ n := by
  induction h with
  | nil => exact Nat.le_refl 0
  | cons first _ ih =>
    have hk := least _ _ _ first
    rw [List.length_cons, Nat.mul_succ]
    omega

end Each

/-- If the cost of an element is a function of it, the total is a function of the
list, and what is left is a relation of elements at equal indices. -/
theorem each_iff {P : α → β → Prop} {cost : β → Nat} (total : List β → Nat)
    (total_nil : total [] = 0) (total_cons : ∀ b bs, total (b :: bs) = cost b + total bs)
    {as : List α} {bs : List β} {n : Nat} :
    Each (fun a b k => P a b ∧ k = cost b) as bs n ↔
      as.length = bs.length ∧
        (∀ (i : Nat) (a : α) (b : β), as[i]? = some a → bs[i]? = some b → P a b) ∧
        n = total bs := by
  constructor
  · intro h
    induction h with
    | nil => exact ⟨rfl, fun i a b ha => absurd ha (by simp), total_nil.symm⟩
    | cons first _ ih =>
      obtain ⟨hP, rfl⟩ := first
      obtain ⟨hlen, hrel, rfl⟩ := ih
      refine ⟨by rw [List.length_cons, List.length_cons, hlen], ?_, (total_cons _ _).symm⟩
      intro i a b ha hb
      cases i with
      | zero =>
        rw [List.getElem?_cons_zero, Option.some_inj] at ha hb
        subst ha hb
        exact hP
      | succ i =>
        rw [List.getElem?_cons_succ] at ha hb
        exact hrel i a b ha hb
  · rintro ⟨hlen, hrel, rfl⟩
    induction as generalizing bs with
    | nil =>
      obtain rfl : bs = [] := List.length_eq_zero_iff.1 hlen.symm
      rw [total_nil]
      exact .nil
    | cons a as ih =>
      cases bs with
      | nil => exact absurd hlen (by simp)
      | cons b bs =>
        rw [total_cons]
        refine .cons ⟨hrel 0 a b rfl rfl, rfl⟩ (ih (by simpa using hlen) ?_)
        intro i a' b' ha hb
        exact hrel (i + 1) a' b' ha hb

/-- A visit to every element of a list, where a visit to one gives `b` at cost `k`
exactly if `R` relates them. -/
theorem mapM_eq_ok_iff {f : α → Budgeted ε β} {R : α → β → Nat → Prop} {xs : List α}
    (hf : ∀ x ∈ xs, ∀ n b left, f x n = .ok (b, left) ↔ ∃ k, R x b k ∧ n = k + left)
    {n : Nat} {ys : List β} {left : Nat} :
    xs.mapM f n = .ok (ys, left) ↔ ∃ k, Each R xs ys k ∧ n = k + left := by
  induction xs generalizing n ys with
  | nil =>
    rw [List.mapM_nil, pure_eq_ok_iff]
    constructor
    · rintro ⟨rfl, rfl⟩
      exact ⟨0, .nil, (Nat.zero_add _).symm⟩
    · rintro ⟨k, h, rfl⟩
      cases h
      exact ⟨rfl, (Nat.zero_add _).symm⟩
  | cons x xs ih =>
    have ih := @ih fun x' hx' => hf x' (List.mem_cons_of_mem x hx')
    rw [List.mapM_cons, bind_eq_ok_iff]
    constructor
    · rintro ⟨b, m, hb, hrest⟩
      obtain ⟨bs, m', hbs, hys⟩ := bind_eq_ok_iff.1 hrest
      obtain ⟨rfl, rfl⟩ := pure_eq_ok_iff.1 hys
      obtain ⟨k, hk, rfl⟩ := (hf x (List.mem_cons_self ..) n b m).1 hb
      obtain ⟨k', hk', rfl⟩ := ih.1 hbs
      exact ⟨k + k', .cons hk hk', (Nat.add_assoc ..).symm⟩
    · rintro ⟨k, h, rfl⟩
      cases h with
      | @cons _ b k _ bs k' hk hk' =>
        refine ⟨b, k' + left, ?_, ?_⟩
        · exact (hf x (List.mem_cons_self ..) _ b _).2 ⟨k, hk, Nat.add_assoc ..⟩
        · exact bind_eq_ok_iff.2 ⟨bs, left, ih.2 ⟨k', hk', rfl⟩, rfl⟩

end StackItems
