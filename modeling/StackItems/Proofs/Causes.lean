/-
Why the steps of walks stop.

A step of a walk that puts nothing on record stops because the budget is used up, or for
something that is wrong with an item or with stored data.  It never stops for its depth, of
which a walk to or from storage has to speak.

* `StopsFor` — a computation that stops for causes of one kind only; `StopsFor.bind` — such
  computations are put together from such computations;
* `Halt.Silent` — the causes of which nothing is said; `silent_visitPrimitive`, `silent_count`
  and the others — the steps have no other causes.
-/
import StackItems.Proofs.Drawing
import StackItems.Storage

namespace StackItems

/-! ### Why computations stop -/

section

variable {ε σ α β : Type} {P : ε → Prop} {cause : ε}

/-- Whatever state it starts from, the computation stops for such causes only. -/
def StopsFor (P : ε → Prop) (act : StateT σ (Except ε) α) : Prop :=
  ∀ s cause, act s = .error cause → P cause

theorem stopsFor_pure (a : α) : StopsFor P (pure a : StateT σ (Except ε) α) := by
  intro s cause h
  injection h

theorem StopsFor.bind {act : StateT σ (Except ε) α} {next : α → StateT σ (Except ε) β}
    (a : StopsFor P act) (b : ∀ x, StopsFor P (next x)) : StopsFor P (act >>= next) := by
  intro s cause h
  rw [bind_apply] at h
  cases hrun : act s with
  | error cause' =>
    rw [hrun] at h
    rw [← Except.error.inj h]
    exact a s cause' hrun
  | ok done =>
    rw [hrun] at h
    exact b done.1 done.2 cause h

theorem stopsFor_spend (h : P cause) : StopsFor P (Budgeted.spend cause) := by
  intro n cause' hrun
  cases n with
  | zero => rwa [← Except.error.inj hrun]
  | succ n => injection hrun

theorem stopsFor_stop (h : P cause) : StopsFor P (Budgeted.stop cause : Budgeted ε α) := by
  intro n cause' hrun
  rwa [← Except.error.inj hrun]

end

/-! ### Steps -/

/-- Why a step stops that says nothing of it: the budget is used up, or there is a fault that
comes from no limit. -/
def Halt.Silent : Halt → Prop
  | .cutoff (.depth _) => False
  | .cutoff .budget => True
  | .fault cause => cause.isLimit = false

theorem isLimit_of_storageFault? {limits : Limits} {p : Primitive} {f : Fault}
    (h : p.storageFault? limits = some f) : f.isLimit = false := by
  cases p with
  | boolean b => simp [Primitive.storageFault?] at h
  | integer n =>
    rw [Primitive.storageFault?] at h
    split at h
    · rw [← Option.some_inj.1 h]
      rfl
    · injection h
  | bytes bs =>
    rw [Primitive.storageFault?] at h
    split at h
    · rw [← Option.some_inj.1 h]
      rfl
    · injection h

theorem silent_visitPrimitive (limits : Limits) (p : Primitive) :
    StopsFor Halt.Silent (visitPrimitive limits p) := by
  refine (stopsFor_spend trivial).bind fun _ => ?_
  split
  · next fault h => exact stopsFor_stop (isLimit_of_storageFault? h)
  · exact stopsFor_pure ()

namespace Reader

variable {α : Type}

theorem silent_fail {fault : Fault} (h : fault.isLimit = false) :
    StopsFor Halt.Silent (fail fault : Reader α) := by
  intro c cause hrun
  rwa [← Except.error.inj hrun]

theorem silent_spend : StopsFor Halt.Silent spend := by
  intro c cause hrun
  rw [spend] at hrun
  split at hrun
  · rw [← Except.error.inj hrun]
    trivial
  · injection hrun

theorem silent_front (read : List UInt8 → Except FormatFault (α × List UInt8)) :
    StopsFor Halt.Silent (front read) := by
  intro c cause hrun
  rw [front] at hrun
  split at hrun
  · injection hrun
  · rw [← Except.error.inj hrun]
    rfl

theorem silent_sized (max : UInt64) : StopsFor Halt.Silent (sized max) :=
  (silent_front _).bind fun _ => silent_front _

theorem silent_count (limits : Limits) (share : Nat) :
    StopsFor Halt.Silent (count limits share) := by
  refine (silent_front _).bind fun n => ?_
  intro c cause hrun
  rw [get_bind_eq] at hrun
  split at hrun
  · rw [← Except.error.inj hrun]
    trivial
  · exact stopsFor_pure n c cause hrun

theorem silent_asKey (t : Tree) : StopsFor Halt.Silent (asKey t) := by
  cases t with
  | prim p => exact stopsFor_pure p
  | seq kind children => exact silent_fail rfl
  | map entries => exact silent_fail rfl

theorem silent_ended : StopsFor Halt.Silent ended := by
  intro c cause hrun
  rw [ended] at hrun
  split at hrun
  · injection hrun
  · rw [← Except.error.inj hrun]
    rfl

end Reader

namespace Tree

theorem silent_readBoolean : StopsFor Halt.Silent readBoolean := by
  refine (Reader.silent_front _).bind fun b => ?_
  split
  · exact stopsFor_pure _
  · split
    · exact stopsFor_pure _
    · exact Reader.silent_fail rfl

theorem silent_readInteger : StopsFor Halt.Silent readInteger :=
  (Reader.silent_sized _).bind fun _ => stopsFor_pure _

end Tree

end StackItems
