/-
Walks with a budget.

A walk over shared storage may meet the same container again and again, so it
counts what it visits against a budget and counts its nesting against a limit.

* `Budgeted` — a computation that draws on a budget and may stop; `spend` draws
  one unit;
* `Recording` — a computation that may stop and puts on record what it has to
  say, at the place where it has to say it; `abort` puts a record and stops.

Design notes: nesting is counted down as `room`, which makes the walks
structurally recursive, and counted up as `depth`, which is what a record of the
walk names.  The log of a `Recording` is part of its state and not of its result,
so what was put on record before a stop is still there after it.
-/
import StackItems.Log

namespace StackItems

/-- Why a walk stopped: it met a container with no room left, or a visit with
nothing left of its budget. -/
inductive Cutoff where
  | depth (reached : Nat)
  | budget
  deriving DecidableEq

/-- Why a walk that may meet faults stopped. -/
inductive Halt where
  | cutoff (cause : Cutoff)
  | fault (cause : Fault)
  deriving DecidableEq

/-- A computation that draws on a budget and may stop. -/
abbrev Budgeted (ε : Type) := StateT Nat (Except ε)

namespace Budgeted

variable {ε α : Type}

/-- Draws one unit, or stops for the given cause. -/
def spend (cause : ε) : Budgeted ε Unit
  | 0 => .error cause
  | n + 1 => .ok ((), n)

/-- Stops for the given cause. -/
def stop (cause : ε) : Budgeted ε α := fun _ => .error cause

end Budgeted

/-! ### Records -/

/-- What a walk has at hand: what is left of what it draws on, and what it has
put on record. -/
structure Trail (σ : Type) where
  rest : σ
  log : Array LogRecord := #[]

/-- A walk that puts something on record; its records outlive its stop. -/
abbrev Recording (ε σ : Type) := ExceptT ε (StateM (Trail σ))

namespace Recording

variable {ε σ α : Type}

/-- Puts something on record. -/
def note (r : LogRecord) : Recording ε σ Unit :=
  modify fun trail => { trail with log := trail.log.push r }

/-- Says that the walk stops, and stops. -/
def abort (r : LogRecord) (cause : ε) : Recording ε σ α := do
  note r
  throw cause

/-- Draws one unit of a budget; with nothing left of it, says so and stops. -/
def draw (r : LogRecord) (cause : ε) : Recording ε Nat Unit := fun trail =>
  match trail.rest with
  | 0 => abort r cause trail
  | n + 1 => (.ok (), { trail with rest := n })

/-- Takes over a step that puts nothing on record. -/
def silently (step : StateT σ (Except ε) α) : Recording ε σ α := fun trail =>
  match step trail.rest with
  | .ok (a, rest) => (.ok a, { trail with rest := rest })
  | .error cause => (.error cause, trail)

instance : MonadLift (StateT σ (Except ε)) (Recording ε σ) := ⟨silently⟩

/-- The report of a walk that starts with something to draw on. -/
def report (fault : ε → Fault) (walk : Recording ε σ α) (start : σ) : Report α :=
  let (result, trail) := walk.run.run { rest := start }
  ⟨result.mapError fault, trail.log⟩

end Recording

end StackItems
