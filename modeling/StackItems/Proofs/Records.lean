/-
What walks that are aborted put on record.

A walk that meets a limit should leave one record at debug level, with the limit of nesting as
the depth or with the budget, and a walk that meets none should leave no such record.

* `Comparison.Told` — a comparison has put on record at debug level what is due for its outcome;
  `told_compareAt` — every comparison has;
* `dueRecords` — the records that a result calls for; `Accounts` — they are those that are there;
* `records_due` — **copies and comparisons account for every limit that aborts them; walks to
  and from storage account for the limit of nesting, and say nothing of a budget that is used
  up.**

Design notes: a comparison may notice identities on the way to a limit.  They are records at
trace level, so they are left out before the records are compared with those that are due.
-/
import StackItems.Proofs.Settling
import StackItems.Proofs.SilentWalks

namespace StackItems

/-! ### Comparisons -/

/-- What is at debug level in a log. -/
def debugRecords (log : Array LogRecord) : List LogRecord :=
  log.toList.filter (·.level = .debug)

theorem debugRecords_append (log log' : Array LogRecord) :
    debugRecords (log ++ log') = debugRecords log ++ debugRecords log' := by
  rw [debugRecords, Array.toList_append, List.filter_append, debugRecords, debugRecords]

namespace Comparison

/-- What a comparison must put on record at debug level: that it stops, if it stops. -/
def due {α : Type} (limits : Limits) : Except Cutoff α → List LogRecord
  | .ok _ => []
  | .error cause => [comparisonRecord limits cause]

/-- Behind the records of before, a comparison has put what is due for its outcome, and if it
stops, it has a cause of its walk. -/
structure Told (limits : Limits) (limit : Nat) (before : List LogRecord) (c : Comparison) :
    Prop where
  regular : ∀ cause, c.outcome = .error cause → cause.Regular limit
  records : debugRecords c.log = before ++ due limits c.outcome

variable {limits : Limits} {limit : Nat}

theorem told_ok (log : Array LogRecord) (done : Bool × Nat) :
    Told limits limit (debugRecords log) ⟨.ok done, log⟩ where
  regular _ h := by injection h
  records := (List.append_nil _).symm

theorem told_stopped (log : Array LogRecord) {cause : Cutoff} (h : cause.Regular limit) :
    Told limits limit (debugRecords log) (stopped limits cause log) where
  regular cause' hrun := by rwa [← Except.error.inj hrun]
  records := by
    rw [stopped, debugRecords, Array.toList_push, List.filter_append, debugRecords]
    cases cause with
    | depth reached => rfl
    | budget => rfl

theorem told_all {α : Type} {compare : Item → Item → Nat → Comparison}
    {pair : α → Option (Item × Item)} (each : ∀ x y n, Told limits limit [] (compare x y n))
    (as : List α) (n : Nat) (log : Array LogRecord) :
    Told limits limit (debugRecords log) (all limits compare pair as n log) := by
  induction as generalizing n log with
  | nil => exact told_ok log _
  | cons a as ih =>
    cases n with
    | zero => exact told_stopped log trivial
    | succ n =>
      rw [all]
      split
      · exact told_ok log _
      · next x y _ =>
        obtain ⟨regular, records⟩ := each x y n
        simp only
        split
        · next equal =>
          -- What the first pair is due is nothing, so the rest goes on behind the same records.
          have same : debugRecords (log ++ (compare x y n).log) = debugRecords log := by
            rw [debugRecords_append, records, equal]
            exact List.append_nil _
          rw [← same]
          exact ih _ _
        · refine ⟨regular, ?_⟩
          rw [debugRecords_append, records, List.nil_append]

end Comparison

namespace Heap

/-- An identity that is noticed is no record at debug level. -/
theorem debugRecords_noticed (depth : Nat) (x y : Item) : debugRecords (noticed depth x y) = [] := by
  rw [noticed.eq_def]
  split
  · split <;> rfl
  · split <;> rfl
  · rfl

theorem told_noticed {limits : Limits} {limit : Nat} (depth : Nat) (x y : Item)
    (done : Bool × Nat) : Comparison.Told limits limit [] ⟨.ok done, noticed depth x y⟩ := by
  rw [← debugRecords_noticed depth x y]
  exact Comparison.told_ok (noticed depth x y) done

/-- Every comparison has put what is due on record. -/
theorem told_compareAt (h : Heap) (limits : Limits) {limit room depth : Nat}
    (hd : depth + room = limit) (x y : Item) (n : Nat) :
    Comparison.Told limits limit [] (h.compareAt limits room depth x y n) := by
  -- The depth and the room that is left make up the limit, so without room the depth is the limit.
  induction room generalizing depth x y n with
  | zero =>
    rw [compareAt_eq]
    cases h.opening x y with
    | told equal => exact told_noticed depth x y (equal, n)
    | entered pairs => exact Comparison.told_stopped #[] hd
  | succ room ih =>
    rw [compareAt_eq]
    cases h.opening x y with
    | told equal => exact told_noticed depth x y (equal, n)
    | entered pairs =>
      cases pairs with
      | none => exact Comparison.told_ok #[] _
      | some pairs => exact Comparison.told_all (ih (by omega)) pairs n #[]

end Heap

/-! ### Records that are due -/

/-- What an operation put on record at debug level. -/
def Report.debug {α : Type} (report : Report α) : List LogRecord := debugRecords report.log

/-- What a walk under limits, one of them the budget of its visits, must put on record at debug
level for its result. -/
def dueRecords {α : Type} (walk : Walk) (limits : Limits) (budget : UInt64) :
    Except Fault α → List LogRecord
  | .error (.depthExceeded _) => [.abortedAt walk limits.maxStructDepth.toNat]
  | .error (.itemLimitExceeded _) => [.abortedAfter walk budget]
  | _ => []

/-- A walk accounts for the limit that aborted it, if one did: the fault names the limit, and
the records are those that are due. -/
structure Report.Accounts {α : Type} (report : Report α) (walk : Walk) (limits : Limits)
    (budget : UInt64) : Prop where
  limit : ∀ f, report.result = .error f → f.isLimit = true →
    f = .depthExceeded limits.maxStructDepth ∨ f = .itemLimitExceeded budget
  debug : report.debug = dueRecords walk limits budget report.result

theorem dueRecords_of_not_limit {α : Type} {f : Fault} (hf : f.isLimit = false) (walk : Walk)
    (limits : Limits) (budget : UInt64) :
    dueRecords walk limits budget (.error f : Except Fault α) = [] := by
  cases f with
  | depthExceeded limit => exact absurd hf.symm Bool.false_ne_true
  | itemLimitExceeded limit => exact absurd hf.symm Bool.false_ne_true
  | conversion | indexOutOfRange | invalidKey | unsupported | format => rfl

/-! ### What walks put on record -/

namespace Heap

variable {limits : Limits}

theorem accounts_cloneStruct (h : Heap) (limits : Limits) (r : SeqRef) :
    (h.cloneStruct limits r).Accounts .clone limits limits.maxCloneLength := by
  have regular := (retraces_spineAt h limits (Nat.zero_add limits.maxStructDepth.toNat) r).stopsFor
    limits.maxCloneLength.toNat
  rw [cloneStruct_eq]
  cases hrun : h.spineAt limits.maxStructDepth.toNat 0 r limits.maxCloneLength.toNat with
  | ok walked => exact ⟨fun _ h => by injection h, rfl⟩
  | error cause =>
    have hcause := regular cause hrun
    cases cause with
    | budget => exact ⟨fun _ h _ => .inr (Except.error.inj h).symm, rfl⟩
    | depth reached =>
      obtain rfl : reached = limits.maxStructDepth.toNat := hcause
      exact ⟨fun _ h _ => .inl (Except.error.inj h).symm, rfl⟩

theorem accounts_compare (h : Heap) (limits : Limits) (x y : Item) :
    (h.compare limits x y).Accounts .comparison limits limits.maxComparableItems := by
  obtain ⟨regular, records⟩ := told_compareAt h limits (Nat.zero_add limits.maxStructDepth.toNat)
    x y limits.maxComparableItems.toNat
  rw [compare]
  generalize h.compareAt limits limits.maxStructDepth.toNat 0 x y limits.maxComparableItems.toNat
    = c at regular records
  obtain ⟨outcome, log⟩ := c
  cases outcome with
  | ok walked => exact ⟨fun _ h => by injection h, records⟩
  | error cause =>
    have hcause := regular cause rfl
    cases cause with
    | budget => exact ⟨fun _ h _ => .inr (Except.error.inj h).symm, records⟩
    | depth reached =>
      obtain rfl : reached = limits.maxStructDepth.toNat := hcause
      exact ⟨fun _ h _ => .inl (Except.error.inj h).symm, records⟩

/-- Of the causes of a walk, only a budget that is used up gives the fault of the budget. -/
theorem storageFault_eq_itemLimit_iff {halt : Halt}
    (regular : halt.Regular limits.maxStructDepth.toNat) :
    storageFault limits halt = .itemLimitExceeded limits.maxItems ↔ halt = .cutoff .budget := by
  refine ⟨fun hfault => ?_, fun h => by rw [h, storageFault]⟩
  cases halt with
  | cutoff cause =>
    cases cause with
    | depth reached => simp [storageFault] at hfault
    | budget => trivial
  | fault cause =>
    have hcause : cause.isLimit = false := regular
    rw [show cause = .itemLimitExceeded limits.maxItems from hfault] at hcause
    exact absurd hcause.symm Bool.false_ne_true

/-- A walk to or from storage accounts for every other cause. -/
theorem accounts_of_ne_budget {α : Type} {halt : Halt}
    (regular : halt.Regular limits.maxStructDepth.toNat) (other : halt ≠ .cutoff .budget) :
    (storageReport limits (.error halt : Except Halt α)).Accounts .serialization limits
      limits.maxItems := by
  cases halt with
  | cutoff cause =>
    cases cause with
    | budget => exact absurd rfl other
    | depth reached =>
      obtain rfl : reached = limits.maxStructDepth.toNat := regular
      exact ⟨fun _ h _ => .inl (Except.error.inj h).symm, rfl⟩
  | fault cause =>
    have hcause : cause.isLimit = false := regular
    refine ⟨fun f h hf => ?_, (dueRecords_of_not_limit hcause ..).symm⟩
    rw [← Except.error.inj h] at hf
    exact absurd (hcause.symm.trans hf) Bool.false_ne_true

/-- A walk to or from storage accounts for every end but that of its budget, of which it says
nothing. -/
theorem accounts_storageReport {α : Type} {run : Except Halt α}
    (regular : ∀ halt, run = .error halt → halt.Regular limits.maxStructDepth.toNat) :
    ((storageReport limits run).Accounts .serialization limits limits.maxItems ↔
        (storageReport limits run).result ≠ .error (.itemLimitExceeded limits.maxItems)) ∧
      ((storageReport limits run).result = .error (.itemLimitExceeded limits.maxItems) →
        (storageReport limits run).debug = []) := by
  cases hrun : run with
  | ok a =>
    exact ⟨⟨fun _ h => by injection h, fun _ => ⟨fun _ h => by injection h, rfl⟩⟩, fun _ => rfl⟩
  | error halt =>
    have fault_iff := storageFault_eq_itemLimit_iff (regular halt hrun)
    by_cases hbudget : halt = .cutoff .budget
    · subst hbudget
      refine ⟨iff_of_false (fun accounts => ?_) fun h => h rfl, fun _ => rfl⟩
      -- A record is due, and there is none.
      have hdebug : [] = [LogRecord.abortedAfter .serialization limits.maxItems] := accounts.debug
      exact absurd hdebug (List.cons_ne_nil _ _).symm
    · have other : (storageReport (α := α) limits (.error halt)).result
          ≠ .error (.itemLimitExceeded limits.maxItems) :=
        fun h => hbudget (fault_iff.1 (Except.error.inj h))
      exact ⟨iff_of_true (accounts_of_ne_budget (regular halt hrun) hbudget) other,
        fun h => absurd h other⟩

theorem regular_map {α β : Type} {limit : Nat} {run : Except Halt α} (g : α → β)
    (regular : ∀ halt, run = .error halt → halt.Regular limit) :
    ∀ halt, run.map g = .error halt → halt.Regular limit := by
  intro halt h
  cases hrun : run with
  | ok a =>
    rw [hrun] at h
    injection h
  | error halt' =>
    rw [hrun] at h
    rw [← Except.error.inj h]
    exact regular halt' hrun

theorem regular_tree (h : Heap) (limits : Limits) (x : Item) :
    ∀ halt, h.tree limits x = .error halt → halt.Regular limits.maxStructDepth.toNat :=
  regular_map Prod.fst
    ((retraces_treeAt h limits (Nat.zero_add _) x).stopsFor limits.maxItems.toNat)

theorem regular_decode (limits : Limits) (input : List UInt8) :
    ∀ halt, Tree.decode limits input = .error halt →
      halt.Regular limits.maxStructDepth.toNat := by
  intro halt h
  rw [Tree.decode] at h
  split at h
  · next hrun =>
    rw [← Except.error.inj h]
    exact (retraces_readAt limits (Nat.zero_add _)).stopsFor _ _ hrun
  · split at h
    · injection h
    · rw [← Except.error.inj h]
      rfl

/-- **Copies and comparisons account for every limit that aborts them.**  Walks to and from
storage account for the limit of nesting, but when their budget is used up they leave no record
at debug level. -/
theorem records_due (h : Heap) (limits : Limits) :
    (∀ r, (h.cloneStruct limits r).Accounts .clone limits limits.maxCloneLength) ∧
      (∀ x y, (h.compare limits x y).Accounts .comparison limits limits.maxComparableItems) ∧
      (∀ x, ((h.serialize limits x).Accounts .serialization limits limits.maxItems ↔
          (h.serialize limits x).result ≠ .error (.itemLimitExceeded limits.maxItems)) ∧
        ((h.serialize limits x).result = .error (.itemLimitExceeded limits.maxItems) →
          (h.serialize limits x).debug = [])) ∧
      ∀ input, ((h.deserialize limits input).Accounts .serialization limits limits.maxItems ↔
          (h.deserialize limits input).result ≠ .error (.itemLimitExceeded limits.maxItems)) ∧
        ((h.deserialize limits input).result = .error (.itemLimitExceeded limits.maxItems) →
          (h.deserialize limits input).debug = []) :=
  ⟨accounts_cloneStruct h limits, accounts_compare h limits,
    fun x => by
      rw [serialize_eq]
      exact accounts_storageReport (regular_map _ (regular_tree h limits x)),
    fun input => by
      rw [deserialize_eq]
      exact accounts_storageReport (regular_map _ (regular_decode limits input))⟩

/-- An array that holds a truth value. -/
def boxed : Heap := { arrays := #[#[.prim (.boolean true)]] }

/-- The array and what it holds are two items.  With a budget of one, neither the walk to storage
nor the walk from storage says that it was aborted. -/
theorem budget_unrecorded_boxed :
    (boxed.serialize { maxItems := 1 } (.seq ⟨.array, 0⟩)).result = .error (.itemLimitExceeded 1) ∧
      (boxed.serialize { maxItems := 1 } (.seq ⟨.array, 0⟩)).debug = [] ∧
      ¬ (boxed.serialize { maxItems := 1 } (.seq ⟨.array, 0⟩)).Accounts .serialization
        { maxItems := 1 } 1 ∧
      ¬ (boxed.deserialize { maxItems := 1 } [0x40, 1, 0x20, 1]).Accounts .serialization
        { maxItems := 1 } 1 :=
  ⟨rfl, rfl, fun accounts => absurd accounts.debug (by decide),
    fun accounts => absurd accounts.debug (by decide)⟩

end Heap

end StackItems
