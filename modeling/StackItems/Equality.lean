/-
Equality of items within limits.

Primitives are equal by value, arrays and host objects by identity.  Structs are
compared element by element and maps entry by entry, whatever the order of the
entries.  A comparison visits at most a budget of elements and enters no
container at the limit of nesting; two handles of the same storage are equal
without being entered.

* `compare` — the comparison, which may stop at a limit;
* `equals` — the comparison under the default limits, in which a stop counts as
  "different";
* `Alike` — the equality that the comparison decides, without limits.

Design notes: a comparison keeps what it put on record apart from its outcome,
and the outcome does not depend on the records.
-/
import StackItems.Budget
import StackItems.Heap
import StackItems.Limits

namespace StackItems

/-- What a comparison that stops has as its fault. -/
def comparisonFault (limits : Limits) : Cutoff → Fault
  | .depth _ => .depthExceeded limits.maxStructDepth
  | .budget => .itemLimitExceeded limits.maxComparableItems

/-- What a comparison that stops puts on record. -/
def comparisonRecord (limits : Limits) : Cutoff → LogRecord
  | .depth reached => .abortedAt .comparison reached
  | .budget => .abortedAfter .comparison limits.maxComparableItems

/-- The outcome of a comparison, with what is left of the budget, and what it
put on record on the way. -/
structure Comparison where
  outcome : Except Cutoff (Bool × Nat)
  log : Array LogRecord

namespace Comparison

/-- A comparison that is settled. -/
def settled (equal : Bool) (budget : Nat) : Comparison := ⟨.ok (equal, budget), #[]⟩

/-- A comparison that stops, and says so behind what is on record already. -/
def stopped (limits : Limits) (cause : Cutoff) (log : Array LogRecord) : Comparison :=
  ⟨.error cause, log.push (comparisonRecord limits cause)⟩

/-- A comparison of a storage with itself. -/
def ofSame (kind : Kind) (depth budget : Nat) : Comparison :=
  ⟨.ok (true, budget), #[.sameStorage kind depth]⟩

/-- Compares the pairs that the elements of a list stand for, one after the
other, as long as they are equal; an element without a partner settles that they
are not.  Every element costs one unit of the budget. -/
def all {α : Type} (limits : Limits) (compare : Item → Item → Nat → Comparison)
    (pair : α → Option (Item × Item)) : List α → Nat → Array LogRecord → Comparison
  | [], n, log => ⟨.ok (true, n), log⟩
  | _ :: _, 0, log => stopped limits .budget log
  | a :: rest, n + 1, log =>
    match pair a with
    | none => ⟨.ok (false, n), log⟩
    | some (x, y) =>
      let first := compare x y n
      match first.outcome with
      | .ok (true, left) => all limits compare pair rest left (log ++ first.log)
      | outcome => ⟨outcome, log ++ first.log⟩

end Comparison

namespace Heap

/-- The comparison of two items at a depth, with room for so many more levels of
containers and a budget. -/
def compareAt (h : Heap) (limits : Limits) (room depth : Nat) (x y : Item) (budget : Nat) :
    Comparison :=
  match x, y with
  | .prim p, .prim q => .settled (p == q) budget
  | .host r, .host s => .settled (r == s) budget
  | .seq r, .seq s =>
    if r.kind = .struct ∧ s.kind = .struct then
      if r = s then .ofSame .struct depth budget
      else match room with
        | 0 => .stopped limits (.depth depth) #[]
        | room + 1 =>
          if (h.elements r).size = (h.elements s).size then
            Comparison.all limits (compareAt h limits room (depth + 1)) some
              ((h.items r).zip (h.items s)) budget #[]
          else .settled false budget
    else .settled (r == s) budget
  | .map r, .map s =>
    if r = s then .ofSame .map depth budget
    else match room with
      | 0 => .stopped limits (.depth depth) #[]
      | room + 1 =>
        if (h.entries r).size = (h.entries s).size then
          Comparison.all limits (compareAt h limits room (depth + 1))
            (fun entry : Primitive × Item => ((h.entries s).get? entry.1).map (entry.2, ·))
            (h.entries r).toList budget #[]
        else .settled false budget
  | _, _ => .settled false budget

/-- Whether two items are equal, if that can be settled within the limits. -/
def compare (h : Heap) (limits : Limits) (x y : Item) : Report Bool :=
  let c := h.compareAt limits limits.maxStructDepth.toNat 0 x y limits.maxComparableItems.toNat
  match c.outcome with
  | .ok (equal, _) => ⟨.ok equal, c.log⟩
  | .error cause => ⟨.error (comparisonFault limits cause), c.log⟩

/-- Whether two items are equal under the default limits; items that cannot be
told equal or different within them count as different. -/
def equals (h : Heap) (x y : Item) : Report Bool :=
  let report := h.compare .default x y
  match report.result with
  | .ok _ => report
  | .error fault => ⟨.ok false, report.log.push (.takenAsDifferent fault)⟩

/-! ### Equality without limits -/

/-- Value equality: primitives with the same value, one and the same storage,
structs that are equal element by element, and maps with the same keys that are
equal under each key. -/
inductive Alike (h : Heap) : Item → Item → Prop where
  | prim (p : Primitive) : Alike h (.prim p) (.prim p)
  | host (r : HostRef) : Alike h (.host r) (.host r)
  | seq (r : SeqRef) : Alike h (.seq r) (.seq r)
  | map (r : MapRef) : Alike h (.map r) (.map r)
  | elements {r s : SeqRef} (hr : r.kind = .struct) (hs : s.kind = .struct)
      (size : (h.items r).length = (h.items s).length)
      (each : ∀ (i : Nat) (x y : Item),
        (h.items r)[i]? = some x → (h.items s)[i]? = some y → Alike h x y) :
      Alike h (.seq r) (.seq s)
  | entries {r s : MapRef} (keys : ∀ k, k ∈ (h.entries r).keys ↔ k ∈ (h.entries s).keys)
      (each : ∀ (k : Primitive) (x y : Item),
        (h.entries r).get? k = some x → (h.entries s).get? k = some y → Alike h x y) :
      Alike h (.map r) (.map s)

end Heap

end StackItems
