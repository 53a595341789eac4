/-
Sessions: running scripts.

A session is a heap and named registers.  A step either succeeds, with an answer
and perhaps an item for a register, or fails and leaves the session as it was.
Whether or not it succeeds, what its walks put on record is kept.

* `Command.run` — what a command does;
* `Session.step` — a step of a script and its reply;
* `step_of_failed` — a failed step changes nothing.
-/
import StackItems.Equality
import StackItems.Script
import StackItems.Sequence
import StackItems.Snapshot
import StackItems.Storage
import StackItems.StructClone

namespace StackItems

/-- What a step answers. -/
inductive Answer where
  | nothing
  | flag (value : Bool)
  /-- A number as text. -/
  | integer (value : Int)
  /-- The value of a host object. -/
  | hostValue (value : Int)
  | text (value : String)
  | bytes (value : List UInt8)
  /-- The size of a container. -/
  | size (value : Nat)
  /-- The kind of an item and the size of what it holds. -/
  | info (kind : Kind) (count : Nat)
  | item (shown : Snapshot)
  | list (shown : List Snapshot × Nat)
  | entries (shown : List (Primitive × Snapshot) × Nat)

/-- What a command has done. -/
structure Outcome where
  answer : Answer
  /-- The item that the command gives, for a register to keep. -/
  item : Option Item := none
  /-- The container that the command worked on. -/
  subject : Option Item := none

/-- What a command works with: the heap and what was put on record. -/
structure Bench where
  heap : Heap
  log : Array LogRecord := #[]

/-- A command in progress; its records outlive its failure. -/
abbrev Action := ExceptT Failure (StateM Bench)

namespace Action

variable {α : Type}

/-- The heap as it is. -/
def heap : Action Heap := return (← get).heap

/-- Puts another heap in its place. -/
def setHeap (h : Heap) : Action Unit := modify fun bench => { bench with heap := h }

/-- Takes the result of an operation over. -/
def lift : Except Fault α → Action α
  | .ok a => return a
  | .error cause => throw (.fault cause)

/-- Takes the result of an operation and its records over. -/
def ofReport (report : Report α) : Action α := do
  modify fun bench => { bench with log := bench.log ++ report.log }
  lift report.result

/-- Makes the item of an expression. -/
def eval (regs : Registers) (e : Expr) : Action Item := do
  match e.eval regs (← heap) with
  | .ok (x, h) =>
    setHeap h
    return x
  | .error failure => throw failure

/-- Takes over an item that was made or taken out, and the heap that goes with
it. -/
def keeping (made : Item × Heap) : Action Item := do
  setHeap made.2
  return made.1

/-- The outcome of giving an item. -/
def giving (x : Item) : Action Outcome :=
  return { answer := .item ((← heap).snapshot x), item := some x }

/-- The outcome of giving an item if there is one. -/
def givingIfAny : Option Item → Action Outcome
  | some x => giving x
  | none => return { answer := .nothing }

end Action

open StackItems.Action

/-- Runs an operation on a sequence.  An operation that only one kind has takes the
sequence for one of that kind first. -/
def SeqAction.run (regs : Registers) (limits : Limits) (r : SeqRef) :
    SeqAction → Action Outcome
  | size => return { answer := .size ((← heap).elements r).size }
  | clear => do
    setHeap ((← heap).clear r)
    return { answer := .nothing }
  | sameAs other => do
    let s ← lift ((← eval regs other).toSeq r.kind)
    return { answer := .flag (r == s) }
  | items => return { answer := .list ((← heap).listing ((← heap).items r)) }
  | get index => do giving (← lift ((← heap).getAt r index))
  | pop => do giving (← keeping (← lift ((← heap).pop r)))
  | removeAt index => do giving (← keeping (← lift ((← heap).removeExact r index)))
  | removeByMode index => do
    let r ← lift ((Item.seq r).toSeq .array)
    giving (← keeping (← lift ((← heap).removeAt limits.removalMode r index)))
  | set index item => do
    let x ← eval regs item
    setHeap (← lift ((← heap).setAt r index x))
    return { answer := .nothing }
  | add item => do
    let x ← eval regs item
    setHeap ((← heap).add r x)
    return { answer := .nothing }
  | clone => do
    let r ← lift ((Item.seq r).toSeq .struct)
    giving (← keeping (← ofReport ((← heap).cloneStruct .default r)))
  | cloneWithin => do
    let r ← lift ((Item.seq r).toSeq .struct)
    giving (← keeping (← ofReport ((← heap).cloneStruct limits r)))

/-- Runs an operation on a map. -/
def MapAction.run (regs : Registers) (r : MapRef) : MapAction → Action Outcome
  | size => return { answer := .size ((← heap).entries r).size }
  | clear => do
    setHeap ((← heap).clearMap r)
    return { answer := .nothing }
  | sameAs other => do
    let s ← lift (← eval regs other).toMap
    return { answer := .flag (r == s) }
  | entries => return { answer := .entries ((← heap).entryListing ((← heap).entries r).toList) }
  | keys => do
    let keys := ((← heap).entries r).keys.map Item.prim
    return { answer := .list ((← heap).listing keys) }
  | values => return { answer := .list ((← heap).listing ((← heap).entries r).values) }
  | get key => do
    let k ← lift (← eval regs key).toKey
    givingIfAny (((← heap).entries r).get? k)
  | contains key => do
    let k ← lift (← eval regs key).toKey
    return { answer := .flag (((← heap).entries r).contains k) }
  | insert key item => do
    let k ← lift (← eval regs key).toKey
    let x ← eval regs item
    let (previous, h) := (← heap).insertKey r k x
    setHeap h
    givingIfAny previous
  | remove key => do
    let k ← lift (← eval regs key).toKey
    let (previous, h) := (← heap).removeKey r k
    setHeap h
    givingIfAny previous

/-- Runs a command. -/
def Command.run (regs : Registers) (limits : Limits) : Command → Action Outcome
  | give x => do giving (← eval regs x)
  | deserialize data => do giving (← keeping (← ofReport ((← heap).deserialize limits data)))
  | serialize x => do
    let x ← eval regs x
    return { answer := .bytes (← ofReport ((← heap).serialize limits x)) }
  | roundTrip x => do
    let x ← eval regs x
    let data ← ofReport ((← heap).serialize limits x)
    giving (← keeping (← ofReport ((← heap).deserialize limits data)))
  | equals x y => do
    let x ← eval regs x
    let y ← eval regs y
    return { answer := .flag (← ofReport ((← heap).equals x y)) }
  | compare x y => do
    let x ← eval regs x
    let y ← eval regs y
    return { answer := .flag (← ofReport ((← heap).compare limits x y)) }
  | info x => do
    let x ← eval regs x
    return { answer := .info x.kind ((← heap).count x) }
  | describe x => do
    let x ← eval regs x
    return { answer := .text ((← heap).describe x) }
  | key x => do
    let k ← lift (← eval regs x).toKey
    return { answer := .text k.describe, item := some (.prim k) }
  | integer x => return { answer := .integer (← lift (← eval regs x).toInteger) }
  | boolean x => return { answer := .flag (← lift (← eval regs x).toBoolean) }
  | bytes x => return { answer := .bytes (← lift (← eval regs x).toBytes) }
  | interface x => do giving (.host (← lift (← eval regs x).toHost))
  | hostValue x type => do
    let x ← eval regs x
    return { answer := .hostValue (← lift ((← heap).hostValue x type)) }
  | elements asked x => do
    let r ← lift ((← eval regs x).toAnySeq asked)
    return { answer := .list ((← heap).listing ((← heap).items r)) }
  | entries x => do
    let r ← lift (← eval regs x).toMap
    return { answer := .entries ((← heap).entryListing ((← heap).entries r).toList) }
  | cloneValue x => do
    let x ← eval regs x
    giving (← keeping (← ofReport ((← heap).cloneValue limits x)))
  | clearReferences x => do
    let x ← eval regs x
    setHeap ((← heap).clearReferences x)
    return { answer := .nothing, subject := some x }
  | onSeq kind x action => do
    let x ← eval regs x
    let r ← lift (x.toSeq kind)
    return { ← action.run regs limits r with subject := some x }
  | onMap x action => do
    let x ← eval regs x
    let r ← lift x.toMap
    return { ← action.run regs r with subject := some x }

/-- The container that a failed command was to work on, if a register holds it. -/
def Command.subject? (regs : Registers) : Command → Option Item
  | onSeq _ (.register name) _ | onMap (.register name) _ => regs.find? name
  | _ => none

/-- The reply to a step: its answer or why it failed, what can be seen of the
container that it worked on, and what was put on record. -/
structure Reply where
  answer : Except Failure Answer
  state : Option Snapshot
  log : Array LogRecord

/-- A heap and named registers. -/
structure Session where
  heap : Heap := {}
  registers : Registers := {}

namespace Session

/-- Runs a step. -/
def step (s : Session) (step : Step) : Reply × Session :=
  match (step.command.run s.registers step.limits).run ⟨s.heap, #[]⟩ with
  | (.error failure, bench) =>
    (⟨.error failure, (step.command.subject? s.registers).map s.heap.snapshot, bench.log⟩, s)
  | (.ok outcome, bench) =>
    let registers := match step.keep, outcome.item with
      | some name, some x => s.registers.put name x
      | _, _ => s.registers
    (⟨.ok outcome.answer, outcome.subject.map bench.heap.snapshot, bench.log⟩,
      ⟨bench.heap, registers⟩)

/-- Runs the steps of a script, one after the other. -/
def run : List Step → Session → List Reply → List Reply × Session
  | [], s, replies => (replies.reverse, s)
  | first :: rest, s, replies =>
    let (reply, s) := s.step first
    run rest s (reply :: replies)

/-- What can be seen of the registers. -/
def snapshots (s : Session) : List (String × Snapshot) := s.heap.snapshots s.registers.toList

/-- A failed step changes nothing. -/
theorem step_of_failed {s : Session} {st : Step} {failure : Failure}
    (h : (s.step st).1.answer = .error failure) : (s.step st).2 = s := by
  revert h
  unfold step
  split
  · exact fun _ => rfl
  · exact fun h => absurd h (by simp)

end Session

end StackItems
