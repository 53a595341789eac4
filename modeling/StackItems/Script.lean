/-
Scripts over items.

A script is a list of steps over named registers.  A step names an operation and
the expressions for its operands.

* `Expr` — what an operand is made from; everything but a register is new;
* `Expr.eval` — making it;
* `Command`, `Step` — the steps of a script.

Design notes: the expressions that make many containers at once (`nest`,
`lattice`, `range`) say in one word what would be a large text otherwise.
-/
import StackItems.Heap
import StackItems.Limits

namespace StackItems

/-- The kinds of container. -/
inductive Container where
  | seq (kind : SeqKind)
  | map

/-- What an item of a script is made from. -/
inductive Expr where
  | register (name : String)
  | prim (p : Primitive)
  | host (object : HostObject)
  | seq (kind : SeqKind) (elements : List Expr)
  | map (entries : List (Expr × Expr))
  /-- A leaf in so many containers, each the only element of the next; the kinds
  take turns, the innermost first. -/
  | nest (kinds : List Container) (depth : Nat) (leaf : Expr)
  /-- A leaf under so many levels of containers, each of which holds the one
  below it `width` times. -/
  | lattice (kind : Container) (width depth : Nat) (leaf : Expr)
  /-- A container of the integers from zero up to `n`. -/
  | range (kind : Container) (n : Nat)

/-- Operations on a sequence. -/
inductive SeqAction where
  | size
  | clear
  | sameAs (other : Expr)
  | items
  | get (index : Nat)
  | pop
  | removeAt (index : Nat)
  /-- Removal that reads the index as the limits say; only an array has it. -/
  | removeByMode (index : Nat)
  | set (index : Nat) (item : Expr)
  | add (item : Expr)
  /-- A copy under the default limits; only a struct has it. -/
  | clone
  /-- A copy under the limits of the step; only a struct has it. -/
  | cloneWithin

/-- Operations on a map. -/
inductive MapAction where
  | size
  | clear
  | sameAs (other : Expr)
  | entries
  | keys
  | values
  | get (key : Expr)
  | contains (key : Expr)
  | insert (key item : Expr)
  | remove (key : Expr)

/-- What a step does. -/
inductive Command where
  | give (x : Expr)
  | deserialize (data : List UInt8)
  | serialize (x : Expr)
  | roundTrip (x : Expr)
  | equals (x y : Expr)
  | compare (x y : Expr)
  | info (x : Expr)
  | describe (x : Expr)
  | key (x : Expr)
  | integer (x : Expr)
  | boolean (x : Expr)
  | bytes (x : Expr)
  | interface (x : Expr)
  | hostValue (x : Expr) (type : String)
  /-- The elements of a sequence of either kind. -/
  | elements (asked : SeqKind) (x : Expr)
  | entries (x : Expr)
  | cloneValue (x : Expr)
  | clearReferences (x : Expr)
  | onSeq (kind : SeqKind) (x : Expr) (action : SeqAction)
  | onMap (x : Expr) (action : MapAction)

/-- A step of a script: what it does, under which limits, and the register that
keeps the item which it gives. -/
structure Step where
  command : Command
  limits : Limits := .default
  keep : Option String := none

/-! ### Registers -/

/-- Named items, in the order of their names. -/
structure Registers where
  toList : List (String × Item) := []

namespace Registers

/-- The item in a register. -/
def find? (regs : Registers) (name : String) : Option Item := regs.toList.lookup name

/-- A list in the order of names, with an item under a name. -/
def putIn (name : String) (x : Item) : List (String × Item) → List (String × Item)
  | [] => [(name, x)]
  | entry :: rest =>
    if name = entry.1 then (name, x) :: rest
    else if name < entry.1 then (name, x) :: entry :: rest
    else entry :: putIn name x rest

/-- The registers with an item in one of them. -/
def put (regs : Registers) (name : String) (x : Item) : Registers := ⟨putIn name x regs.toList⟩

end Registers

/-! ### Making items -/

/-- Why a step failed: a fault, or a register that holds nothing. -/
inductive Failure where
  | fault (cause : Fault)
  | unbound (register : String)

/-- A computation that makes items in a heap. -/
abbrev Making := StateT Heap (Except Failure)

namespace Making

variable {α : Type}

/-- Takes the result of an operation over. -/
def lift : Except Fault α → Making α
  | .ok a => return a
  | .error cause => throw (.fault cause)

/-- A new sequence. -/
def seq (kind : SeqKind) (xs : Array Item) : Making Item := fun h =>
  let (r, h) := h.newSeq kind xs
  .ok (.seq r, h)

/-- A new map. -/
def map (es : Entries Item) : Making Item := fun h =>
  let (r, h) := h.newMap es
  .ok (.map r, h)

/-- A new host object. -/
def host (object : HostObject) : Making Item := fun h =>
  let (r, h) := h.newHost object
  .ok (.host r, h)

/-- A new container of the given items; a map has them under the integers from
zero upwards. -/
def container (kind : Container) (xs : Array Item) : Making Item :=
  match kind with
  | .seq kind => seq kind xs
  | .map => map (.numbered xs.toList)

end Making

mutual

/-- Makes the item of an expression. -/
def Expr.eval (regs : Registers) : Expr → Making Item
  | .register name =>
    match regs.find? name with
    | some x => return x
    | none => throw (.unbound name)
  | .prim p => return .prim p
  | .host object => Making.host object
  | .seq kind elements => do Making.seq kind (← Expr.evalAll regs elements #[])
  | .map entries => do Making.map (← Expr.evalEntries regs entries .empty)
  | .nest kinds depth leaf => do
    (List.range depth).foldlM (fun x level =>
      Making.container ((kinds[level % kinds.length]?).getD (.seq .array)) #[x])
      (← Expr.eval regs leaf)
  | .lattice kind width depth leaf => do
    (List.range depth).foldlM (fun x _ => Making.container kind (Array.replicate width x))
      (← Expr.eval regs leaf)
  | .range kind n =>
    Making.container kind ((Array.range n).map fun i : Nat => .prim (.integer i))

/-- Makes the items of expressions, one after the other, behind those already
made. -/
def Expr.evalAll (regs : Registers) : List Expr → Array Item → Making (Array Item)
  | [], xs => return xs
  | e :: rest, xs => do Expr.evalAll regs rest (xs.push (← Expr.eval regs e))

/-- Makes entries, one after the other; a key is made and checked before its
value. -/
def Expr.evalEntries (regs : Registers) :
    List (Expr × Expr) → Entries Item → Making (Entries Item)
  | [], es => return es
  | (key, value) :: rest, es => do
    let k ← Making.lift (← Expr.eval regs key).toKey
    let x ← Expr.eval regs value
    Expr.evalEntries regs rest (es.insert k x)

end

end StackItems
