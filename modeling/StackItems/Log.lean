/-
What walks over items put on record.

A walk that stops at a limit says so at debug level, and a comparison that is
settled by identity says so at trace level.  `LogRecord.line` is the only place
where a record is put into words.  A `Report` is the result of an operation
together with its records, which are there whether it succeeds or not.
-/
import StackItems.Fault

namespace StackItems

/-- The walks that put something on record. -/
inductive Walk where
  | comparison
  | clone
  | serialization
  deriving DecidableEq

namespace Walk

/-- The name of a walk in records. -/
def name : Walk → String
  | comparison => "comparison"
  | clone => "struct clone"
  | serialization => "serialization"

/-- What a walk calls the items that it visits. -/
def units : Walk → String
  | comparison => "elements"
  | clone => "children"
  | serialization => "items"

end Walk

/-- How important a record is. -/
inductive LogLevel where
  | debug
  | trace
  deriving DecidableEq

/-- The name of a level. -/
def LogLevel.name : LogLevel → String
  | debug => "DEBUG"
  | trace => "TRACE"

/-- One record. -/
inductive LogRecord where
  /-- A walk stopped before a container at this depth. -/
  | abortedAt (walk : Walk) (depth : Nat)
  /-- A walk stopped with its budget of visits used up. -/
  | abortedAfter (walk : Walk) (limit : UInt64)
  /-- Two handles of the same storage were met at this depth. -/
  | sameStorage (kind : Kind) (depth : Nat)
  /-- A comparison failed and its items were taken as different. -/
  | takenAsDifferent (fault : Fault)
  deriving DecidableEq

namespace LogRecord

/-- The level of a record. -/
def level : LogRecord → LogLevel
  | sameStorage .. => .trace
  | _ => .debug

/-- A kind of container as records name it. -/
def containerName : Kind → String
  | .struct => "struct"
  | .map => "map"
  | kind => kind.name

/-- A record in words. -/
def text : LogRecord → String
  | abortedAt walk depth => walk.name ++ " aborted at depth " ++ toString depth
  | abortedAfter walk limit =>
    walk.name ++ " aborted after " ++ toString limit ++ " " ++ walk.units
  | sameStorage kind depth =>
    containerName kind ++ " identity shortcut at depth " ++ toString depth
  | takenAsDifferent fault => "equality treated as false: " ++ fault.message

/-- A record as a line. -/
def line (r : LogRecord) : String := r.level.name ++ " " ++ r.text

end LogRecord

/-- The result of an operation and what it put on record. -/
structure Report (α : Type) where
  result : Except Fault α
  log : Array LogRecord := #[]

namespace Report

variable {α β : Type}

/-- The report of an operation that puts nothing on record. -/
def quiet (result : Except Fault α) : Report α := ⟨result, #[]⟩

/-- A report with something done to what it gives. -/
def map (f : α → β) (report : Report α) : Report β := ⟨report.result.map f, report.log⟩

end Report

end StackItems
