/-
Values and tables of a TOML document.

A table is a list of keys and values in the order in which the document names
them.  A table can come about in four ways, and these decide how it may be added
to later.

* `Members.putDotted?` — a value under a dotted key;
* `Members.underHeader?` — a change to the table above a header.

Design notes: the rules for headers let a table be opened once, and let a table
that so far only stands above others be opened later; the rules for dotted keys
let only tables be extended that dotted keys have made.
-/
namespace StackItems

/-- How a table came about. -/
inductive TableOrigin where
  /-- Written between braces. -/
  | braces
  /-- Opened by a header. -/
  | header
  /-- Named above the last key of a header only. -/
  | implied
  /-- Named above the last key of a dotted key. -/
  | dotted
  deriving DecidableEq

/-- A value. -/
inductive TomlValue where
  | string (text : String)
  | integer (n : Int)
  | float (x : Float)
  | boolean (b : Bool)
  | datetime
  | array (elements : List TomlValue)
  | table (origin : TableOrigin) (members : List (String × TomlValue))
  /-- The tables that headers in double brackets have opened under one key. -/
  | tables (elements : List (List (String × TomlValue)))

/-- The parts of a dotted key, and the value under it. -/
abbrev TomlEntry := List String × TomlValue

/-- Keys and values of a table. -/
abbrev Members := List (String × TomlValue)

namespace Members

/-- The members with another value under a key. -/
def replace (key : String) (value : TomlValue) : Members → Members :=
  List.map fun member => if member.1 == key then (key, value) else member

/-- The members without a key. -/
def erase (key : String) : Members → Members := List.filter (·.1 != key)

/-- A list with its last element changed. -/
def changeLast? {α : Type} (change : α → Option α) (xs : List α) : Option (List α) :=
  match xs.reverse with
  | [] => none
  | last :: front => (change last).map fun last => (last :: front).reverse

/-- The members with a new value under a dotted key, whose last part is `key`.
The parts before it lead through tables that may be extended; a missing one is
made.  `fresh` says whether a value may be put into the table itself. -/
def putDotted? (fresh : Bool) (path : List String) (key : String) (value : TomlValue)
    (members : Members) : Option Members :=
  match path with
  | [] =>
    if fresh ∧ (members.lookup key).isNone then some (members ++ [(key, value)]) else none
  | part :: path =>
    match members.lookup part with
    | none => do
      return members ++ [(part, .table .dotted (← putDotted? true path key value []))]
    | some (.table .dotted inner) => do
      return members.replace part (.table .dotted (← putDotted? true path key value inner))
    | some (.table .implied inner) => do
      return members.replace part (.table .implied (← putDotted? false path key value inner))
    | some (.tables elements) => do
      return members.replace part
        (.tables (← changeLast? (putDotted? false path key value) elements))
    | _ => none

/-- The members in which the table above the last part of a header is changed.
The parts before it lead through tables and to the last of several tables; a
missing one is implied. -/
def underHeader? (change : Members → Option Members) (path : List String) (members : Members) :
    Option Members :=
  match path with
  | [] => change members
  | part :: path =>
    match members.lookup part with
    | none => do return members ++ [(part, .table .implied (← underHeader? change path []))]
    | some (.table .braces _) => none
    | some (.table origin inner) => do
      return members.replace part (.table origin (← underHeader? change path inner))
    | some (.tables elements) => do
      return members.replace part (.tables (← changeLast? (underHeader? change path) elements))
    | some _ => none

/-- The members with the values of entries, one after the other. -/
def putAll? (entries : List TomlEntry) (members : Members) : Option Members :=
  entries.foldlM (fun members (path, value) =>
    match path.reverse with
    | [] => none
    | key :: front => putDotted? true front.reverse key value members) members

end Members

/-- A header. -/
inductive TomlHeader where
  | table (path : List String)
  /-- In double brackets: one more table under the key. -/
  | element (path : List String)

/-- A header and the entries below it. -/
structure TomlSection where
  header : TomlHeader
  entries : List TomlEntry

/-- The members of a document with one more section. -/
def TomlSection.addTo? (s : TomlSection) (members : Members) : Option Members :=
  match s.header with
  | .table path =>
    match path.reverse with
    | [] => none
    | key :: front =>
      members.underHeader? (fun parent =>
        match parent.lookup key with
        | none => do return parent ++ [(key, .table .header (← Members.putAll? s.entries []))]
        | some (.table .implied inner) => do
          -- A table that was implied so far moves to the place where it is opened.
          return parent.erase key ++ [(key, .table .header (← Members.putAll? s.entries inner))]
        | some _ => none) front.reverse
  | .element path =>
    match path.reverse with
    | [] => none
    | key :: front =>
      members.underHeader? (fun parent =>
        match parent.lookup key with
        | none => do return parent ++ [(key, .tables [← Members.putAll? s.entries []])]
        | some (.tables elements) => do
          return parent.replace key (.tables (elements ++ [← Members.putAll? s.entries []]))
        | some _ => none) front.reverse

end StackItems
