/-
Why a document does not give limits.

A document that is not well-formed is refused as a whole.  In a well-formed one
a value can be of the wrong type, out of range, a name that is not known, or
given twice.  `DocumentFault.message?` puts these causes into words.
-/
import StackItems.Quoted

namespace StackItems

/-- What a document has where something else was expected. -/
inductive Found where
  | null
  | boolean (value : Bool)
  | integer (value : Int)
  /-- A floating-point number, as the document's format writes it. -/
  | float (text : String)
  | string (value : String)
  | sequence
  | map
  deriving DecidableEq

/-- What was found, in words. -/
def Found.text : Found → String
  | null => "null"
  | boolean value => "boolean `" ++ (if value then "true" else "false") ++ "`"
  | integer value => "integer `" ++ toString value ++ "`"
  | float text => "floating point `" ++ text ++ "`"
  | string value => "string " ++ quoted value
  | sequence => "sequence"
  | map => "map"

/-- The kinds of value in a configuration file, as messages name them. -/
inductive ValueName where
  | string
  | integer
  | float
  | boolean
  | datetime
  deriving DecidableEq

/-- A kind of value in words. -/
def ValueName.text : ValueName → String
  | string => "string"
  | integer => "integer"
  | float => "float"
  | boolean => "boolean"
  | datetime => "datetime"

/-- Why a document was refused. -/
inductive DocumentFault where
  /-- The document is not well-formed. -/
  | malformed
  | invalidType (found : Found) (expected : String)
  | invalidValue (found : Found) (expected : String)
  | repeatedField (name : String)
  | unknownName (name : String) (known : List String)
  /-- A name was expected as the only key of a table that has none. -/
  | emptyTable
  /-- A name was expected as the only key of a table that has several. -/
  | crowdedTable
  | neitherStringNorTable
  | nonemptyTable
  | nonemptySequence
  | noTable (found : ValueName)
  deriving DecidableEq

/-- The names that are known, in words. -/
def knownNames (known : List String) : String :=
  let quote (name : String) := "`" ++ name ++ "`"
  match known with
  | [] => "nothing"
  | [name] => quote name
  | [first, second] => quote first ++ " or " ++ quote second
  | names => "one of " ++ ", ".intercalate (names.map quote)

/-- A cause in words; a document that is not well-formed has none. -/
def DocumentFault.message? : DocumentFault → Option String
  | malformed => none
  | invalidType found expected => some ("invalid type: " ++ found.text ++ ", expected " ++ expected)
  | invalidValue found expected =>
    some ("invalid value: " ++ found.text ++ ", expected " ++ expected)
  | repeatedField name => some ("duplicate field `" ++ name ++ "`")
  | unknownName name known =>
    some ("unknown variant `" ++ name ++ "`, expected " ++ knownNames known)
  | emptyTable => some "wanted exactly 1 element, found 0 elements"
  | crowdedTable => some "wanted exactly 1 element, more than 1 element"
  | neitherStringNorTable => some "wanted string or table"
  | nonemptyTable => some "expected empty table"
  | nonemptySequence => some "expected empty array"
  | noTable found => some ("expected table, found " ++ found.text)

end StackItems
