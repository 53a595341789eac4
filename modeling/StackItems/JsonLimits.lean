/-
Limits and kinds in JSON.

Limits are an object of fields or a list of their values in order.  A name is a
string, or an object with the name as its only key and null under it.  A reader
takes the tokens in the order of the text, so the first thing that is wrong
decides what is reported; what comes behind it is not looked at.

* `Limits.ofJson` — limits from a text;
* `Kind.ofJson` — a kind from a text;
* `Limits.toJson` — limits as a text.
-/
import StackItems.JsonToken
import StackItems.Kind
import StackItems.Settings
import StackItems.ShortestDecimal

namespace StackItems

/-- Reads from the front of a list of tokens. -/
abbrev JsonReader (α : Type) := List JsonToken → Except DocumentFault (α × List JsonToken)

namespace JsonReader

/-! ### Skipping a value -/

/-- The containers around a place in a text. -/
inductive Nesting where
  | object
  | list
  deriving DecidableEq

/-- What may come next while a value is skipped. -/
inductive Next where
  | value
  /-- A value or the end of an empty list. -/
  | firstValue
  | key
  /-- A key or the end of an empty object. -/
  | firstKey
  | colon
  /-- A comma or the end of the container. -/
  | separator

/-- A place in a value that is being skipped: inside some containers, the
innermost first, or behind the value. -/
inductive Place where
  | inside (nesting : List Nesting) (next : Next)
  | behind

/-- The place behind a complete value inside some containers. -/
def Place.afterValue : List Nesting → Place
  | [] => behind
  | nesting => inside nesting .separator

/-- The place behind the first token of a value. -/
def Place.afterFirst? (nesting : List Nesting) : JsonToken → Option Place
  | .openBracket => some (inside (.list :: nesting) .firstValue)
  | .openBrace => some (inside (.object :: nesting) .firstKey)
  | .null | .boolean _ | .number _ | .string _ => some (afterValue nesting)
  | _ => none

/-- The place behind a token, if the token may stand there. -/
def Place.after? : List Nesting → Next → JsonToken → Option Place
  | .list :: outer, .firstValue, .closeBracket => some (afterValue outer)
  | .object :: outer, .firstKey, .closeBrace => some (afterValue outer)
  | .list :: outer, .separator, .closeBracket => some (afterValue outer)
  | .object :: outer, .separator, .closeBrace => some (afterValue outer)
  | .list :: outer, .separator, .comma => some (inside (.list :: outer) .value)
  | .object :: outer, .separator, .comma => some (inside (.object :: outer) .key)
  | nesting, .firstKey, .string _ => some (inside nesting .colon)
  | nesting, .key, .string _ => some (inside nesting .colon)
  | nesting, .colon, .colon => some (inside nesting .value)
  | nesting, .firstValue, token => afterFirst? nesting token
  | nesting, .value, token => afterFirst? nesting token
  | _, _, _ => none

/-- The tokens behind the value in which a place lies. -/
def skip (nesting : List Nesting) (next : Next) : List JsonToken → Option (List JsonToken)
  | [] => none
  | token :: rest =>
    match Place.after? nesting next token with
    | none => none
    | some .behind => some rest
    | some (.inside nesting next) => skip nesting next rest

/-! ### Reading values -/

/-- What a value that opens with this token is, for a message. -/
def found : JsonToken → Except DocumentFault Found
  | .null => .ok .null
  | .boolean b => .ok (.boolean b)
  | .number n =>
    match n.value? with
    | some (.natural n) => .ok (.integer n)
    | some (.negative n) => .ok (.integer n)
    | some (.float x) => .ok (.float (FloatStyle.compact.text x))
    | none => .error .malformed
  | .string (some s) => .ok (.string s)
  | .openBracket => .ok .sequence
  | .openBrace => .ok .map
  | _ => .error .malformed

/-- Refuses a value that opens with this token. -/
def refuse {α : Type} (token : JsonToken) (expected : String) : Except DocumentFault α :=
  match found token with
  | .ok f => .error (.invalidType f expected)
  | .error fault => .error fault

/-- Reads a machine word. -/
def word : JsonReader UInt64
  | [] => .error .malformed
  | .number n :: rest =>
    match n.value? with
    | some (.natural n) => .ok (UInt64.ofNat n, rest)
    | some (.negative n) => .error (.invalidValue (.integer n) "usize")
    | _ => refuse (.number n) "usize"
  | token :: _ => refuse token "usize"

/-- Reads one of several names. -/
def name {α : Type} (ofName? : String → Option α) (known : List String) : JsonReader α
  | .string (some s) :: rest =>
    match ofName? s with
    | some a => .ok (a, rest)
    | none => .error (.unknownName s known)
  | .openBrace :: .string (some s) :: rest =>
    match ofName? s with
    | none => .error (.unknownName s known)
    | some a =>
      match rest with
      | .colon :: .null :: .closeBrace :: rest => .ok (a, rest)
      | .colon :: .null :: _ => .error .malformed
      | .colon :: token :: _ => refuse token "unit"
      | _ => .error .malformed
  | _ => .error .malformed

/-- Reads the value of a field. -/
def setting : Field → JsonReader Setting
  | .count field, tokens => do
    let (n, rest) ← word tokens
    return (.count field n, rest)
  | .removalMode, tokens => do
    let (mode, rest) ← name RemovalMode.ofName? RemovalMode.names tokens
    return (.removalMode mode, rest)

/-- Reads the values of fields in order, up to the end of a list.  A list that
ends early leaves the other fields out. -/
def values : List Field → List Setting → JsonReader (List Setting)
  | _, done, .closeBracket :: rest => .ok (done.reverse, rest)
  | [], _, _ => .error .malformed
  | field :: fields, done, tokens => do
    let tokens ← match done, tokens with
      | [], tokens => pure tokens
      | _, .comma :: tokens => pure tokens
      | _, _ => .error .malformed
    let (s, rest) ← setting field tokens
    values fields (s :: done) rest

/-- Reads the members of an object, at most `n`, up to its end.  Members with
other names are skipped. -/
def members : Nat → Bool → List Setting → JsonReader (List Setting)
  | 0, _, _, _ => .error .malformed
  | n + 1, first, done, tokens => do
    if let .closeBrace :: rest := tokens then return (done.reverse, rest)
    let tokens ← match first, tokens with
      | true, tokens => pure tokens
      | false, .comma :: tokens => pure tokens
      | false, _ => .error .malformed
    match tokens with
    | .string (some key) :: rest =>
      match Field.ofName? key with
      | some field =>
        if done.any (·.field == field) then .error (.repeatedField key)
        else
          match rest with
          | .colon :: rest =>
            let (s, rest) ← setting field rest
            members n false (s :: done) rest
          | _ => .error .malformed
      | none =>
        match skip [] .colon rest with
        | some rest => members n false done rest
        | none => .error .malformed
    | _ => .error .malformed

/-- Reads the settings of limits. -/
def settings : JsonReader (List Setting)
  | [] => .error .malformed
  | .openBracket :: rest => values Field.all [] rest
  | .openBrace :: rest => members rest.length true [] rest
  | token :: _ => refuse token "struct VmLimits"

/-- Reads a text as a whole. -/
def whole {α : Type} (read : JsonReader α) (text : String) : Except DocumentFault α := do
  match ← read (JsonToken.ofText text) with
  | (a, []) => return a
  | _ => .error .malformed

end JsonReader

/-- The settings that a text gives. -/
def Setting.ofJson (text : String) : Except DocumentFault (List Setting) :=
  JsonReader.settings.whole text

/-- The limits that a text gives. -/
def Limits.ofJson (text : String) : Except DocumentFault Limits :=
  (Setting.ofJson text).map Limits.ofSettings

/-- The kind that a text names. -/
def Kind.ofJson (text : String) : Except DocumentFault Kind :=
  (JsonReader.name Kind.ofName? (Kind.all.map Kind.name)).whole text

/-! ### Writing -/

/-- A name that needs no escapes, in quotes. -/
def jsonName (name : String) : String := "\"" ++ name ++ "\""

/-- The kind as a text. -/
def Kind.toJson (kind : Kind) : String := jsonName kind.name

/-- A setting as a member of an object. -/
def Setting.toJson : Setting → String
  | .count field n => jsonName field.name ++ ":" ++ toString n.toNat
  | .removalMode mode => jsonName Field.removalMode.name ++ ":" ++ jsonName mode.name

/-- Limits as a text. -/
def Limits.toJson (limits : Limits) : String :=
  "\x7b" ++ ",".intercalate (Field.all.map fun field => (limits.setting field).toJson) ++ "\x7d"

end StackItems
