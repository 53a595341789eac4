/-
The tokens of a JSON text.

* `JsonToken.ofText` — the tokens of a text, up to and including the first
  place that is not part of any;
* `JsonNumber.value?` — what a number is worth.

Design notes: a reader of tokens meets them in the order of the text and stops
at the first one that it cannot use, so a text is cut into tokens as far as
possible and the first failure is a token too.  Half of a surrogate pair and a
number beyond all bounds are part of a well-formed token; only a reader that
uses the token minds.
-/
namespace StackItems

/-- A number as it is written. -/
structure JsonNumber where
  negative : Bool
  /-- The digits before the point. -/
  whole : List Nat
  /-- The digits behind the point; without a point, none. -/
  fraction : List Nat
  exponent : Option Int
  deriving DecidableEq

/-- What a number is worth. -/
inductive JsonNumber.Value where
  | natural (n : Nat)
  | negative (n : Int)
  | float (x : Float)

namespace JsonNumber

/-- Appends digits to a machine word as long as the result is one, and gives the
digits that are left over. -/
def absorb : Nat → List Nat → Nat × List Nat
  | n, [] => (n, [])
  | n, d :: rest => if n * 10 + d < UInt64.size then absorb (n * 10 + d) rest else (n, d :: rest)

/-- A power of ten as a floating-point number. -/
def powerOfTen (e : Nat) : Float := Float.ofScientific 1 false e

/-- A number divided by a power of ten, in steps that a floating-point number can
hold. -/
def scaleDown (steps : Nat) (x : Float) (e : Nat) : Float :=
  match steps with
  | 0 => x / powerOfTen e
  | steps + 1 =>
    if e ≤ 308 then x / powerOfTen e else scaleDown steps (x / powerOfTen 308) (e - 308)

/-- `significand * 10 ^ exponent`, unless that is beyond all floating-point
numbers.  It is computed in floating-point arithmetic, and so may be off by a
unit in the last place. -/
def scaled? (significand : Nat) (exponent : Int) : Option Float :=
  let x := (UInt64.ofNat significand).toFloat
  if exponent < 0 then
    -- Three steps bring every significand down to zero.
    if -exponent < 308 * 3 then some (scaleDown 3 x (-exponent).toNat) else some 0
  else if significand = 0 then some 0
  else if 308 < exponent then none
  else
    let y := x * powerOfTen exponent.toNat
    if y.isInf then none else some y

/-- The size of the number as a floating-point number.  Whole digits that do not
fit into the significand only scale it; fraction digits that do not fit are
dropped. -/
def magnitude? (number : JsonNumber) : Option Float :=
  let (significand, leftWhole) := absorb 0 number.whole
  let (significand, leftFraction) := absorb significand number.fraction
  let point := (leftWhole.length : Int) - (number.fraction.length - leftFraction.length : Nat)
  match number.exponent with
  | none => scaled? significand point
  | some e =>
    if Int32.maxValue.toInt < e then if significand = 0 then some 0 else none
    else if e ≤ Int32.minValue.toInt then some 0
    else scaled? significand (point + e)

/-- What the number is worth, if it is not beyond all bounds. -/
def value? (number : JsonNumber) : Option Value :=
  let float := number.magnitude?.map fun x => Value.float (if number.negative then -x else x)
  let (significand, left) := absorb 0 number.whole
  if number.fraction ≠ [] ∨ number.exponent ≠ none ∨ left ≠ [] then float
  else if !number.negative then some (.natural significand)
  else if significand = 0 ∨ (-significand : Int) < Int64.minValue.toInt then float
  else some (.negative (-significand))

end JsonNumber

/-- A token.  The text of a string is missing where half of a surrogate pair
stands alone. -/
inductive JsonToken where
  | openBrace
  | closeBrace
  | openBracket
  | closeBracket
  | colon
  | comma
  | null
  | boolean (value : Bool)
  | number (value : JsonNumber)
  | string (text : Option String)
  /-- The rest of the text is not JSON. -/
  | malformed
  deriving DecidableEq

namespace JsonToken

/-- The characters between tokens. -/
def isBlank (c : Char) : Bool := c = ' ' || c = '\t' || c = '\n' || c = '\r'

/-- The value of a hexadecimal digit. -/
def hexValue? (c : Char) : Option Nat :=
  if '0' ≤ c ∧ c ≤ '9' then some (c.toNat - '0'.toNat)
  else if 'a' ≤ c ∧ c ≤ 'f' then some (c.toNat - 'a'.toNat + 10)
  else if 'A' ≤ c ∧ c ≤ 'F' then some (c.toNat - 'A'.toNat + 10)
  else none

/-- The value of hexadecimal digits. -/
def hexValues? (cs : List Char) : Option Nat :=
  cs.foldlM (fun n c => (hexValue? c).map (n * 16 + ·)) 0

/-- A piece of a string: a character, or a code unit that was written as a
number. -/
inductive Piece where
  | char (c : Char)
  | unit (n : Nat)

/-- The character of an escape of one letter. -/
def escaped? : Char → Option Char
  | '"' => some '"'
  | '\\' => some '\\'
  | '/' => some '/'
  | 'b' => some '\x08'
  | 'f' => some '\x0c'
  | 'n' => some '\n'
  | 'r' => some '\r'
  | 't' => some '\t'
  | _ => none

/-- The pieces of a string up to its closing quote, behind those already read,
which are given last first, and the rest of the text. -/
def pieces : List Char → List Piece → Option (List Piece × List Char)
  | '"' :: rest, done => some (done.reverse, rest)
  | '\\' :: 'u' :: a :: b :: c :: d :: rest, done =>
    match hexValues? [a, b, c, d] with
    | some n => pieces rest (.unit n :: done)
    | none => none
  | '\\' :: c :: rest, done =>
    match escaped? c with
    | some c => pieces rest (.char c :: done)
    | none => none
  | c :: rest, done => if c.toNat < 0x20 ∨ c = '\\' then none else pieces rest (.char c :: done)
  | [], _ => none

/-- The characters of pieces: two code units that form a surrogate pair are one
character, and half of a pair is none. -/
def assemble : List Piece → Option (List Char)
  | [] => some []
  | .char c :: rest => (assemble rest).map (c :: ·)
  | .unit n :: rest =>
    if n < 0xD800 ∨ 0xE000 ≤ n then (assemble rest).map (Char.ofNat n :: ·)
    else if 0xDC00 ≤ n then none
    else match rest with
      | .unit m :: rest =>
        if 0xDC00 ≤ m ∧ m < 0xE000 then
          (assemble rest).map (Char.ofNat (0x10000 + (n - 0xD800) * 0x400 + (m - 0xDC00)) :: ·)
        else none
      | _ => none

/-- The digits at the front of a text. -/
def digits (cs : List Char) : List Nat := (cs.takeWhile Char.isDigit).map (·.toNat - '0'.toNat)

/-- A number from its digits. -/
def ofDigits (ds : List Nat) : Nat := ds.foldl (fun n d => n * 10 + d) 0

/-- The point and digits at the front of a text, if there is a point. -/
def fraction : List Char → Option (List Nat × List Char)
  | '.' :: rest =>
    match digits rest with
    | [] => none
    | ds => some (ds, rest.drop ds.length)
  | rest => some ([], rest)

/-- The exponent at the front of a text, if there is one. -/
def exponent (cs : List Char) : Option (Option Int × List Char) :=
  let unsigned (sign : Int) (rest : List Char) :=
    match digits rest with
    | [] => none
    | ds => some (some (sign * ofDigits ds), rest.drop ds.length)
  match cs with
  | e :: rest =>
    if e = 'e' ∨ e = 'E' then
      match rest with
      | '+' :: rest => unsigned 1 rest
      | '-' :: rest => unsigned (-1) rest
      | rest => unsigned 1 rest
    else some (none, cs)
  | [] => some (none, [])

/-- The number at the front of a text without a sign.  A zero stands alone before
the point. -/
def unsignedNumber (negative : Bool) (cs : List Char) : Option (JsonToken × List Char) :=
  match digits cs with
  | [] => none
  | 0 :: _ :: _ => none
  | whole => do
    let (fraction, rest) ← fraction (cs.drop whole.length)
    let (exponent, rest) ← exponent rest
    return (.number ⟨negative, whole, fraction, exponent⟩, rest)

/-- The token at the front of a text, and the rest of the text. -/
def first? : List Char → Option (JsonToken × List Char)
  | '{' :: rest => some (.openBrace, rest)
  | '}' :: rest => some (.closeBrace, rest)
  | '[' :: rest => some (.openBracket, rest)
  | ']' :: rest => some (.closeBracket, rest)
  | ':' :: rest => some (.colon, rest)
  | ',' :: rest => some (.comma, rest)
  | 'n' :: 'u' :: 'l' :: 'l' :: rest => some (.null, rest)
  | 't' :: 'r' :: 'u' :: 'e' :: rest => some (.boolean true, rest)
  | 'f' :: 'a' :: 'l' :: 's' :: 'e' :: rest => some (.boolean false, rest)
  | '"' :: rest =>
    match pieces rest [] with
    | some (ps, rest) => some (.string ((assemble ps).map String.ofList), rest)
    | none => none
  | '-' :: rest => unsignedNumber true rest
  | rest => unsignedNumber false rest

/-- The tokens at the front of a text, `n` at most. -/
def firstOf : Nat → List Char → List JsonToken
  | 0, _ => []
  | n + 1, cs =>
    match cs.dropWhile isBlank with
    | [] => []
    | cs =>
      match first? cs with
      | some (token, rest) => token :: firstOf n rest
      | none => [.malformed]

/-- The tokens of a text.  Each takes at least one character. -/
def ofText (text : String) : List JsonToken := firstOf text.toList.length text.toList

end JsonToken

end StackItems
