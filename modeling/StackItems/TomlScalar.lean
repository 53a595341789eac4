/-
Scalars of a TOML document.

Numbers, truth values and dates are words: runs of letters, digits and a few
marks that nothing else can follow directly.  A word as a whole is one of them
or none.

* `TomlScalar.ofWord?` — the value of a word;
* `TomlScalar.basic?`, `literal?` and their forms over several lines — strings.
-/
import StackItems.TomlValue

namespace StackItems.TomlScalar

/-! ### Numbers -/

/-- Whether a character can be part of a word. -/
def isWordChar (c : Char) : Bool :=
  c.isAlphanum || c = '+' || c = '-' || c = '_' || c = '.' || c = ':'

/-- The digits of a text in which single underscores may separate digits. -/
def ungroup? (isDigit : Char → Bool) : List Char → Option (List Char)
  | [] => none
  | [c] => if isDigit c then some [c] else none
  | c :: '_' :: rest => if isDigit c then (ungroup? isDigit rest).map (c :: ·) else none
  | c :: rest => if isDigit c then (ungroup? isDigit rest).map (c :: ·) else none

/-- The value of a digit in any base up to sixteen. -/
def digitValue (c : Char) : Nat :=
  if c.isDigit then c.toNat - '0'.toNat
  else if c.isLower then c.toNat - 'a'.toNat + 10
  else c.toNat - 'A'.toNat + 10

/-- A number from its digits. -/
def ofDigits (base : Nat) (ds : List Char) : Nat :=
  ds.foldl (fun n c => n * base + digitValue c) 0

/-- The sign at the front of a text: whether it is a minus, and the rest. -/
def sign : List Char → Bool × List Char
  | '+' :: rest => (false, rest)
  | '-' :: rest => (true, rest)
  | rest => (false, rest)

/-- The digits of a decimal number without needless zeros at its front. -/
def decimalDigits? (cs : List Char) : Option (List Char) :=
  match ungroup? Char.isDigit cs with
  | some ('0' :: _ :: _) => none
  | ds => ds

/-- An integer, if it fits into 64 bits. -/
def bounded? (n : Int) : Option Int :=
  if Int64.minValue.toInt ≤ n ∧ n ≤ Int64.maxValue.toInt then some n else none

/-- The integer that a word is. -/
def integer? (word : List Char) : Option Int :=
  match word with
  | '0' :: 'x' :: ds =>
    (ungroup? (fun c => c.isDigit || ('a' ≤ c && c ≤ 'f') || ('A' ≤ c && c ≤ 'F')) ds).bind
      fun ds => bounded? (ofDigits 16 ds)
  | '0' :: 'o' :: ds =>
    (ungroup? (fun c => '0' ≤ c && c ≤ '7') ds).bind fun ds => bounded? (ofDigits 8 ds)
  | '0' :: 'b' :: ds =>
    (ungroup? (fun c => c = '0' || c = '1') ds).bind fun ds => bounded? (ofDigits 2 ds)
  | word =>
    let (negative, ds) := sign word
    (decimalDigits? ds).bind fun ds =>
      bounded? (if negative then -(ofDigits 10 ds : Int) else ofDigits 10 ds)

/-- `digits * 10 ^ exponent` as the nearest floating-point number. -/
def nearest (digits : Nat) (exponent : Int) : Float :=
  let point := (Nat.toDigits 10 digits).length + exponent
  if digits = 0 ∨ point < -400 then 0
  else if 400 < point then 1 / 0
  else if exponent < 0 then Float.ofScientific digits true (-exponent).toNat
  else Float.ofScientific digits false exponent.toNat

/-- The exponent behind its mark: a sign and digits. -/
def exponent? (cs : List Char) : Option Int :=
  let (negative, ds) := sign cs
  (ungroup? Char.isDigit ds).map fun ds =>
    if negative then -(ofDigits 10 ds : Int) else ofDigits 10 ds

/-- The size of the floating-point number that a word without its sign is. -/
def magnitude? (word : List Char) : Option Float :=
  let isMark (c : Char) : Bool := c = 'e' || c = 'E'
  let mantissa := word.takeWhile (!isMark ·)
  let whole := mantissa.takeWhile (· != '.')
  let behind := word.drop mantissa.length
  do
    let exponent ← match behind with
      | [] => some 0
      | _ :: cs => exponent? cs
    let wholeDigits ← decimalDigits? whole
    match mantissa.drop whole.length, behind with
    | [], [] => none
    | [], _ => some (nearest (ofDigits 10 wholeDigits) exponent)
    | _ :: fraction, _ => do
      let ds ← ungroup? Char.isDigit fraction
      some (nearest (ofDigits 10 (wholeDigits ++ ds)) (exponent - ds.length))

/-- The floating-point number that a word is.  Only infinity may be written for
what is too large. -/
def float? (word : List Char) : Option Float :=
  let (negative, rest) := sign word
  let signed (x : Float) := if negative then -x else x
  if rest = "inf".toList then some (signed (1 / 0))
  else if rest = "nan".toList then some (signed (0 / 0))
  else (magnitude? rest).bind fun x => if x.isInf ∧ !negative then none else some (signed x)

/-! ### Dates and times -/

/-- A number of two digits at the front of a text, if it is in a range. -/
def twoDigits? (low high : Nat) : List Char → Option (Nat × List Char)
  | a :: b :: rest =>
    let n := digitValue a * 10 + digitValue b
    if a.isDigit ∧ b.isDigit ∧ low ≤ n ∧ n ≤ high then some (n, rest) else none
  | _ => none

/-- A mark at the front of a text. -/
def mark? (c : Char) : List Char → Option (List Char)
  | d :: rest => if d = c then some rest else none
  | [] => none

/-- The number of days of a month. -/
def daysOf (year month : Nat) : Nat :=
  if month = 2 then
    if year % 4 = 0 ∧ (year % 100 ≠ 0 ∨ year % 400 = 0) then 29 else 28
  else if month = 4 ∨ month = 6 ∨ month = 9 ∨ month = 11 then 30
  else 31

/-- What follows a date at the front of a text. -/
def date? (cs : List Char) : Option (List Char) := do
  let (century, cs) ← twoDigits? 0 99 cs
  let (year, cs) ← twoDigits? 0 99 cs
  let (month, cs) ← twoDigits? 1 12 (← mark? '-' cs)
  let (day, cs) ← twoDigits? 1 31 (← mark? '-' cs)
  if day ≤ daysOf (century * 100 + year) month then some cs else none

/-- What follows a time at the front of a text. -/
def time? (cs : List Char) : Option (List Char) := do
  let (_, cs) ← twoDigits? 0 23 cs
  let (_, cs) ← twoDigits? 0 59 (← mark? ':' cs)
  let (_, cs) ← twoDigits? 0 60 (← mark? ':' cs)
  match cs with
  | '.' :: rest =>
    if (rest.takeWhile Char.isDigit).isEmpty then none else some (rest.dropWhile Char.isDigit)
  | cs => some cs

/-- Whether a text is a distance from universal time, or nothing. -/
def isOffset (cs : List Char) : Bool :=
  match cs with
  | [] | ['Z'] | ['z'] => true
  | c :: rest =>
    (c = '+' || c = '-') && ((do
      let (_, rest) ← twoDigits? 0 23 rest
      let (_, rest) ← twoDigits? 0 59 (← mark? ':' rest)
      return rest) == some [])

/-- Whether a text is a time and perhaps a distance from universal time. -/
def isTimeOfDay (cs : List Char) : Bool :=
  match time? cs with
  | some rest => isOffset rest
  | none => false

/-- Whether a word is a date without a time, so that a blank and a time may
follow it. -/
def isDate (word : List Char) : Bool := date? word == some []

/-- Whether a word is a date, a time or both. -/
def isDatetime (word : List Char) : Bool :=
  match date? word with
  | some [] => true
  | some (c :: rest) => (c = 'T' || c = 't') && isTimeOfDay rest
  | none => time? word == some []

/-! ### Words -/

/-- The value of a word. -/
def ofWord? (word : List Char) : Option TomlValue :=
  if word = "true".toList then some (.boolean true)
  else if word = "false".toList then some (.boolean false)
  else if isDatetime word then some .datetime
  else
    match float? word, integer? word with
    | some x, _ => some (.float x)
    | none, some n => some (.integer n)
    | none, none => none

/-! ### Strings -/

/-- Whether a character may stand in a line of a document. -/
def isInLine (c : Char) : Bool := c = '\t' || (0x20 ≤ c.toNat && c.toNat != 0x7F)

/-- The character with a code point that is written in hexadecimal. -/
def codePoint? (cs : List Char) : Option Char :=
  if cs.all fun c => c.isDigit || ('a' ≤ c && c ≤ 'f') || ('A' ≤ c && c ≤ 'F') then
    let n := ofDigits 16 cs
    if n.isValidChar then some (Char.ofNat n) else none
  else none

/-- The character of an escape of one letter. -/
def escaped? : Char → Option Char
  | 'b' => some '\x08'
  | 't' => some '\t'
  | 'n' => some '\n'
  | 'f' => some '\x0c'
  | 'r' => some '\r'
  | '"' => some '"'
  | '\\' => some '\\'
  | _ => none

/-- A string in double quotes up to its closing quote, behind the characters
already read, which are given last first, and the rest of the text. -/
def basic? : List Char → List Char → Option (String × List Char)
  | '"' :: rest, done => some (String.ofList done.reverse, rest)
  | '\\' :: 'u' :: a :: b :: c :: d :: rest, done =>
    match codePoint? [a, b, c, d] with
    | some x => basic? rest (x :: done)
    | none => none
  | '\\' :: 'U' :: a :: b :: c :: d :: e :: f :: g :: h :: rest, done =>
    match codePoint? [a, b, c, d, e, f, g, h] with
    | some x => basic? rest (x :: done)
    | none => none
  | '\\' :: c :: rest, done =>
    match escaped? c with
    | some x => basic? rest (x :: done)
    | none => none
  | c :: rest, done => if isInLine c ∧ c ≠ '\\' then basic? rest (c :: done) else none
  | [], _ => none

/-- A string in single quotes, likewise. -/
def literal? : List Char → List Char → Option (String × List Char)
  | '\'' :: rest, done => some (String.ofList done.reverse, rest)
  | c :: rest, done => if isInLine c then literal? rest (c :: done) else none
  | [], _ => none

/-- Where a string over several lines stands: in its text, behind a backslash
that ends a line, or in the blanks and line ends behind such a backslash. -/
inductive LineMode where
  | text
  | ending
  | skipping

/-- A string over several lines in triple double quotes, likewise.  One or two
quotes may stand before the closing ones. -/
def basicLines? : LineMode → List Char → List Char → Option (String × List Char)
  | .ending, ' ' :: rest, done => basicLines? .ending rest done
  | .ending, '\t' :: rest, done => basicLines? .ending rest done
  | .ending, '\n' :: rest, done => basicLines? .skipping rest done
  | .ending, '\r' :: '\n' :: rest, done => basicLines? .skipping rest done
  | .ending, _, _ => none
  | .skipping, ' ' :: rest, done => basicLines? .skipping rest done
  | .skipping, '\t' :: rest, done => basicLines? .skipping rest done
  | .skipping, '\n' :: rest, done => basicLines? .skipping rest done
  | .skipping, '\r' :: '\n' :: rest, done => basicLines? .skipping rest done
  | _, '"' :: '"' :: '"' :: '"' :: '"' :: '"' :: _, _ => none
  | _, '"' :: '"' :: '"' :: '"' :: '"' :: rest, done =>
    some (String.ofList ('"' :: '"' :: done).reverse, rest)
  | _, '"' :: '"' :: '"' :: '"' :: rest, done => some (String.ofList ('"' :: done).reverse, rest)
  | _, '"' :: '"' :: '"' :: rest, done => some (String.ofList done.reverse, rest)
  | _, '\r' :: '\n' :: rest, done => basicLines? .text rest ('\n' :: done)
  | _, '\n' :: rest, done => basicLines? .text rest ('\n' :: done)
  | _, '\\' :: 'u' :: a :: b :: c :: d :: rest, done =>
    match codePoint? [a, b, c, d] with
    | some x => basicLines? .text rest (x :: done)
    | none => none
  | _, '\\' :: 'U' :: a :: b :: c :: d :: e :: f :: g :: h :: rest, done =>
    match codePoint? [a, b, c, d, e, f, g, h] with
    | some x => basicLines? .text rest (x :: done)
    | none => none
  | _, '\\' :: ' ' :: rest, done => basicLines? .ending rest done
  | _, '\\' :: '\t' :: rest, done => basicLines? .ending rest done
  | _, '\\' :: '\n' :: rest, done => basicLines? .skipping rest done
  | _, '\\' :: '\r' :: '\n' :: rest, done => basicLines? .skipping rest done
  | _, '\\' :: c :: rest, done =>
    match escaped? c with
    | some x => basicLines? .text rest (x :: done)
    | none => none
  | _, c :: rest, done => if isInLine c ∧ c ≠ '\\' then basicLines? .text rest (c :: done) else none
  | _, [], _ => none

/-- A string over several lines in triple single quotes, likewise. -/
def literalLines? : List Char → List Char → Option (String × List Char)
  | '\'' :: '\'' :: '\'' :: '\'' :: '\'' :: '\'' :: _, _ => none
  | '\'' :: '\'' :: '\'' :: '\'' :: '\'' :: rest, done =>
    some (String.ofList ('\'' :: '\'' :: done).reverse, rest)
  | '\'' :: '\'' :: '\'' :: '\'' :: rest, done => some (String.ofList ('\'' :: done).reverse, rest)
  | '\'' :: '\'' :: '\'' :: rest, done => some (String.ofList done.reverse, rest)
  | '\r' :: '\n' :: rest, done => literalLines? rest ('\n' :: done)
  | '\n' :: rest, done => literalLines? rest ('\n' :: done)
  | c :: rest, done => if isInLine c then literalLines? rest (c :: done) else none
  | [], _ => none

/-- The text behind a line end that directly follows opening quotes. -/
def dropLineEnd : List Char → List Char
  | '\n' :: rest => rest
  | '\r' :: '\n' :: rest => rest
  | rest => rest

/-- The string at the front of a text that opens with a quote. -/
def string? : List Char → Option (String × List Char)
  | '"' :: '"' :: '"' :: rest => basicLines? .text (dropLineEnd rest) []
  | '"' :: rest => basic? rest []
  | '\'' :: '\'' :: '\'' :: rest => literalLines? (dropLineEnd rest) []
  | '\'' :: rest => literal? rest []
  | _ => none

end StackItems.TomlScalar
