/-
The text of a TOML document.

A document is a sequence of lines: entries, headers, comments and blanks.  The
entries up to a header belong to the table that the header before them opens.

* `TomlText.value?` — the value at the front of a text;
* `TomlText.lines?` — the lines of a text;
* `Members.ofToml?` — the members of a document, if its text is well-formed.

Design notes: lists and tables inside values are nested fewer than eighty times
and dotted keys have fewer than eighty parts, so nesting is counted down.  Loops
over elements and lines take at least one character each time round, and are
given the length of the text to start with.
-/
import StackItems.TomlScalar

namespace StackItems.TomlText

/-- The greatest depth of nested values, and the greatest number of parts of a
dotted key. -/
def depth : Nat := 79

/-- The text behind its leading blanks. -/
def skipBlanks (cs : List Char) : List Char := cs.dropWhile fun c => c = ' ' || c = '\t'

/-- The text behind the end of a line, which the end of the text also is.  A
comment may precede it. -/
def endLine? (cs : List Char) : Option (List Char) :=
  let lineEnd? : List Char → Option (List Char)
    | [] => some []
    | '\n' :: rest => some rest
    | '\r' :: '\n' :: rest => some rest
    | _ => none
  match skipBlanks cs with
  | '#' :: rest => lineEnd? (rest.dropWhile TomlScalar.isInLine)
  | rest => lineEnd? rest

/-- The text behind blanks, line ends and comments; a comment needs its line
end. -/
def skipLines? (inComment : Bool) : List Char → Option (List Char)
  | '\n' :: rest => skipLines? false rest
  | '\r' :: '\n' :: rest => skipLines? false rest
  | c :: rest =>
    if inComment then if TomlScalar.isInLine c then skipLines? true rest else none
    else if c = ' ' ∨ c = '\t' then skipLines? false rest
    else if c = '#' then skipLines? true rest
    else some (c :: rest)
  | [] => if inComment then none else some []

/-! ### Keys -/

/-- Whether a character can be part of a key without quotes. -/
def isBare (c : Char) : Bool := c.isAlphanum || c = '-' || c = '_'

/-- One part of a key. -/
def keyPart? (cs : List Char) : Option (String × List Char) :=
  match cs with
  | '"' :: rest => TomlScalar.basic? rest []
  | '\'' :: rest => TomlScalar.literal? rest []
  | cs =>
    match cs.takeWhile isBare with
    | [] => none
    | part => some (String.ofList part, cs.drop part.length)

/-- The parts of a key, at most so many, with blanks around them. -/
def key? : Nat → List Char → Option (List String × List Char)
  | 0, _ => none
  | n + 1, cs => do
    let (part, rest) ← keyPart? (skipBlanks cs)
    match skipBlanks rest with
    | '.' :: rest =>
      let (parts, rest) ← key? n rest
      return (part :: parts, rest)
    | rest => return ([part], rest)

/-! ### Values -/

/-- A reader of values. -/
abbrev ValueReader := List Char → Option (TomlValue × List Char)

/-- The elements of an array up to its end, at most `n`, behind those already
read, which are given last first. -/
def elements? (value? : ValueReader) :
    Nat → List Char → List TomlValue → Option (List TomlValue × List Char)
  | 0, _, _ => none
  | n + 1, cs, done => do
    match ← skipLines? false cs with
    | ']' :: rest => return (done.reverse, rest)
    | cs =>
      let (v, rest) ← value? cs
      match ← skipLines? false rest with
      | ',' :: rest => elements? value? n rest (v :: done)
      | ']' :: rest => return ((v :: done).reverse, rest)
      | _ => none

/-- A key, an equals sign and a value. -/
def entry? (value? : ValueReader) (cs : List Char) : Option (TomlEntry × List Char) := do
  match ← key? depth cs with
  | (path, '=' :: rest) =>
    let (v, rest) ← value? (skipBlanks rest)
    return ((path, v), rest)
  | _ => none

/-- The entries of a table between braces up to its end, at most `n`, likewise. -/
def entries? (value? : ValueReader) :
    Nat → List Char → List TomlEntry → Option (List TomlEntry × List Char)
  | 0, _, _ => none
  | n + 1, cs, done => do
    let (e, rest) ← entry? value? cs
    match skipBlanks rest with
    | ',' :: rest => entries? value? n rest (e :: done)
    | '}' :: rest => return ((e :: done).reverse, rest)
    | _ => none

/-- The word at the front of a text.  A date may be followed by a single blank
and a time. -/
def word? (cs : List Char) : Option (TomlValue × List Char) :=
  let word := cs.takeWhile TomlScalar.isWordChar
  let rest := cs.drop word.length
  let single := (TomlScalar.ofWord? word).map (·, rest)
  match rest with
  | ' ' :: c :: behind =>
    if TomlScalar.isDate word && c.isDigit then
      let time := (c :: behind).takeWhile TomlScalar.isWordChar
      if TomlScalar.isTimeOfDay time then some (.datetime, (c :: behind).drop time.length) else none
    else single
  | _ => single

/-- The value at the front of a text, with room for so many levels of arrays and
tables. -/
def value? (room : Nat) (cs : List Char) : Option (TomlValue × List Char) :=
  match cs with
  | '"' :: _ | '\'' :: _ => (TomlScalar.string? cs).map fun (s, rest) => (.string s, rest)
  | '[' :: rest =>
    match room with
    | 0 => none
    | room + 1 => do
      let (xs, rest) ← elements? (value? room) (rest.length + 1) rest []
      return (.array xs, rest)
  | '{' :: rest =>
    match room with
    | 0 => none
    | room + 1 =>
      match skipBlanks rest with
      | '}' :: rest => some (.table .braces [], rest)
      | _ => do
        let (es, rest) ← entries? (value? room) (rest.length + 1) rest []
        return (.table .braces (← Members.putAll? es []), rest)
  | cs => word? cs

/-! ### Lines -/

/-- A line that says something. -/
inductive Line where
  | entry (e : TomlEntry)
  | header (h : TomlHeader)

/-- A header up to the end of its line. -/
def header? : List Char → Option (TomlHeader × List Char)
  | '[' :: '[' :: cs => do
    match ← key? depth cs with
    | (path, ']' :: ']' :: rest) => return (.element path, ← endLine? rest)
    | _ => none
  | '[' :: cs => do
    match ← key? depth cs with
    | (path, ']' :: rest) => return (.table path, ← endLine? rest)
    | _ => none
  | _ => none

/-- The lines of a text, at most `n` of them with those that say nothing, behind
those already read, which are given last first. -/
def lines? : Nat → List Char → List Line → Option (List Line)
  | 0, _, _ => none
  | n + 1, cs, done =>
    match skipBlanks cs with
    | [] => some done.reverse
    | '[' :: rest => do
      let (h, rest) ← header? ('[' :: rest)
      lines? n rest (.header h :: done)
    | c :: rest =>
      if c = '#' ∨ c = '\n' ∨ c = '\r' then do
        lines? n (← endLine? (c :: rest)) done
      else do
        let (e, rest) ← entry? (value? depth) (c :: rest)
        lines? n (← endLine? rest) (.entry e :: done)

/-- The entries before the first header, and the sections. -/
def sections : List Line → List TomlEntry × List TomlSection
  | [] => ([], [])
  | .entry e :: rest =>
    let (es, ss) := sections rest
    (e :: es, ss)
  | .header h :: rest =>
    let (es, ss) := sections rest
    ([], ⟨h, es⟩ :: ss)

/-- A text without the byte order mark at its front. -/
def withoutMark : List Char → List Char
  | '\uFEFF' :: rest => rest
  | cs => cs

end TomlText

/-- The members of the document with the given text, if it is well-formed. -/
def Members.ofToml? (text : String) : Option Members := do
  let cs := TomlText.withoutMark text.toList
  let (top, sections) := TomlText.sections (← TomlText.lines? (cs.length + 1) cs [])
  sections.foldlM (fun members s => s.addTo? members) (← Members.putAll? top [])

end StackItems
