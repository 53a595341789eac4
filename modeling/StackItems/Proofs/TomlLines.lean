/-
The TOML text of a document.

* `Document.toToml` — a document as lines, one for each member;
* `ofToml?_toToml` — **the text of a document whose integers fit into 64 bits has
  the members of the document;**
* `settings_members` — the members of a document give the settings of its fields.

Design notes: a key stands without quotes where it can.  A line is read in front
of anything, so the lines of a text are read one after the other.
-/
import StackItems.Proofs.Decimal
import StackItems.Proofs.Documents
import StackItems.TomlLimits

namespace StackItems

/-- Whether an integer has the size of those in a configuration file. -/
def Scalar.Fits : Scalar → Prop
  | integer n => -2 ^ 63 ≤ n ∧ n ≤ 2 ^ 63 - 1
  | boolean _ | string _ => True

instance : DecidablePred Scalar.Fits
  | .integer n => inferInstanceAs (Decidable (-2 ^ 63 ≤ n ∧ n ≤ 2 ^ 63 - 1))
  | .boolean _ => inferInstanceAs (Decidable True)
  | .string _ => inferInstanceAs (Decidable True)

/-- A scalar as a value of a configuration file. -/
def Scalar.toml : Scalar → TomlValue
  | integer n => .integer n
  | boolean b => .boolean b
  | string s => .string s

/-- A key in front of an equals sign. -/
def tomlKey (key : String) : String :=
  if key.toList ≠ [] ∧ key.toList.all TomlText.isBare then key else inQuotes key

/-- A member of a document as a line. -/
def Mention.toToml (v : Limits) (m : Mention) : String :=
  tomlKey (m.entry v).1 ++ " = " ++ (m.entry v).2.text ++ "\n"

/-- A document as lines. -/
def Document.toToml (doc : Document) (v : Limits) : String :=
  String.join (doc.mentions.map (Mention.toToml v))

/-- A member of a document as a member of a table. -/
def Mention.toml (v : Limits) (m : Mention) : String × TomlValue :=
  ((m.entry v).1, (m.entry v).2.toml)

/-- A member of a document as an entry, whose key has a single part. -/
def Mention.tomlEntry (v : Limits) (m : Mention) : TomlEntry :=
  ([(m.entry v).1], (m.entry v).2.toml)

/-- The members of a document as those of a table. -/
def Document.members (doc : Document) (v : Limits) : Members :=
  doc.mentions.map (Mention.toml v)

namespace TomlScalar

/-! ### Strings -/

theorem codePoint?_digitChar {n : Nat} (hn : n < 128) :
    codePoint? ['0', '0', Nat.digitChar (n / 16), Nat.digitChar (n % 16)] =
      some (Char.ofNat n) := by
  revert n
  decide +kernel

theorem basic?_spellChar (c : Char) (rest done : List Char) :
    basic? (spellChar c ++ rest) done = basic? rest (c :: done) := by
  rw [spellChar]
  by_cases hmark : c = '"' ∨ c = '\\'
  · rw [if_pos hmark]
    rcases hmark with rfl | rfl <;> rfl
  · rw [if_neg hmark]
    obtain ⟨hquote, hslash⟩ := not_or.1 hmark
    by_cases hcontrol : c.toNat < 0x20 ∨ c.toNat = 0x7F
    · rw [if_pos hcontrol]
      have hpoint := codePoint?_digitChar (n := c.toNat) (by omega)
      rw [Char.ofNat_toNat] at hpoint
      simp only [List.cons_append, List.nil_append, basic?, hpoint]
    · have hline : isInLine c = true := by
        obtain ⟨hlow, hdel⟩ := not_or.1 hcontrol
        simp only [isInLine, Bool.or_eq_true, decide_eq_true_eq, Bool.and_eq_true, bne_iff_ne]
        exact .inr ⟨Nat.le_of_not_lt hlow, hdel⟩
      rw [if_neg hcontrol, List.singleton_append, basic?]
      · rw [if_pos ⟨hline, hslash⟩]
      · exact hquote
      · exact fun _ _ _ _ _ h => absurd h hslash
      · exact fun _ _ _ _ _ _ _ _ _ h => absurd h hslash
      · exact fun _ _ h => absurd h hslash

theorem basic?_flatMap_spellChar (cs rest done : List Char) :
    basic? (cs.flatMap spellChar ++ '"' :: rest) done =
      some (String.ofList (done.reverse ++ cs), rest) := by
  induction cs generalizing done with
  | nil => rw [List.flatMap_nil, List.nil_append, basic?, List.append_nil]
  | cons c cs ih =>
    rw [List.flatMap_cons, List.append_assoc, basic?_spellChar, ih, List.reverse_cons,
      List.append_assoc, List.singleton_append]

theorem basic?_inQuotes (s : String) (rest : List Char) :
    basic? (s.toList.flatMap spellChar ++ '"' :: rest) [] = some (s, rest) := by
  rw [basic?_flatMap_spellChar, List.reverse_nil, List.nil_append, String.ofList_toList]

/-- A character in a string does not begin with a quote. -/
theorem spellChar_eq_cons (c : Char) : ∃ d ds, spellChar c = d :: ds ∧ d ≠ '"' := by
  rw [spellChar]
  split
  · exact ⟨_, _, rfl, by decide⟩
  · next hmark =>
    split
    · exact ⟨_, _, rfl, by decide⟩
    · exact ⟨_, _, rfl, fun h => hmark (.inl h)⟩

/-- A string is read in front of the end of its line; the empty one does not open
a string over several lines. -/
theorem string?_inQuotes (s : String) (rest : List Char) :
    string? ((inQuotes s).toList ++ '\n' :: rest) = some (s, '\n' :: rest) := by
  rw [toList_inQuotes_append, ← basic?_inQuotes s ('\n' :: rest)]
  cases s.toList with
  | nil => rfl
  | cons c cs =>
    obtain ⟨d, ds, hd, hquote⟩ := spellChar_eq_cons c
    rw [List.flatMap_cons, hd, List.cons_append, List.cons_append, string?]
    rintro _ h
    injection h with h _
    exact hquote h

end TomlScalar

namespace TomlText

open TomlScalar

/-! ### Values -/

theorem isWordChar_of_isDigit {c : Char} (hc : c.isDigit) : isWordChar c := by
  simp [isWordChar, Char.isAlphanum, hc]

theorem isWordChar_of_mem_decimal {n : Int} {c : Char} (hc : c ∈ decimal n) : isWordChar c := by
  rw [decimal] at hc
  split at hc
  · rcases List.mem_cons.1 hc with rfl | hc
    · rfl
    · exact isWordChar_of_isDigit (isDigit_of_mem_digits hc)
  · exact isWordChar_of_isDigit (isDigit_of_mem_digits hc)

/-- A word is read up to the end of its line. -/
theorem word?_append {word : List Char} (hword : ∀ c ∈ word, isWordChar c) (rest : List Char) :
    word? (word ++ '\n' :: rest) = (ofWord? word).map (·, '\n' :: rest) := by
  have htake : (word ++ '\n' :: rest).takeWhile isWordChar = word := by
    rw [List.takeWhile_append_of_pos hword, List.takeWhile_cons_of_neg (by decide),
      List.append_nil]
  simp only [word?, htake, List.drop_left]
  rfl

/-- A value that is a word is read as one. -/
theorem value?_append (room : Nat) (word : List Char) (hne : word ≠ [])
    (hword : ∀ c ∈ word, isWordChar c) (rest : List Char) :
    value? room (word ++ '\n' :: rest) = (ofWord? word).map (·, '\n' :: rest) := by
  rw [← word?_append hword]
  obtain ⟨c, cs, rfl⟩ := List.exists_cons_of_ne_nil hne
  have hc := hword c List.mem_cons_self
  rw [List.cons_append, value?]
  all_goals exact fun _ => cons_ne_cons hc rfl _ _

theorem value?_scalar (room : Nat) {x : Scalar} (hx : x.Fits) (rest : List Char) :
    value? room (x.text.toList ++ '\n' :: rest) = some (x.toml, '\n' :: rest) := by
  cases x with
  | integer n =>
    rw [Scalar.text, toList_toString_int,
      value?_append room _ (decimal_ne_nil n) fun c hc => isWordChar_of_mem_decimal hc,
      ofWord?_decimal hx.1 hx.2, Option.map_some, Scalar.toml]
  | boolean b =>
    cases b with
    | true => exact value?_append room "true".toList (by decide) (List.all_eq_true.1 rfl) rest
    | false => exact value?_append room "false".toList (by decide) (List.all_eq_true.1 rfl) rest
  | string s =>
    rw [Scalar.text, Scalar.toml, toList_inQuotes_append, value?, ← toList_inQuotes_append,
      string?_inQuotes, Option.map_some]

/-! ### Keys -/

/-- Whether a character is the first of a key: a quote, or one that needs none. -/
def opensKey (c : Char) : Bool := c = '"' || isBare c

theorem toList_tomlKey_eq_cons (key : String) :
    ∃ c cs, (tomlKey key).toList = c :: cs ∧ opensKey c := by
  rw [tomlKey]
  split
  · next h =>
    obtain ⟨c, cs, hkey⟩ := List.exists_cons_of_ne_nil h.1
    have hbare := h.2
    rw [hkey, List.all_cons, Bool.and_eq_true] at hbare
    exact ⟨c, cs, hkey, by rw [opensKey, hbare.1, Bool.or_true]⟩
  · exact ⟨_, _, String.toList_ofList, rfl⟩

/-- A key is read up to the blank behind it. -/
theorem keyPart?_tomlKey (key : String) (rest : List Char) :
    keyPart? ((tomlKey key).toList ++ ' ' :: rest) = some (key, ' ' :: rest) := by
  rw [tomlKey]
  split
  · next h =>
    obtain ⟨hne, hbare⟩ := h
    rw [List.all_eq_true] at hbare
    have htake : (key.toList ++ ' ' :: rest).takeWhile isBare = key.toList := by
      rw [List.takeWhile_append_of_pos hbare, List.takeWhile_cons_of_neg (by decide),
        List.append_nil]
    obtain ⟨c, cs, hkey⟩ := List.exists_cons_of_ne_nil hne
    have hc : isBare c := hbare c (hkey ▸ List.mem_cons_self)
    rw [keyPart?]
    · simp only [htake, List.drop_left, String.ofList_toList]
    · rw [hkey]
      exact fun _ => cons_ne_cons hc rfl _ _
    · rw [hkey]
      exact fun _ => cons_ne_cons hc rfl _ _
  · rw [toList_inQuotes_append]
    exact basic?_inQuotes key (' ' :: rest)

theorem skipBlanks_cons {c : Char} (hspace : c ≠ ' ') (htab : c ≠ '\t') (cs : List Char) :
    skipBlanks (c :: cs) = c :: cs := by
  rw [skipBlanks, List.dropWhile_cons_of_neg (by simp [hspace, htab])]

/-- What opens a key is no blank, and is skipped nowhere. -/
theorem skipBlanks_tomlKey (key : String) (rest : List Char) :
    skipBlanks ((tomlKey key).toList ++ rest) = (tomlKey key).toList ++ rest := by
  obtain ⟨c, cs, hkey, hc⟩ := toList_tomlKey_eq_cons key
  rw [hkey]
  exact skipBlanks_cons (ne_of_holds hc rfl) (ne_of_holds hc rfl) _

theorem key?_tomlKey (n : Nat) (key : String) (rest : List Char) :
    key? (n + 1) ((tomlKey key).toList ++ ' ' :: '=' :: rest) = some ([key], '=' :: rest) := by
  rw [key?, skipBlanks_tomlKey, keyPart?_tomlKey]
  rfl

/-! ### Lines -/

/-- A value has no blank in front. -/
theorem skipBlanks_scalar (x : Scalar) (rest : List Char) :
    skipBlanks (x.text.toList ++ rest) = x.text.toList ++ rest := by
  cases x with
  | integer n =>
    obtain ⟨c, cs, hdecimal, hc⟩ := decimal_eq_cons n
    rw [Scalar.text, toList_toString_int, hdecimal]
    exact skipBlanks_cons (ne_of_holds hc rfl) (ne_of_holds hc rfl) _
  | boolean b => cases b <;> rfl
  | string s =>
    rw [Scalar.text, toList_inQuotes_append]
    rfl

/-- The entry of a member up to the end of its line. -/
theorem entry?_tomlKey (key : String) {x : Scalar} (hx : x.Fits) (rest : List Char) :
    entry? (value? depth)
        ((tomlKey key).toList ++ ' ' :: '=' :: ' ' :: (x.text.toList ++ '\n' :: rest)) =
      some (([key], x.toml), '\n' :: rest) := by
  have hblank : skipBlanks (' ' :: (x.text.toList ++ '\n' :: rest)) =
      x.text.toList ++ '\n' :: rest :=
    (List.dropWhile_cons_of_pos rfl).trans (skipBlanks_scalar x _)
  have hkey := key?_tomlKey 78 key (' ' :: (x.text.toList ++ '\n' :: rest))
  unfold entry?
  rw [depth]
  simp only [hkey, hblank, value?_scalar 79 hx, Option.bind_eq_bind, Option.bind_some,
    Option.pure_def]

/-- The line of a member is read as its entry. -/
theorem lines?_toToml (n : Nat) (v : Limits) {m : Mention} (hm : (m.entry v).2.Fits)
    (rest : List Char) (done : List Line) :
    lines? (n + 1) ((m.toToml v).toList ++ rest) done =
      lines? n rest (.entry (m.tomlEntry v) :: done) := by
  have htext : (m.toToml v).toList ++ rest = (tomlKey (m.entry v).1).toList ++
      ' ' :: '=' :: ' ' :: ((m.entry v).2.text.toList ++ '\n' :: rest) := by
    simp [Mention.toToml, String.toList_append, List.append_assoc]
  have hentry := entry?_tomlKey (m.entry v).1 hm rest
  have hblank := skipBlanks_tomlKey (m.entry v).1
    (' ' :: '=' :: ' ' :: ((m.entry v).2.text.toList ++ '\n' :: rest))
  rw [htext, lines?, hblank]
  obtain ⟨c, cs, hkey, hc⟩ := toList_tomlKey_eq_cons (m.entry v).1
  rw [hkey, List.cons_append] at hentry ⊢
  -- A line that begins like a key is neither a header nor one that says nothing.
  have hmark : ¬ (c = '#' ∨ c = '\n' ∨ c = '\r') := by
    rintro (h | h | h) <;> exact ne_of_holds hc rfl h
  split
  · next h => injection h
  · next h => exact absurd h (cons_ne_cons hc rfl _ _)
  · next h =>
    injection h with h h'
    subst h h'
    rw [if_neg hmark, hentry]
    rfl

/-- The lines of members are read as their entries. -/
theorem lines?_members (v : Limits) {ms : List Mention}
    (hms : ∀ m ∈ ms, (m.entry v).2.Fits) {n : Nat} (hn : ms.length < n) (done : List Line) :
    lines? n (ms.flatMap fun m => (m.toToml v).toList) done =
      some (done.reverse ++ (ms.map (Mention.tomlEntry v)).map .entry) := by
  induction ms generalizing n done with
  | nil =>
    obtain ⟨n, rfl⟩ : ∃ k, n = k + 1 := ⟨n - 1, by omega⟩
    rw [List.flatMap_nil, lines?, List.map_nil, List.map_nil, List.append_nil]
    rfl
  | cons m ms ih =>
    obtain ⟨n, rfl⟩ : ∃ k, n = k + 1 := ⟨n - 1, by omega⟩
    obtain ⟨hm, hms⟩ := List.forall_mem_cons.1 hms
    rw [List.flatMap_cons, lines?_toToml n v hm, ih hms (Nat.lt_of_succ_lt_succ hn),
      List.reverse_cons, List.append_assoc, List.singleton_append, List.map_cons, List.map_cons]

theorem sections_map_entry (es : List TomlEntry) : sections (es.map .entry) = (es, []) := by
  induction es with
  | nil => rfl
  | cons e es ih => rw [List.map_cons, sections, ih]

/-- The line of a member is not empty, and no byte order mark stands before it. -/
theorem toList_toToml_eq_cons (v : Limits) (m : Mention) :
    ∃ c cs, (m.toToml v).toList = c :: cs ∧ opensKey c := by
  obtain ⟨c, cs, hkey, hc⟩ := toList_tomlKey_eq_cons (m.entry v).1
  exact ⟨c, _, by rw [Mention.toToml, String.toList_append, String.toList_append,
    String.toList_append, hkey, List.cons_append, List.cons_append, List.cons_append], hc⟩

theorem length_le_length_lines (v : Limits) (ms : List Mention) :
    ms.length ≤ (ms.flatMap fun m => (m.toToml v).toList).length := by
  induction ms with
  | nil => exact Nat.zero_le _
  | cons m ms ih =>
    obtain ⟨c, cs, hline, -⟩ := toList_toToml_eq_cons v m
    rw [List.flatMap_cons, hline, List.length_cons, List.length_append, List.length_cons]
    omega

theorem withoutMark_lines (v : Limits) (ms : List Mention) :
    withoutMark (ms.flatMap fun m => (m.toToml v).toList) =
      ms.flatMap fun m => (m.toToml v).toList := by
  cases ms with
  | nil => rfl
  | cons m ms =>
    obtain ⟨c, cs, hline, hc⟩ := toList_toToml_eq_cons v m
    rw [List.flatMap_cons, hline, List.cons_append, withoutMark]
    exact fun _ => cons_ne_cons hc rfl _ _

end TomlText

namespace Members

/-! ### Tables -/

/-- Entries under distinct keys without dots join the table as they are. -/
theorem putAll?_of_nodup (members done : Members)
    (distinct : ((done ++ members).map Prod.fst).Nodup) :
    putAll? (members.map fun p => ([p.1], p.2)) done = some (done ++ members) := by
  induction members generalizing done with
  | nil => rw [List.append_nil]; rfl
  | cons p members ih =>
    have hnew : done.lookup p.1 = none := by
      rw [List.lookup_eq_none_iff]
      intro q hq
      rw [List.map_append, List.nodup_append] at distinct
      exact bne_iff_ne.2
        (distinct.2.2 q.1 (List.mem_map_of_mem hq) p.1 (by simp)).symm
    have hput : putDotted? true [] p.1 p.2 done = some (done ++ [p]) := by
      rw [putDotted?, hnew]
      rfl
    have hnext := ih (done ++ [p]) (by rwa [← List.append_cons])
    rw [← List.append_cons] at hnext
    rw [← hnext, putAll?, List.map_cons, List.foldlM_cons]
    simp only [List.reverse_singleton, List.reverse_nil, hput, Option.bind_eq_bind,
      Option.bind_some]
    rfl

end Members

theorem Mention.map_fst_toml (v : Limits) (ms : List Mention) :
    (ms.map (Mention.toml v)).map Prod.fst = ms.map Mention.key := by
  rw [List.map_map]
  exact List.map_congr_left fun m _ => m.fst_entry v

/-- The text of a document has its members. -/
theorem Document.ofToml?_toToml (doc : Document) (v : Limits)
    (hfits : ∀ m ∈ doc.mentions, (m.entry v).2.Fits) :
    Members.ofToml? (doc.toToml v) = some (doc.members v) := by
  have htext : (doc.toToml v).toList = doc.mentions.flatMap fun m => (m.toToml v).toList := by
    rw [Document.toToml, String.toList_join, List.flatMap_map]
  have hlines := TomlText.lines?_members v hfits
    (Nat.lt_succ_of_le (TomlText.length_le_length_lines v doc.mentions)) []
  have hput := Members.putAll?_of_nodup (doc.members v) []
    (by rw [List.nil_append, Document.members, Mention.map_fst_toml]; exact doc.distinct)
  rw [Document.members, List.map_map, List.nil_append] at hput
  change Members.putAll? (doc.mentions.map (Mention.tomlEntry v)) [] = _ at hput
  simp only [Members.ofToml?, htext, TomlText.withoutMark_lines, hlines, List.reverse_nil,
    List.nil_append, TomlText.sections_map_entry, hput, Option.bind_eq_bind, Option.bind_some]
  rfl

/-! ### Settings as lines -/

theorem Field.tomlKey_name (f : Field) : tomlKey f.name = f.name := by
  apply if_pos
  cases f with
  | count field => cases field <;> decide
  | removalMode => decide

theorem Setting.toToml_setting (v : Limits) (f : Field) :
    (v.setting f).toToml = (Mention.field f).toToml v := by
  rw [Mention.toToml, Mention.entry, Field.tomlKey_name]
  cases f with
  | count field =>
    rw [Limits.setting, Setting.toToml, scalar, Scalar.text, toString_natCast]
    rfl
  | removalMode =>
    rw [Limits.setting, Setting.toToml, scalar, Scalar.text, RemovalMode.inQuotes_name,
      ← String.toList_inj]
    simp

/-! ### The fields of a document -/

theorem TomlValue.setting_scalar (v : Limits) (f : Field) :
    (v.setting f).scalar.toml.setting f = .ok (v.setting f) := by
  cases f with
  | count field =>
    have hword : (TomlValue.integer (v.get field).toNat).word = .ok (v.get field) := by
      rw [word, if_pos (Int.natCast_nonneg _), Int.toNat_natCast, UInt64.ofNat_toNat]
    exact congrArg (Except.map (Setting.count field)) hword
  | removalMode =>
    have hmode : (TomlValue.string v.removalMode.name).mode = .ok v.removalMode := by
      rw [mode, modeNamed, RemovalMode.ofName?_name]
    exact congrArg (Except.map Setting.removalMode) hmode

theorem Members.settings_mentions (v : Limits) {ms : List Mention}
    (unknown : ∀ key value, Mention.other key value ∈ ms → Field.ofName? key = none) :
    Members.settings (ms.map (Mention.toml v)) =
      .ok ((ms.filterMap Mention.field?).map v.setting) := by
  induction ms with
  | nil => rfl
  | cons m ms ih =>
    have ih := ih fun key value hm => unknown key value (List.mem_cons_of_mem _ hm)
    rw [List.map_cons]
    cases m with
    | field f =>
      have hset := TomlValue.setting_scalar v f
      simp only [Mention.toml, Mention.entry, settings, Field.ofName?_name, hset, ih]
      rfl
    | other key value =>
      simp only [Mention.toml, Mention.entry, settings, unknown key value List.mem_cons_self, ih]
      rfl

/-- The members of a document give the settings of its fields. -/
theorem Document.settings_members (doc : Document) (v : Limits) :
    (doc.members v).settings = .ok (doc.settings v) :=
  Members.settings_mentions v doc.unknown

end StackItems
