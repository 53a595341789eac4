/-
The JSON text of a document.

* `Document.toJson` — a document as the text of an object, with nothing between
  the tokens;
* `Limits.toJson_eq` — the text of limits is that of the document that names all
  fields;
* `ofText_toJson` — **the text of a document has the tokens of its object.**

Design notes: a text is cut into tokens with as many steps as it has characters.
`Spells` leaves the number of steps open above that, so that the tokens of a text
can be put together from those of its parts.
-/
import StackItems.Proofs.JsonObjects

namespace StackItems

namespace JsonToken

/-! ### Strings -/

/-- A character as the piece of a string that it is written as. -/
def Piece.ofChar (c : Char) : Piece :=
  if c.toNat < 0x20 ∨ c.toNat = 0x7F then .unit c.toNat else .char c

/-- Two hexadecimal digits are enough for the characters that need them. -/
theorem hexValues?_digitChar {n : Nat} (hn : n < 128) :
    hexValues? ['0', '0', Nat.digitChar (n / 16), Nat.digitChar (n % 16)] = some n := by
  revert n
  decide +kernel

theorem pieces_spellChar (c : Char) (rest : List Char) (done : List Piece) :
    pieces (spellChar c ++ rest) done = pieces rest (.ofChar c :: done) := by
  rw [spellChar, Piece.ofChar]
  by_cases hmark : c = '"' ∨ c = '\\'
  · rw [if_pos hmark]
    rcases hmark with rfl | rfl <;> rfl
  · rw [if_neg hmark]
    obtain ⟨hquote, hslash⟩ := not_or.1 hmark
    by_cases hcontrol : c.toNat < 0x20 ∨ c.toNat = 0x7F
    · rw [if_pos hcontrol, if_pos hcontrol]
      have hhex := hexValues?_digitChar (n := c.toNat) (by omega)
      simp only [List.cons_append, List.nil_append, pieces, hhex]
    · rw [if_neg hcontrol, if_neg hcontrol, List.singleton_append, pieces]
      · rw [if_neg (not_or.2 ⟨fun h => hcontrol (.inl h), hslash⟩)]
      · exact hquote
      · exact fun _ _ _ _ _ h => absurd h hslash
      · exact fun _ _ h => absurd h hslash

theorem pieces_flatMap_spellChar (cs rest : List Char) (done : List Piece) :
    pieces (cs.flatMap spellChar ++ '"' :: rest) done =
      some (done.reverse ++ cs.map Piece.ofChar, rest) := by
  induction cs generalizing done with
  | nil => rw [List.flatMap_nil, List.nil_append, pieces, List.map_nil, List.append_nil]
  | cons c cs ih =>
    rw [List.flatMap_cons, List.append_assoc, pieces_spellChar, ih, List.reverse_cons,
      List.append_assoc, List.singleton_append, List.map_cons]

/-- A code unit that belongs to no surrogate pair is a character. -/
theorem assemble_unit {n : Nat} (hn : n < 0xD800) (rest : List Piece) :
    assemble (.unit n :: rest) = (assemble rest).map (Char.ofNat n :: ·) := by
  rw [assemble.eq_def]
  exact if_pos (.inl hn)

theorem assemble_map_ofChar (cs : List Char) : assemble (cs.map Piece.ofChar) = some cs := by
  induction cs with
  | nil => rfl
  | cons c cs ih =>
    rw [List.map_cons, Piece.ofChar]
    split
    · next hcontrol =>
      rw [assemble_unit (by omega), ih, Option.map_some, Char.ofNat_toNat]
    · rw [assemble, ih, Option.map_some]

theorem first?_inQuotes (s : String) (rest : List Char) :
    first? ((inQuotes s).toList ++ rest) = some (.string (some s), rest) := by
  rw [toList_inQuotes_append, first?, pieces_flatMap_spellChar]
  simp only [List.reverse_nil, List.nil_append, assemble_map_ofChar, Option.map_some,
    String.ofList_toList]

/-! ### Tokens of a text -/

/-- A text has these tokens, however many steps there are above its length. -/
def Spells (cs : List Char) (ts : List JsonToken) : Prop := ∀ n, cs.length ≤ n → firstOf n cs = ts

theorem Spells.nil : Spells [] [] := by
  rintro (_ | n) - <;> rfl

/-- A text that begins with a token has this token and those of the rest. -/
theorem Spells.append (cs : List Char) {rest : List Char} {t : JsonToken} {ts : List JsonToken}
    (h : first? (cs ++ rest) = some (t, rest))
    (hblank : (cs ++ rest).dropWhile isBlank = cs ++ rest) (hne : cs ≠ []) (hrest : Spells rest ts) :
    Spells (cs ++ rest) (t :: ts) := by
  obtain ⟨c, cs, rfl⟩ := List.exists_cons_of_ne_nil hne
  intro n hn
  rw [List.cons_append] at h hblank hn ⊢
  rw [List.length_cons, List.length_append] at hn
  obtain ⟨n, rfl⟩ : ∃ k, n = k + 1 := ⟨n - 1, by omega⟩
  simp only [firstOf, hblank, h]
  exact congrArg (t :: ·) (hrest n (by omega))

theorem Spells.ofText {text : String} {ts : List JsonToken} (h : Spells text.toList ts) :
    ofText text = ts :=
  h _ (Nat.le_refl _)

/-- A string stands in front of any text. -/
theorem Spells.inQuotes (s : String) {rest : List Char} {ts : List JsonToken}
    (h : Spells rest ts) : Spells ((inQuotes s).toList ++ rest) (.string (some s) :: ts) := by
  refine .append _ (first?_inQuotes s rest) ?_ ?_ h
  · rw [toList_inQuotes_append]
    rfl
  · rw [StackItems.inQuotes, String.toList_ofList]
    exact List.cons_ne_nil _ _

/-- A value stands in front of what ends a number. -/
theorem Spells.scalar (x : Scalar) {c : Char} (hc : IsEnd c) {rest : List Char}
    {ts : List JsonToken} (h : Spells (c :: rest) ts) :
    Spells (x.text.toList ++ c :: rest) (x.json.tokens ++ ts) := by
  cases x with
  | integer n =>
    rw [Scalar.text, toList_toString_int]
    refine .append _ (first?_decimal n hc rest) ?_ (decimal_ne_nil n) h
    obtain ⟨d, ds, hdecimal, hd⟩ := decimal_eq_cons n
    rw [hdecimal, List.cons_append, List.dropWhile_cons_of_neg]
    simp [isBlank, ne_of_holds hd (d := ' ') rfl, ne_of_holds hd (d := '\t') rfl,
      ne_of_holds hd (d := '\n') rfl, ne_of_holds hd (d := '\r') rfl]
  | boolean b =>
    cases b with
    | true => exact Spells.append "true".toList rfl rfl (by decide) h
    | false => exact Spells.append "false".toList rfl rfl (by decide) h
  | string s => exact .inQuotes s h

end JsonToken

/-! ### Objects -/

/-- A member of a document as a member of the text of an object. -/
def Mention.toJson (v : Limits) (m : Mention) : String :=
  inQuotes (m.entry v).1 ++ ":" ++ (m.entry v).2.text

/-- A document as the text of an object. -/
def Document.toJson (doc : Document) (v : Limits) : String :=
  "\x7b" ++ ",".intercalate (doc.mentions.map (Mention.toJson v)) ++ "\x7d"

open JsonToken Json

theorem JsonToken.Spells.mention (v : Limits) (m : Mention) {c : Char} (hc : IsEnd c)
    {rest : List Char} {ts : List JsonToken} (h : Spells (c :: rest) ts) :
    Spells ((m.toJson v).toList ++ c :: rest)
      (.string (m.json v).1 :: .colon :: ((m.json v).2.tokens ++ ts)) := by
  have hvalue := Spells.scalar (m.entry v).2 hc h
  have hcolon : Spells (':' :: ((m.entry v).2.text.toList ++ c :: rest))
      (.colon :: ((m.json v).2.tokens ++ ts)) :=
    .append [':'] rfl rfl (List.cons_ne_nil _ _) hvalue
  have hkey := Spells.inQuotes (m.entry v).1 hcolon
  rw [Mention.toJson, String.toList_append, String.toList_append, List.append_assoc,
    List.append_assoc]
  exact hkey

theorem Json.memberTokens_true_cons (p : Option String × Json)
    (ms : List (Option String × Json)) :
    memberTokens true (p :: ms) =
      .string p.1 :: .colon :: (p.2.tokens ++ memberTokens false ms) := by
  rw [memberTokens]
  rfl

theorem Json.memberTokens_false_cons (p : Option String × Json)
    (ms : List (Option String × Json)) :
    memberTokens false (p :: ms) = .comma :: memberTokens true (p :: ms) := by
  obtain ⟨key, x⟩ := p
  rw [memberTokens, memberTokens, List.cons_append, List.cons_append, List.cons_append]

/-- The members of an object up to its end. -/
theorem JsonToken.Spells.mentions (v : Limits) (m : Mention) (ms : List Mention) :
    Spells ((",".intercalate ((m :: ms).map (Mention.toJson v))).toList ++ ['}'])
      (memberTokens true ((m :: ms).map (Mention.json v)) ++ [.closeBrace]) := by
  induction ms generalizing m with
  | nil =>
    have hclose : Spells ['}'] [.closeBrace] :=
      .append ['}'] rfl rfl (List.cons_ne_nil _ _) .nil
    have h := Spells.mention v m (.inr rfl) hclose
    rw [List.map_singleton, List.map_singleton, String.intercalate_singleton,
      memberTokens_true_cons, memberTokens, List.append_nil]
    exact h
  | cons m' ms ih =>
    have hcomma := Spells.append [','] (t := .comma) rfl rfl (List.cons_ne_nil _ _) (ih m')
    have htext : (",".intercalate ((m :: m' :: ms).map (Mention.toJson v))).toList ++ ['}'] =
        (m.toJson v).toList ++
          ',' :: ((",".intercalate ((m' :: ms).map (Mention.toJson v))).toList ++ ['}']) := by
      rw [List.map_cons, List.map_cons, String.intercalate_cons_cons, String.toList_append,
        String.toList_append, List.append_assoc, List.append_assoc]
      rfl
    have htokens : memberTokens true ((m :: m' :: ms).map (Mention.json v)) ++ [.closeBrace] =
        .string (m.json v).1 :: .colon :: ((m.json v).2.tokens ++
          .comma :: (memberTokens true ((m' :: ms).map (Mention.json v)) ++ [.closeBrace])) := by
      rw [List.map_cons, List.map_cons, memberTokens_true_cons, memberTokens_false_cons,
        List.cons_append, List.cons_append, List.append_assoc]
      rfl
    rw [htext, htokens]
    exact .mention v m (.inl rfl) hcomma

/-- The text of a document has the tokens of its object. -/
theorem Document.ofText_toJson (doc : Document) (v : Limits) :
    JsonToken.ofText (doc.toJson v) = (doc.json v).tokens := by
  have hopen : ∀ {rest : List Char} {ts : List JsonToken}, Spells rest ts →
      Spells ('{' :: rest) (.openBrace :: ts) :=
    fun h => .append ['{'] rfl rfl (List.cons_ne_nil _ _) h
  apply Spells.ofText
  rw [Document.toJson, String.toList_append, String.toList_append, List.append_assoc,
    Document.json, tokens]
  cases doc.mentions with
  | nil => exact hopen (.append ['}'] rfl rfl (List.cons_ne_nil _ _) .nil)
  | cons m ms => exact hopen (.mentions v m ms)

/-! ### The text of limits -/

theorem Setting.toJson_setting (v : Limits) (f : Field) :
    (v.setting f).toJson = (Mention.field f).toJson v := by
  rw [Mention.toJson, Mention.entry, Field.inQuotes_name]
  cases f with
  | count field =>
    rw [Limits.setting, Setting.toJson, scalar, Scalar.text, toString_natCast]
    rfl
  | removalMode =>
    rw [Limits.setting, Setting.toJson, scalar, Scalar.text, RemovalMode.inQuotes_name]
    rfl

/-- Limits are written as the document that names all fields. -/
theorem Limits.toJson_eq (v : Limits) : v.toJson = Document.complete.toJson v := by
  rw [Limits.toJson, Document.toJson, Document.complete, List.map_map,
    List.map_congr_left fun f _ => Setting.toJson_setting v f]
  rfl

end StackItems
