/-
Limits from the tokens of an object.

* `Json` — values of a text, with their tokens;
* `skip_tokens` — a reader that skips a value stops right behind it;
* `settings_document` — an object that names fields, in any order and with any
  other members between them, gives the settings of these fields;
* `count_le_one_of_settings` — an object that is read names no field twice.

Design notes: `Json` has more values than texts can spell, with numbers that no
digits write and strings of half a surrogate pair.  What is proved for all of
them holds of those that are written.
-/
import StackItems.JsonLimits
import StackItems.Proofs.Decimal
import StackItems.Proofs.Documents

namespace StackItems

/-- A value of a text. -/
inductive Json where
  | null
  | boolean (b : Bool)
  | number (n : JsonNumber)
  | string (s : Option String)
  | list (elements : List Json)
  | object (members : List (Option String × Json))

namespace Json

open JsonToken

mutual

/-- The tokens of a value. -/
def tokens : Json → List JsonToken
  | null => [.null]
  | boolean b => [.boolean b]
  | number n => [.number n]
  | string s => [.string s]
  | list elements => openBracket :: elementTokens true elements ++ [closeBracket]
  | object members => openBrace :: memberTokens true members ++ [closeBrace]

/-- The tokens of elements, with a comma before each but the first of a list. -/
def elementTokens : Bool → List Json → List JsonToken
  | _, [] => []
  | true, x :: xs => tokens x ++ elementTokens false xs
  | false, x :: xs => comma :: tokens x ++ elementTokens false xs

/-- The tokens of members, with a comma before each but the first of an object. -/
def memberTokens : Bool → List (Option String × Json) → List JsonToken
  | _, [] => []
  | true, (key, x) :: ms => .string key :: colon :: tokens x ++ memberTokens false ms
  | false, (key, x) :: ms => comma :: .string key :: colon :: tokens x ++ memberTokens false ms

end

end Json

/-- A scalar as a value of a text. -/
def Scalar.json : Scalar → Json
  | integer n => .number (.ofInt n)
  | boolean b => .boolean b
  | string s => .string (some s)

/-- A member of a document as a member of an object. -/
def Mention.json (v : Limits) (m : Mention) : Option String × Json :=
  (some (m.entry v).1, (m.entry v).2.json)

/-- A document as an object. -/
def Document.json (doc : Document) (v : Limits) : Json :=
  .object (doc.mentions.map (Mention.json v))

namespace JsonReader

open Json

/-! ### Skipping -/

/-- What is left of a text where skipping is at a place in it. -/
def resume (tokens : List JsonToken) : Place → Option (List JsonToken)
  | .behind => some tokens
  | .inside nesting next => skip nesting next tokens

theorem skip_cons {nesting : List Nesting} {next : Next} {token : JsonToken} {place : Place}
    (h : Place.after? nesting next token = some place) (rest : List JsonToken) :
    skip nesting next (token :: rest) = resume rest place := by
  rw [skip, h]
  cases place <;> rfl

theorem after?_value (nesting : List Nesting) (token : JsonToken) :
    Place.after? nesting .value token = Place.afterFirst? nesting token := by
  cases nesting with
  | nil => cases token <;> rfl
  | cons n outer => cases n <;> cases token <;> rfl

/-- Skipping enters a value at its first token. -/
theorem skip_value {nesting : List Nesting} {token : JsonToken} {place : Place}
    (h : Place.afterFirst? nesting token = some place) (rest : List JsonToken) :
    skip nesting .value (token :: rest) = resume rest place :=
  skip_cons ((after?_value nesting token).trans h) rest

/-- The first element of a list is a value like the others. -/
theorem skip_firstValue (nesting : List Nesting) (x : Json) (rest : List JsonToken) :
    skip nesting .firstValue (x.tokens ++ rest) = skip nesting .value (x.tokens ++ rest) := by
  cases nesting with
  | nil => cases x <;> rfl
  | cons n outer => cases n <;> cases x <;> rfl

/-- Skipping a key leads to its value. -/
theorem skip_key {next : Next} (h : next = .firstKey ∨ next = .key) (outer : List Nesting)
    (key : Option String) (rest : List JsonToken) :
    skip (.object :: outer) next (.string key :: .colon :: rest) =
      skip (.object :: outer) .value rest := by
  rcases h with rfl | rfl
  · rw [skip_cons rfl, resume, skip_cons rfl, resume]
  · rw [skip_cons rfl, resume, skip_cons rfl, resume]

mutual

/-- Skipping a value ends behind it. -/
theorem skip_tokens (nesting : List Nesting) (rest : List JsonToken) :
    ∀ x : Json, skip nesting .value (x.tokens ++ rest) = resume rest (.afterValue nesting)
  | .null => skip_value rfl rest
  | .boolean _ => skip_value rfl rest
  | .number _ => skip_value rfl rest
  | .string _ => skip_value rfl rest
  | .list elements => by
    rw [tokens, List.append_assoc, List.cons_append, skip_value rfl]
    exact skip_elementTokens nesting rest true elements
  | .object members => by
    rw [tokens, List.append_assoc, List.cons_append, skip_value rfl]
    exact skip_memberTokens nesting rest true members

/-- Skipping the elements of a list ends behind the list. -/
theorem skip_elementTokens (outer : List Nesting) (rest : List JsonToken) :
    ∀ (first : Bool) (xs : List Json),
      skip (.list :: outer) (if first then .firstValue else .separator)
        (elementTokens first xs ++ ([.closeBracket] ++ rest)) = resume rest (.afterValue outer)
  | true, [] => skip_cons rfl rest
  | false, [] => skip_cons rfl rest
  | true, x :: xs => by
    rw [elementTokens, List.append_assoc, if_pos rfl, skip_firstValue, skip_tokens]
    exact skip_elementTokens outer rest false xs
  | false, x :: xs => by
    rw [elementTokens, List.append_assoc, List.cons_append, skip_cons rfl, resume, skip_tokens]
    exact skip_elementTokens outer rest false xs

/-- Skipping the members of an object ends behind the object. -/
theorem skip_memberTokens (outer : List Nesting) (rest : List JsonToken) :
    ∀ (first : Bool) (ms : List (Option String × Json)),
      skip (.object :: outer) (if first then .firstKey else .separator)
        (memberTokens first ms ++ ([.closeBrace] ++ rest)) = resume rest (.afterValue outer)
  | true, [] => skip_cons rfl rest
  | false, [] => skip_cons rfl rest
  | true, (key, x) :: ms => by
    rw [memberTokens, List.append_assoc, List.cons_append, List.cons_append, if_pos rfl,
      skip_key (.inl rfl), skip_tokens]
    exact skip_memberTokens outer rest false ms
  | false, (key, x) :: ms => by
    rw [memberTokens, List.append_assoc, List.cons_append, List.cons_append, List.cons_append,
      skip_cons rfl, resume, skip_key (.inr rfl), skip_tokens]
    exact skip_memberTokens outer rest false ms

end

/-- The value under a key is skipped as a whole. -/
theorem skip_colon (x : Json) (rest : List JsonToken) :
    skip [] .colon (.colon :: (x.tokens ++ rest)) = some rest := by
  rw [skip_cons rfl]
  exact skip_tokens [] rest x

/-! ### Values of fields -/

theorem refuse_ne_ok {α : Type} (token : JsonToken) (expected : String) (a : α) :
    refuse token expected ≠ .ok a := by
  intro h
  rw [refuse] at h
  split at h <;> injection h

/-- A number is read in front of anything. -/
theorem word_tokens_eq_ok {x : Json} {n : UInt64} {rest rest' : List JsonToken}
    (h : word (x.tokens ++ rest) = .ok (n, rest')) : rest' = rest := by
  cases x with
  | number m =>
    rw [tokens, List.singleton_append, word] at h
    split at h
    · injection h with h
      injection h with _ h
      exact h.symm
    · injection h
    · exact absurd h (refuse_ne_ok _ _ _)
  | null => exact absurd h (refuse_ne_ok .null "usize" _)
  | boolean b => exact absurd h (refuse_ne_ok (.boolean b) "usize" _)
  | string s => exact absurd h (refuse_ne_ok (.string s) "usize" _)
  | list xs => exact absurd h (refuse_ne_ok .openBracket "usize" _)
  | object ms => exact absurd h (refuse_ne_ok .openBrace "usize" _)

/-- A name is read in front of anything. -/
theorem name_tokens_eq_ok {α : Type} {ofName? : String → Option α} {known : List String} {x : Json}
    {a : α} {rest rest' : List JsonToken}
    (h : name ofName? known (x.tokens ++ rest) = .ok (a, rest')) : rest' = rest := by
  cases x with
  | null | boolean | number | list => injection h
  | string s =>
    cases s with
    | none => injection h
    | some s =>
      rw [tokens, List.singleton_append, name] at h
      split at h
      · injection h with h
        injection h with _ h
        exact h.symm
      · injection h
  | object members =>
    cases members with
    | nil => injection h
    | cons m ms =>
      obtain ⟨key, x⟩ := m
      cases key with
      | none => injection h
      | some key =>
        rw [tokens, memberTokens, List.append_assoc, List.cons_append, List.cons_append,
          List.cons_append, name] at h
        split at h
        · injection h
        · cases x with
          | null =>
            cases ms with
            | nil =>
              injection h with h
              injection h with _ h
              exact h.symm
            | cons m ms => injection h
          | boolean b => exact absurd h (refuse_ne_ok (.boolean b) "unit" _)
          | number m => exact absurd h (refuse_ne_ok (.number m) "unit" _)
          | string s => exact absurd h (refuse_ne_ok (.string s) "unit" _)
          | list xs => exact absurd h (refuse_ne_ok .openBracket "unit" _)
          | object ms => exact absurd h (refuse_ne_ok .openBrace "unit" _)

theorem exists_of_bind_eq_ok {α : Type} {r : Except DocumentFault (α × List JsonToken)}
    {g : α → Setting} {s : Setting} {rest : List JsonToken}
    (h : (r >>= fun p => pure (g p.1, p.2)) = .ok (s, rest)) : ∃ a, r = .ok (a, rest) ∧ s = g a := by
  cases r with
  | error fault => injection h
  | ok p =>
    injection h with h
    injection h with hs hrest
    exact ⟨p.1, by rw [← hrest], hs.symm⟩

/-- The value of a field is read in front of anything, as a setting of the field. -/
theorem setting_tokens_eq_ok {f : Field} {x : Json} {s : Setting} {rest rest' : List JsonToken}
    (h : setting f (x.tokens ++ rest) = .ok (s, rest')) : s.field = f ∧ rest' = rest := by
  cases f with
  | count field =>
    obtain ⟨n, hn, rfl⟩ := exists_of_bind_eq_ok (g := .count field) h
    exact ⟨rfl, word_tokens_eq_ok hn⟩
  | removalMode =>
    obtain ⟨mode, hmode, rfl⟩ := exists_of_bind_eq_ok (g := .removalMode) h
    exact ⟨rfl, name_tokens_eq_ok hmode⟩

/-! ### Members -/

theorem members_close (n : Nat) (first : Bool) (done : List Setting) (rest : List JsonToken) :
    members (n + 1) first done (.closeBrace :: rest) = .ok (done.reverse, rest) := rfl

/-- The member of a field, whether it is the first or stands behind a comma. -/
theorem members_field (n : Nat) (first : Bool) (done : List Setting) (f : Field) (x : Json)
    (ms : List (Option String × Json)) (rest : List JsonToken) :
    members (n + 1) first done (memberTokens first ((some f.name, x) :: ms) ++ rest) =
      if done.any (·.field == f) then .error (.repeatedField f.name)
      else (setting f (x.tokens ++ (memberTokens false ms ++ rest))).bind fun p =>
        members n false (p.1 :: done) p.2 := by
  cases first with
  | true =>
    rw [memberTokens, List.append_assoc, List.cons_append, List.cons_append, members]
    · simp only [Field.ofName?_name, pure_bind]
      rfl
    · exact fun _ h => by injection h with h; injection h
  | false =>
    rw [memberTokens, List.append_assoc, List.cons_append, List.cons_append, List.cons_append,
      members]
    simp only [Field.ofName?_name, pure_bind]
    rfl

/-- A member under another name. -/
theorem members_other {key : String} (hkey : Field.ofName? key = none) (n : Nat) (first : Bool)
    (done : List Setting) (x : Json) (ms : List (Option String × Json)) (rest : List JsonToken) :
    members (n + 1) first done (memberTokens first ((some key, x) :: ms) ++ rest) =
      members n false done (memberTokens false ms ++ rest) := by
  have hskip := skip_colon x (memberTokens false ms ++ rest)
  cases first with
  | true =>
    rw [memberTokens, List.append_assoc, List.cons_append, List.cons_append, members]
    · simp only [hkey, hskip, pure_bind]
    · exact fun _ h => by injection h with h; injection h
  | false =>
    rw [memberTokens, List.append_assoc, List.cons_append, List.cons_append, List.cons_append,
      members]
    simp only [hkey, hskip, pure_bind]

/-- A key with half of a surrogate pair ends reading. -/
theorem members_none (n : Nat) (first : Bool) (done : List Setting) (x : Json)
    (ms : List (Option String × Json)) (rest : List JsonToken) :
    members (n + 1) first done (memberTokens first ((none, x) :: ms) ++ rest) =
      .error .malformed := by
  cases first with
  | true => rfl
  | false => rfl

/-! ### No field twice -/

/-- A member of a field is read only while the field is free, and takes it. -/
theorem exists_of_members_field {n : Nat} {first : Bool} {done : List Setting} {f : Field}
    {x : Json} {ms : List (Option String × Json)} {rest : List JsonToken}
    {r : List Setting × List JsonToken}
    (h : members (n + 1) first done (memberTokens first ((some f.name, x) :: ms) ++ rest) = .ok r) :
    ¬ done.any (·.field == f) = true ∧
      ∃ s, s.field = f ∧ members n false (s :: done) (memberTokens false ms ++ rest) = .ok r := by
  rw [members_field] at h
  split at h
  · injection h
  · next hfree =>
    cases hs : setting f (x.tokens ++ (memberTokens false ms ++ rest)) with
    | error fault =>
      rw [hs] at h
      injection h
    | ok p =>
      obtain ⟨s, rest'⟩ := p
      obtain ⟨hf, rfl⟩ := setting_tokens_eq_ok hs
      rw [hs] at h
      exact ⟨hfree, s, hf, h⟩

/-- What has been read names a field once at most, counting the settings from
before. -/
theorem count_le_one_of_members {n : Nat} {first : Bool} {done : List Setting}
    {ms : List (Option String × Json)} {rest : List JsonToken} {r : List Setting × List JsonToken}
    (h : members n first done (memberTokens first ms ++ rest) = .ok r) (f : Field) :
    (ms.map Prod.fst).count (some f.name) + (if done.any (·.field == f) then 1 else 0) ≤ 1 := by
  induction ms generalizing n first done with
  | nil =>
    rw [List.map_nil, List.count_nil]
    split <;> decide
  | cons m ms ih =>
    obtain ⟨key, x⟩ := m
    cases n with
    | zero => injection h
    | succ n =>
      cases key with
      | none =>
        rw [members_none] at h
        injection h
      | some key =>
        rw [List.map_cons, List.count_cons]
        cases hg : Field.ofName? key with
        | none =>
          have hne : key ≠ f.name := by
            rintro rfl
            rw [Field.ofName?_name] at hg
            injection hg
          rw [members_other hg] at h
          rw [if_neg (by simpa using hne), Nat.add_zero]
          exact ih h
        | some g =>
          obtain rfl := Field.ofName?_eq_some_iff.1 hg
          obtain ⟨hfree, s, rfl, hread⟩ := exists_of_members_field h
          -- The setting that has joined those from before counts for its own field only.
          have hle := ih hread
          rw [List.any_cons] at hle
          by_cases hf : s.field = f
          · subst hf
            rw [beq_self_eq_true, Bool.true_or, if_pos rfl] at hle
            rw [if_pos (beq_self_eq_true _), if_neg hfree]
            exact hle
          · have hname : s.field.name ≠ f.name := fun h => hf (Field.name_injective h)
            rw [beq_eq_false_iff_ne.2 hf, Bool.false_or] at hle
            rw [if_neg (by simpa using hname), Nat.add_zero]
            exact hle

/-- An object that is read names no field twice. -/
theorem count_le_one_of_settings {ms : List (Option String × Json)}
    {r : List Setting × List JsonToken} (h : settings (Json.object ms).tokens = .ok r)
    (f : Field) : (ms.map Prod.fst).count (some f.name) ≤ 1 := by
  rw [tokens, List.cons_append, settings] at h
  exact Nat.le_of_add_right_le (count_le_one_of_members h f)

/-! ### The fields of a document -/

theorem length_le_length_memberTokens (first : Bool) (ms : List (Option String × Json)) :
    ms.length ≤ (memberTokens first ms).length := by
  induction ms generalizing first with
  | nil => exact Nat.zero_le _
  | cons m ms ih =>
    have hle := ih false
    cases first <;>
      simp only [memberTokens, List.length_cons, List.length_append] <;> omega

/-- The value of a field is read back. -/
theorem setting_scalar (v : Limits) (f : Field) (rest : List JsonToken) :
    setting f ((v.setting f).scalar.json.tokens ++ rest) = .ok (v.setting f, rest) := by
  cases f with
  | count field =>
    have hword : word ((Json.number (.ofInt (v.get field).toNat)).tokens ++ rest) =
        .ok (v.get field, rest) := by
      rw [tokens, List.singleton_append, word, JsonNumber.value?_ofInt_word]
      simp only [UInt64.ofNat_toNat]
    rw [setting]
    exact congrArg (· >>= fun p => pure (Setting.count field p.1, p.2)) hword
  | removalMode =>
    have hname : name RemovalMode.ofName? RemovalMode.names
        ((Json.string (some v.removalMode.name)).tokens ++ rest) = .ok (v.removalMode, rest) := by
      rw [tokens, List.singleton_append, name, RemovalMode.ofName?_name]
    rw [setting]
    exact congrArg (· >>= fun p => pure (Setting.removalMode p.1, p.2)) hname

/-- The members of a document are read to the settings of its fields, behind
those already read.  A field that is still to come is not among these. -/
theorem members_mentions (v : Limits) {n : Nat} {first : Bool} {done : List Setting}
    {mentions : List Mention} (rest : List JsonToken) (hn : mentions.length < n)
    (distinct : (mentions.map Mention.key).Nodup)
    (unknown : ∀ key value, Mention.other key value ∈ mentions → Field.ofName? key = none)
    (free : ∀ f, Mention.field f ∈ mentions → ∀ s ∈ done, s.field ≠ f) :
    members n first done
        (memberTokens first (mentions.map (Mention.json v)) ++ .closeBrace :: rest) =
      .ok (done.reverse ++ (mentions.filterMap Mention.field?).map v.setting, rest) := by
  induction mentions generalizing n first done with
  | nil =>
    obtain ⟨n, rfl⟩ := Nat.exists_eq_add_of_lt hn
    rw [List.map_nil, memberTokens, List.nil_append, members_close]
    simp
  | cons m mentions ih =>
    obtain ⟨n, rfl⟩ : ∃ k, n = k + 1 := ⟨n - 1, by omega⟩
    have hn' : mentions.length < n := Nat.lt_of_succ_lt_succ hn
    obtain ⟨hnew, distinct'⟩ := List.nodup_cons.1 distinct
    have unknown' : ∀ key value, Mention.other key value ∈ mentions → Field.ofName? key = none :=
      fun key value hm => unknown key value (List.mem_cons_of_mem _ hm)
    have free' : ∀ f, Mention.field f ∈ mentions → ∀ s ∈ done, s.field ≠ f :=
      fun f hm => free f (List.mem_cons_of_mem _ hm)
    cases m with
    | other key value =>
      exact (members_other (unknown key value List.mem_cons_self) n first done _ _ _).trans
        (ih hn' distinct' unknown' free')
    | field f =>
      have hfree : ¬ done.any (·.field == f) = true := by
        rw [List.any_eq_true]
        rintro ⟨s, hs, hf⟩
        exact free f List.mem_cons_self s hs (beq_iff_eq.1 hf)
      -- The field that is read now does not come again, for the keys are distinct.
      have hfree' : ∀ g, Mention.field g ∈ mentions → ∀ s ∈ v.setting f :: done, s.field ≠ g := by
        intro g hg s hs
        rcases List.mem_cons.1 hs with rfl | hs
        · rintro rfl
          exact hnew (List.mem_map.2 ⟨_, hg, congrArg Field.name (v.field_setting f)⟩)
        · exact free' g hg s hs
      have hstep := members_field n first done f (v.setting f).scalar.json
        (mentions.map (Mention.json v)) (.closeBrace :: rest)
      rw [if_neg hfree, setting_scalar] at hstep
      refine hstep.trans ((ih hn' distinct' unknown' hfree').trans ?_)
      rw [List.reverse_cons, List.append_assoc]
      rfl

/-- A document in JSON gives the settings of its fields. -/
theorem settings_document (doc : Document) (v : Limits) :
    settings (doc.json v).tokens = .ok (doc.settings v, []) := by
  rw [Document.json, tokens, List.cons_append, settings,
    members_mentions v [] ?_ doc.distinct doc.unknown (by simp)]
  · rfl
  · have hle := length_le_length_memberTokens true (doc.mentions.map (Mention.json v))
    rw [List.length_map] at hle
    rw [List.length_append, List.length_singleton]
    exact Nat.lt_succ_of_le hle

end JsonReader

end StackItems
