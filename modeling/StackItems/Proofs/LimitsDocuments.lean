/-
Limits from documents.

A document overrides the fields that it names, in whatever order and between
whatever other members, and leaves the rest at their defaults.

* `ofJson_of_tokens`, `ofToml_of_members` — this holds of every text that has the
  tokens, or the members, of the document;
* `ofJson_repeated` — an object that names a field twice is refused;
* `overrides_exactly` — **documents in both formats override exactly the fields
  that they name, limits survive being written, and no field is named twice.**

Design notes: an integer of a configuration file has 64 bits and a sign, and the
text is read as a whole.  So the bound on integers is one on all members of a
document and not only on its fields (`wide_integer_refused`).
-/
import StackItems.Proofs.JsonText
import StackItems.Proofs.TomlLines

namespace StackItems

namespace Document

/-! ### Both formats -/

/-- A text with the tokens of a document gives the limits of the document. -/
theorem ofJson_of_tokens (doc : Document) (v : Limits) {text : String}
    (h : JsonToken.ofText text = (doc.json v).tokens) :
    Limits.ofJson text = .ok (Limits.default.withFieldsOf v doc.fields) := by
  rw [Limits.ofJson, Setting.ofJson, JsonReader.whole, h, JsonReader.settings_document,
    ← ofSettings_settings]
  rfl

/-- A text with the members of a document gives the limits of the document. -/
theorem ofToml_of_members (doc : Document) (v : Limits) {text : String}
    (h : Members.ofToml? text = some (doc.members v)) :
    Limits.ofToml text = .ok (Limits.default.withFieldsOf v doc.fields) := by
  have hsettings : Setting.ofToml text = .ok (doc.settings v) := by
    rw [Setting.ofToml, h]
    exact doc.settings_members v
  rw [Limits.ofToml, hsettings, ← ofSettings_settings]
  rfl

end Document

/-! ### Limits that are written and read -/

theorem Limits.ofJson_toJson (v : Limits) : Limits.ofJson v.toJson = .ok v := by
  rw [v.toJson_eq, Document.complete.ofJson_of_tokens v (Document.complete.ofText_toJson v),
    withFieldsOf_complete]

/-- Limits whose numbers fit are read back from their settings as lines. -/
theorem Limits.ofToml_settings {v : Limits} (hfits : ∀ field, (v.get field).toNat < 2 ^ 63) :
    Limits.ofToml (String.join (Field.all.map fun f => (v.setting f).toToml)) = .ok v := by
  have htext : String.join (Field.all.map fun f => (v.setting f).toToml) =
      Document.complete.toToml v := by
    rw [Document.toToml, Document.complete, List.map_map,
      List.map_congr_left fun f _ => Setting.toToml_setting v f]
    rfl
  have hall : ∀ m ∈ Document.complete.mentions, (m.entry v).2.Fits := by
    intro m hm
    obtain ⟨f, -, rfl⟩ := List.mem_map.1 hm
    cases f with
    | count field =>
      have h := hfits field
      change -2 ^ 63 ≤ ((v.get field).toNat : Int) ∧ ((v.get field).toNat : Int) ≤ 2 ^ 63 - 1
      omega
    | removalMode => exact trivial
  rw [htext, Document.complete.ofToml_of_members v (Document.complete.ofToml?_toToml v hall),
    withFieldsOf_complete]

/-! ### Objects that name a field twice -/

theorem Limits.ofJson_repeated {text : String} {members : List (Option String × Json)} {f : Field}
    (h : JsonToken.ofText text = (Json.object members).tokens)
    (hf : 2 ≤ (members.map Prod.fst).count (some f.name)) :
    ∃ fault, Limits.ofJson text = .error fault := by
  cases hs : JsonReader.settings (Json.object members).tokens with
  | ok r => exact absurd (JsonReader.count_le_one_of_settings hs f) (Nat.not_le_of_lt hf)
  | error fault =>
    refine ⟨fault, ?_⟩
    rw [Limits.ofJson, Setting.ofJson, JsonReader.whole, h, hs]
    rfl

/-! ### The main result -/

namespace Document

/-- The object of a document, in every layout, gives the default limits with exactly the fields
replaced that the document names, and so do its lines if its integers fit.  Limits are read back
from their own text.  An object that names a field twice is refused, whatever else is in it. -/
theorem overrides_exactly (doc : Document) (v : Limits) :
    (∀ text, JsonToken.ofText text = (doc.json v).tokens →
      Limits.ofJson text = .ok (Limits.default.withFieldsOf v doc.fields)) ∧
    Limits.ofJson (doc.toJson v) = .ok (Limits.default.withFieldsOf v doc.fields) ∧
    ((∀ m ∈ doc.mentions, (m.entry v).2.Fits) →
      Limits.ofToml (doc.toToml v) = .ok (Limits.default.withFieldsOf v doc.fields)) ∧
    Limits.ofJson v.toJson = .ok v ∧
    ∀ text members (f : Field), JsonToken.ofText text = (Json.object members).tokens →
      2 ≤ (members.map Prod.fst).count (some f.name) →
        ∃ fault, Limits.ofJson text = .error fault := by
  refine ⟨fun text h => doc.ofJson_of_tokens v h, doc.ofJson_of_tokens v (doc.ofText_toJson v),
    fun hfits => doc.ofToml_of_members v (doc.ofToml?_toToml v hfits), v.ofJson_toJson,
    fun text members f h hf => Limits.ofJson_repeated h hf⟩

/-- A document of two fields with a note between them. -/
def noted : Document where
  mentions := [.field .removalMode, .other "a note" (.string "\"x\""), .field (.count .maxItems)]
  distinct := by decide
  unknown := by
    intro key value h
    obtain ⟨rfl, -⟩ : key = "a note" ∧ value = .string "\"x\"" := by simpa using h
    rfl

/-- Its limits come out alike from both formats; where its last field stood twice, none would. -/
theorem overrides_exactly_noted :
    Limits.ofJson
        "\x7b\"remove_at_mode\": \"legacy\", \"a note\": \"\\\"x\\\"\", \"max_items\": 9\x7d" =
      .ok { maxItems := 9, removalMode := .legacy } ∧
    Limits.ofToml "remove_at_mode = \"legacy\"\n\"a note\" = \"\\\"x\\\"\"\nmax_items = 9\n" =
      .ok { maxItems := 9, removalMode := .legacy } ∧
    ∃ fault, Limits.ofJson "\x7b\"max_items\": 1, \"max_items\": 1\x7d" = .error fault := by
  obtain ⟨hjson, -, htoml, -, hrepeated⟩ :=
    overrides_exactly noted { maxItems := 9, maxItemSize := 1, removalMode := .legacy }
  exact ⟨hjson _ (by decide), htoml (by decide),
    hrepeated _ [(some "max_items", .number (.ofInt 1)), (some "max_items", .number (.ofInt 1))]
      (.count .maxItems) (by decide) (by decide)⟩

/-! ### Integers that are too wide -/

/-- A document without fields, whose integer no configuration file can hold. -/
def wide : Document where
  mentions := [.other "x" (.integer (2 ^ 63))]
  distinct := by decide
  unknown := by
    intro key value h
    obtain ⟨rfl, -⟩ : key = "x" ∧ value = .integer (2 ^ 63) := by simpa using h
    rfl

/-- A bound on the fields alone does not keep a text well-formed: this one has no fields. -/
theorem wide_integer_refused :
    Limits.ofJson "\x7b\"x\":9223372036854775808\x7d" = .ok .default ∧
    Limits.ofToml "x = 9223372036854775808\n" = .error .malformed ∧
    ¬ ∀ (doc : Document) (v : Limits),
      (∀ field, .count field ∈ doc.fields → (v.get field).toNat ≤ 2 ^ 63 - 1) →
        Limits.ofToml (doc.toToml v) = .ok (Limits.default.withFieldsOf v doc.fields) := by
  have hrefused : Limits.ofToml (wide.toToml .default) = .error .malformed := by rfl
  refine ⟨by rfl, hrefused, fun h => ?_⟩
  have hnone : ∀ field, .count field ∉ wide.fields := by
    intro field
    simp [fields, wide, Mention.field?]
  have hread := h wide .default fun field hfield => absurd hfield (hnone field)
  rw [hrefused] at hread
  injection hread

end Document

end StackItems
