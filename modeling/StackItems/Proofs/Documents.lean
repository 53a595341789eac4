/-
Documents about limits.

A document names some of the fields of limits, each once, and may have members
under other names; the order is its own.

* `Document` — the members of a document;
* `Mention.entry` — the key and the value of a member, when the fields have the
  values of given limits;
* `inQuotes`, `Scalar.text` — how both formats write strings and other values;
* `Limits.withFieldsOf` — limits in which some fields are replaced by those of
  others;
* `Document.ofSettings_settings` — the settings of a document give the default
  limits with the fields replaced that it names.

Design notes: a document does not hold the values of the fields.  It says only
which fields stand where, so the same document can be filled from any limits.
-/
import StackItems.Settings

namespace StackItems

/-- A value without parts. -/
inductive Scalar where
  | integer (n : Int)
  | boolean (b : Bool)
  | string (s : String)
  deriving DecidableEq

/-- The value of a setting. -/
def Setting.scalar : Setting → Scalar
  | .count _ n => .integer n.toNat
  | .removalMode mode => .string mode.name

/-- A member of a document: a field of limits, or a value under another name. -/
inductive Mention where
  | field (f : Field)
  | other (key : String) (value : Scalar)
  deriving DecidableEq

namespace Mention

/-- The key of a member. -/
def key : Mention → String
  | field f => f.name
  | other key _ => key

/-- The key and the value of a member; a field has its value in the limits. -/
def entry (v : Limits) : Mention → String × Scalar
  | field f => (f.name, (v.setting f).scalar)
  | other key value => (key, value)

/-- The field that a member names, if it names one. -/
def field? : Mention → Option Field
  | field f => some f
  | other _ _ => none

@[simp] theorem fst_entry (v : Limits) (m : Mention) : (m.entry v).1 = m.key := by
  cases m <;> rfl

end Mention

/-- A document: its members in order, with distinct keys.  A member that is not
a field of limits does not have the name of one. -/
structure Document where
  mentions : List Mention
  distinct : (mentions.map Mention.key).Nodup
  unknown : ∀ key value, Mention.other key value ∈ mentions → Field.ofName? key = none

/-! ### Names of fields -/

theorem Field.ofName?_eq_some_iff {s : String} {f : Field} :
    Field.ofName? s = some f ↔ s = f.name := by
  constructor
  · intro h
    have hname := List.find?_some h
    exact (beq_iff_eq.1 hname).symm
  · rintro rfl
    exact Field.ofName?_name f

theorem Field.name_injective : Function.Injective Field.name := by
  intro f g h
  have hf := Field.ofName?_name f
  rw [h, Field.ofName?_name g] at hf
  exact (Option.some.inj hf).symm

theorem Limits.field_setting (v : Limits) (f : Field) : (v.setting f).field = f := by
  cases f <;> rfl

/-! ### Limits with fields replaced -/

/-- The limits in which some fields are replaced by those of other limits. -/
def Limits.withFieldsOf (base v : Limits) (fields : List Field) : Limits where
  maxStructDepth :=
    if .count .maxStructDepth ∈ fields then v.maxStructDepth else base.maxStructDepth
  maxCloneLength :=
    if .count .maxCloneLength ∈ fields then v.maxCloneLength else base.maxCloneLength
  maxComparableItems :=
    if .count .maxComparableItems ∈ fields then v.maxComparableItems else base.maxComparableItems
  maxItemSize := if .count .maxItemSize ∈ fields then v.maxItemSize else base.maxItemSize
  maxItems := if .count .maxItems ∈ fields then v.maxItems else base.maxItems
  removalMode := if .removalMode ∈ fields then v.removalMode else base.removalMode

theorem Limits.withFieldsOf_cons (base v : Limits) (f : Field) (fields : List Field) :
    base.withFieldsOf v (f :: fields) = (base.set (v.setting f)).withFieldsOf v fields := by
  cases f with
  | count field => cases field <;> simp [withFieldsOf, setting, set, get]
  | removalMode => simp [withFieldsOf, setting, set]

theorem Limits.foldl_set (v : Limits) (fields : List Field) (base : Limits) :
    (fields.map v.setting).foldl set base = base.withFieldsOf v fields := by
  induction fields generalizing base with
  | nil => simp [withFieldsOf]
  | cons f fields ih => rw [List.map_cons, List.foldl_cons, ih, withFieldsOf_cons]

/-! ### Values as texts -/

/-- A character as it is written in a string: a quote and a backslash behind a
backslash, and a control character as its code point. -/
def spellChar (c : Char) : List Char :=
  if c = '"' ∨ c = '\\' then ['\\', c]
  else if c.toNat < 0x20 ∨ c.toNat = 0x7F then
    ['\\', 'u', '0', '0', Nat.digitChar (c.toNat / 16), Nat.digitChar (c.toNat % 16)]
  else [c]

/-- A text as a string. -/
def inQuotes (s : String) : String := String.ofList ('"' :: s.toList.flatMap spellChar ++ ['"'])

/-- A value as a text. -/
def Scalar.text : Scalar → String
  | integer n => toString n
  | boolean true => "true"
  | boolean false => "false"
  | string s => inQuotes s

theorem toList_inQuotes_append (s : String) (rest : List Char) :
    (inQuotes s).toList ++ rest = '"' :: (s.toList.flatMap spellChar ++ '"' :: rest) := by
  rw [inQuotes, String.toList_ofList, List.append_assoc, List.cons_append, List.singleton_append]

/-- A text without characters that need an escape only gets quotes around it. -/
theorem inQuotes_eq {s : String} (h : s.toList.flatMap spellChar = s.toList) :
    inQuotes s = "\"" ++ s ++ "\"" := by
  rw [inQuotes, h, ← String.toList_inj]
  simp

theorem Field.inQuotes_name (f : Field) : inQuotes f.name = "\"" ++ f.name ++ "\"" := by
  apply inQuotes_eq
  cases f with
  | count field => cases field <;> decide
  | removalMode => decide

theorem RemovalMode.inQuotes_name (mode : RemovalMode) :
    inQuotes mode.name = "\"" ++ mode.name ++ "\"" := by
  apply inQuotes_eq
  cases mode <;> decide

namespace Document

/-- The fields that a document names. -/
def fields (doc : Document) : List Field := doc.mentions.filterMap Mention.field?

/-- The settings of a document that is filled from limits. -/
def settings (doc : Document) (v : Limits) : List Setting := doc.fields.map v.setting

theorem ofSettings_settings (doc : Document) (v : Limits) :
    Limits.ofSettings (doc.settings v) = Limits.default.withFieldsOf v doc.fields :=
  Limits.foldl_set v doc.fields .default

/-- The document that names all fields in their order and nothing else. -/
def complete : Document where
  mentions := Field.all.map .field
  distinct := by decide
  unknown := by simp

end Document

theorem Limits.withFieldsOf_complete (base v : Limits) :
    base.withFieldsOf v Document.complete.fields = v := by
  cases v
  rfl

end StackItems
