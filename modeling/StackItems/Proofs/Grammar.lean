/-
The grammar of stored items.

`Form` says which byte strings are forms of a tree: a tag byte, then a truth value
in one byte, a length and so many bytes, or a count and the forms of so many
items, keys and values in turn for a map.  Lengths and counts are as short as
possible; an integer may be padded.

* `Form` — the grammar;
* `takes_readAt` — the reader of trees takes exactly the forms of the grammar, at
  every depth;
* `decode_eq_ok_iff` — a whole input is accepted exactly if it is the form of a
  tree whose items do not exceed the budget.

Design notes: the reader refuses a count early, if the budget cannot hold so many
items.  Every item costs at least one unit, so a form that is within the budget is
never refused for its count.
-/
import StackItems.Proofs.Readers
import StackItems.Proofs.SignExtension
import StackItems.Proofs.Unfolding

namespace StackItems

/-- The byte that opens a form of a sequence. -/
def SeqKind.opener : SeqKind → UInt8
  | .array => 0x40
  | .struct => 0x41

theorem SeqKind.tag_kind (kind : SeqKind) : kind.kind.tag = kind.opener := by cases kind <;> rfl

/-- The byte strings that are forms of a tree whose root lies at a depth. -/
inductive Tree.Form (limits : Limits) : (depth : Nat) → List UInt8 → Tree → Prop where
  | boolean {depth : Nat} (b : Bool) :
      Form limits depth [0x20, if b then 1 else 0] (.prim (.boolean b))
  | integer {depth : Nat} {length payload : List UInt8}
      (sized : VarInt.Shortest length payload.length) (small : payload.length ≤ 32) :
      Form limits depth (0x21 :: (length ++ payload))
        (.prim (.integer (TwosComplement.signExtended payload)))
  | bytes {depth : Nat} {length payload : List UInt8}
      (sized : VarInt.Shortest length payload.length)
      (small : payload.length ≤ limits.maxItemSize.toNat) :
      Form limits depth (0x28 :: (length ++ payload)) (.prim (.bytes payload))
  | seq {depth : Nat} {kind : SeqKind} {count : List UInt8} {forms : List (List UInt8)}
      {children : List Tree} (room : depth < limits.maxStructDepth.toNat)
      (counted : VarInt.Shortest count children.length) (size : forms.length = children.length)
      (each : ∀ (i : Nat) (form : List UInt8) (t : Tree),
        forms[i]? = some form → children[i]? = some t → Form limits (depth + 1) form t) :
      Form limits depth (kind.opener :: (count ++ forms.flatten)) (.seq kind children)
  | map {depth : Nat} {count : List UInt8} {forms : List (List UInt8 × List UInt8)}
      {entries : List (Primitive × Tree)} (room : depth < limits.maxStructDepth.toNat)
      (counted : VarInt.Shortest count entries.length) (size : forms.length = entries.length)
      (distinct : (entries.map Prod.fst).Nodup)
      (keys : ∀ (i : Nat) (form : List UInt8 × List UInt8) (e : Primitive × Tree),
        forms[i]? = some form → entries[i]? = some e →
          Form limits (depth + 1) form.1 (.prim e.1))
      (values : ∀ (i : Nat) (form : List UInt8 × List UInt8) (e : Primitive × Tree),
        forms[i]? = some form → entries[i]? = some e → Form limits (depth + 1) form.2 e.2) :
      Form limits depth
        (0x48 :: (count ++ forms.flatMap fun form => form.1 ++ form.2)) (.map entries)

namespace Tree

open Reader

variable {limits : Limits} {depth : Nat} {c c' : Cursor}

/-- A form of a tree, with the number of items that it takes from the budget. -/
def Spells (limits : Limits) (depth : Nat) (form : List UInt8) (t : Tree) (k : Nat) : Prop :=
  Form limits depth form t ∧ k = t.size

/-! ### The readers of trees -/

theorem readBoolean_eq_ok_iff {p : Primitive} :
    readBoolean c = .ok (p, c') ↔
      ∃ b : Bool, p = .boolean b ∧ c.input = (if b then 1 else 0) :: c'.input ∧
        c'.budget = c.budget := by
  rw [readBoolean, bind_eq_ok_iff]
  constructor
  · rintro ⟨b, d, hb, hrest⟩
    obtain ⟨hinput, hbudget⟩ := byte_eq_ok_iff.1 hb
    split at hrest
    · next h =>
      obtain ⟨rfl, rfl⟩ := pure_eq_ok_iff.1 hrest
      subst h
      exact ⟨false, rfl, hinput, hbudget⟩
    · split at hrest
      · next h =>
        obtain ⟨rfl, rfl⟩ := pure_eq_ok_iff.1 hrest
        subst h
        exact ⟨true, rfl, hinput, hbudget⟩
      · exact (fail_ne_ok hrest).elim
  · rintro ⟨b, rfl, hinput, hbudget⟩
    refine ⟨if b then 1 else 0, c', byte_eq_ok_iff.2 ⟨hinput, hbudget⟩, ?_⟩
    cases b
    · exact pure_eq_ok_iff.2 ⟨rfl, rfl⟩
    · exact pure_eq_ok_iff.2 ⟨rfl, rfl⟩

theorem readInteger_eq_ok_iff {p : Primitive} :
    readInteger c = .ok (p, c') ↔
      ∃ length payload, p = .integer (TwosComplement.signExtended payload) ∧
        VarInt.Shortest length payload.length ∧ payload.length ≤ 32 ∧
        c.input = length ++ payload ++ c'.input ∧ c'.budget = c.budget := by
  rw [readInteger, bind_eq_ok_iff]
  constructor
  · rintro ⟨payload, d, hpayload, hp⟩
    obtain ⟨rfl, rfl⟩ := pure_eq_ok_iff.1 hp
    obtain ⟨length, hlength, hsmall, hinput, hbudget⟩ := sized_eq_ok_iff.1 hpayload
    rw [TwosComplement.decode_eq_signExtended]
    exact ⟨length, payload, rfl, hlength, hsmall, hinput, hbudget⟩
  · rintro ⟨length, payload, rfl, hlength, hsmall, hinput, hbudget⟩
    refine ⟨payload, c', sized_eq_ok_iff.2 ⟨length, hlength, hsmall, hinput, hbudget⟩, ?_⟩
    rw [TwosComplement.decode_eq_signExtended]
    exact pure_eq_ok_iff.2 ⟨rfl, rfl⟩

theorem readSeq_eq_ok_iff {element : Reader Tree}
    (takes : Takes limits element (Spells limits depth)) {kind : SeqKind} {t : Tree}
    (hc : c.budget ≤ limits.maxItems.toNat) :
    readSeq limits kind element c = .ok (t, c') ↔
      ∃ count forms children k, t = .seq kind children ∧
        VarInt.Shortest count children.length ∧ Each (Spells limits depth) forms children k ∧
        c.input = count ++ forms.flatten ++ c'.input ∧ c.budget = k + c'.budget := by
  rw [readSeq, bind_eq_ok_iff]
  constructor
  · rintro ⟨n, d, hn, hrest⟩
    obtain ⟨ts, d', hts, ht⟩ := bind_eq_ok_iff.1 hrest
    obtain ⟨rfl, rfl⟩ := pure_eq_ok_iff.1 ht
    obtain ⟨-, hbudget, count, hcount, -, hinput⟩ := count_eq_ok_iff.1 hn
    obtain ⟨forms, new, k, hnew, rfl, heach, hinput', hbudget'⟩ :=
      (times_eq_ok_iff takes (by omega)).1 hts
    obtain rfl : ts = new := hnew
    refine ⟨count, forms, ts, k, rfl, hcount, heach, ?_, by omega⟩
    rw [hinput, hinput', List.append_assoc]
  · rintro ⟨count, forms, children, k, rfl, hcount, heach, hinput, hbudget⟩
    -- Every child costs at least one unit, so the count is within the budget.
    have hlen : 1 * children.length ≤ k := heach.mul_length_le fun form t k hk => by
      have := t.size_pos
      rw [hk.2]
      omega
    have hn : Reader.count limits 1 c
        = .ok (children.length, ⟨forms.flatten ++ c'.input, c.budget⟩) := by
      refine count_eq_ok_iff.2 ⟨by rw [Nat.div_one]; omega, rfl, count, hcount, by omega, ?_⟩
      rw [hinput, List.append_assoc]
    have hc₁ : (⟨forms.flatten ++ c'.input, c.budget⟩ : Cursor).budget ≤ limits.maxItems.toNat :=
      hc
    refine ⟨children.length, _, hn, bind_eq_ok_iff.2 ⟨children, c', ?_, ?_⟩⟩
    · exact (times_eq_ok_iff takes hc₁).2 ⟨forms, children, k, rfl, rfl, heach, rfl, hbudget⟩
    · exact pure_eq_ok_iff.2 ⟨rfl, rfl⟩

theorem readMap_eq_ok_iff {item : Reader Tree}
    (takes : Takes limits item (Spells limits depth)) {t : Tree}
    (hc : c.budget ≤ limits.maxItems.toNat) :
    readMap limits item c = .ok (t, c') ↔
      ∃ count forms entries k, t = .map entries ∧ VarInt.Shortest count entries.length ∧
        Each (EntryForm (Spells limits depth)) forms entries k ∧
        (entries.map Prod.fst).Nodup ∧
        c.input = count ++ (forms.flatMap fun form => form.1 ++ form.2) ++ c'.input ∧
        c.budget = k + c'.budget := by
  have hnil : (([] : List (Primitive × Tree)).map Prod.fst).Nodup := .nil
  rw [readMap, bind_eq_ok_iff]
  constructor
  · rintro ⟨n, d, hn, hrest⟩
    obtain ⟨es, d', hes, ht⟩ := bind_eq_ok_iff.1 hrest
    obtain ⟨rfl, rfl⟩ := pure_eq_ok_iff.1 ht
    obtain ⟨-, hbudget, count, hcount, -, hinput⟩ := count_eq_ok_iff.1 hn
    obtain ⟨forms, new, k, hnew, rfl, heach, hnodup, hinput', hbudget'⟩ :=
      (entries_eq_ok_iff takes hnil (by omega)).1 hes
    obtain rfl : es = new := hnew
    refine ⟨count, forms, es, k, rfl, hcount, heach, hnodup, ?_, by omega⟩
    rw [hinput, hinput', List.append_assoc]
  · rintro ⟨count, forms, entries, k, rfl, hcount, heach, hnodup, hinput, hbudget⟩
    -- An entry is two items, so twice the count is within the budget.
    have hlen : 2 * entries.length ≤ k := heach.mul_length_le fun form e k hk => by
      obtain ⟨i, j, ⟨-, hi⟩, ⟨-, hj⟩, hk⟩ := hk
      have := e.2.size_pos
      rw [size] at hi
      omega
    have hn : Reader.count limits 2 c = .ok (entries.length,
        ⟨(forms.flatMap fun form => form.1 ++ form.2) ++ c'.input, c.budget⟩) := by
      refine count_eq_ok_iff.2 ⟨by omega, rfl, count, hcount, by omega, ?_⟩
      rw [hinput, List.append_assoc]
    have hc₁ : (⟨(forms.flatMap fun form => form.1 ++ form.2) ++ c'.input, c.budget⟩ :
        Cursor).budget ≤ limits.maxItems.toNat := hc
    refine ⟨entries.length, _, hn, bind_eq_ok_iff.2 ⟨entries, c', ?_, ?_⟩⟩
    · exact (entries_eq_ok_iff takes hnil hc₁).2
        ⟨forms, entries, k, rfl, rfl, heach, hnodup, rfl, hbudget⟩
    · exact pure_eq_ok_iff.2 ⟨rfl, rfl⟩

/-! ### Forms one by one -/

theorem each_spells_iff {forms : List (List UInt8)} {ts : List Tree} {k : Nat} :
    Each (Spells limits depth) forms ts k ↔
      forms.length = ts.length ∧
        (∀ (i : Nat) (form : List UInt8) (t : Tree),
          forms[i]? = some form → ts[i]? = some t → Form limits depth form t) ∧
        k = sizeAll ts :=
  each_iff sizeAll rfl fun _ _ => rfl

theorem each_entryForm_iff {forms : List (List UInt8 × List UInt8)}
    {es : List (Primitive × Tree)} {k : Nat} :
    Each (EntryForm (Spells limits depth)) forms es k ↔
      forms.length = es.length ∧
        (∀ (i : Nat) (form : List UInt8 × List UInt8) (e : Primitive × Tree),
          forms[i]? = some form → es[i]? = some e →
            Form limits depth form.1 (.prim e.1) ∧ Form limits depth form.2 e.2) ∧
        k = sizeEntries es := by
  -- The cost of an entry is a function of it: one for the key, and the size of the value.
  have entry : EntryForm (Spells limits depth) = fun form e k =>
      (Form limits depth form.1 (.prim e.1) ∧ Form limits depth form.2 e.2) ∧
        k = 1 + e.2.size := by
    funext form e k
    apply propext
    constructor
    · rintro ⟨i, j, ⟨hkey, rfl⟩, ⟨hvalue, rfl⟩, rfl⟩
      exact ⟨⟨hkey, hvalue⟩, by rw [size]⟩
    · rintro ⟨⟨hkey, hvalue⟩, rfl⟩
      exact ⟨_, _, ⟨hkey, rfl⟩, ⟨hvalue, rfl⟩, by rw [size]⟩
  rw [entry]
  exact each_iff sizeEntries rfl sizeEntries_cons

/-! ### The reader of trees -/

/-- What the reader of trees reads behind the tag of a kind. -/
def readBody (limits : Limits) (depth : Nat) (inner : Option (Reader Tree)) :
    Kind → Reader Tree
  | .boolean => do return .prim (← readBoolean)
  | .integer => do return .prim (← readInteger)
  | .bytes => do return .prim (.bytes (← Reader.sized limits.maxItemSize))
  | .array => inner.elim (Reader.stop (.depth depth)) (readSeq limits .array)
  | .struct => inner.elim (Reader.stop (.depth depth)) (readSeq limits .struct)
  | .map => inner.elim (Reader.stop (.depth depth)) (readMap limits)
  | .interop => Reader.fail (.unsupported .interop)

theorem readWith_of_tag {inner : Option (Reader Tree)} {kind : Kind} {n : Nat}
    {rest : List UInt8} :
    readWith limits depth inner ⟨kind.tag :: rest, n + 1⟩
      = readBody limits depth inner kind ⟨rest, n⟩ := by
  have hspend : Reader.spend ⟨kind.tag :: rest, n + 1⟩ = .ok ((), ⟨kind.tag :: rest, n⟩) := rfl
  have hbyte : Reader.byte ⟨kind.tag :: rest, n⟩ = .ok (kind.tag, ⟨rest, n⟩) := rfl
  rw [readWith, bind_of_ok hspend, bind_of_ok hbyte, Kind.ofTag?_tag]
  cases kind <;> cases inner <;> rfl

theorem readWith_eq_ok_iff {inner : Option (Reader Tree)} {t : Tree} :
    readWith limits depth inner c = .ok (t, c') ↔
      ∃ kind d, c.input = kind.tag :: d.input ∧ c.budget = 1 + d.budget ∧
        readBody limits depth inner kind d = .ok (t, c') := by
  rw [readWith, bind_eq_ok_iff]
  constructor
  · rintro ⟨_, d, hspend, hrest⟩
    obtain ⟨tag, d', htag, hbody⟩ := bind_eq_ok_iff.1 hrest
    obtain ⟨hinput, hbudget⟩ := spend_eq_ok_iff.1 hspend
    obtain ⟨hinput', hbudget'⟩ := byte_eq_ok_iff.1 htag
    cases hkind : Kind.ofTag? tag with
    | none =>
      rw [hkind] at hbody
      exact (fail_ne_ok hbody).elim
    | some kind =>
      rw [hkind] at hbody
      obtain rfl := Kind.ofTag?_eq_some_iff.1 hkind
      refine ⟨kind, d', hinput.symm.trans hinput', by omega, ?_⟩
      cases kind <;> cases inner <;> exact hbody
  · rintro ⟨kind, d, hinput, hbudget, hbody⟩
    refine ⟨(), ⟨c.input, d.budget⟩, spend_eq_ok_iff.2 ⟨rfl, hbudget⟩, ?_⟩
    refine bind_eq_ok_iff.2 ⟨kind.tag, d, byte_eq_ok_iff.2 ⟨hinput, rfl⟩, ?_⟩
    rw [Kind.ofTag?_tag]
    cases kind <;> cases inner <;> exact hbody

/-- There is a reader of what a container holds exactly above the limit of nesting,
and it takes the forms of the next depth. -/
def Reaches (limits : Limits) (depth : Nat) : Option (Reader Tree) → Prop
  | none => ¬ depth < limits.maxStructDepth.toNat
  | some inner =>
    depth < limits.maxStructDepth.toNat ∧ Takes limits inner (Spells limits (depth + 1))

section

variable {inner : Option (Reader Tree)}

theorem form_of_readSeq (reaches : Reaches limits depth inner) {kind : SeqKind} {t : Tree}
    (hc : c.budget ≤ limits.maxItems.toNat)
    (hrun : inner.elim (Reader.stop (.depth depth)) (readSeq limits kind) c = .ok (t, c')) :
    ∃ form k, Form limits depth (kind.kind.tag :: form) t ∧ t.size = 1 + k ∧
      c.input = form ++ c'.input ∧ c.budget = k + c'.budget := by
  rw [SeqKind.tag_kind]
  cases inner with
  | none => exact (stop_ne_ok (c := c) hrun).elim
  | some inner =>
    obtain ⟨room, takes⟩ := reaches
    obtain ⟨count, forms, children, k, rfl, counted, heach, hinput, hbudget⟩ :=
      (readSeq_eq_ok_iff takes hc).1 hrun
    obtain ⟨hlen, each, rfl⟩ := each_spells_iff.1 heach
    exact ⟨_, _, .seq room counted hlen each, by rw [size], hinput, hbudget⟩

theorem form_of_readMap (reaches : Reaches limits depth inner) {t : Tree}
    (hc : c.budget ≤ limits.maxItems.toNat)
    (hrun : inner.elim (Reader.stop (.depth depth)) (readMap limits) c = .ok (t, c')) :
    ∃ form k, Form limits depth (Kind.map.tag :: form) t ∧ t.size = 1 + k ∧
      c.input = form ++ c'.input ∧ c.budget = k + c'.budget := by
  cases inner with
  | none => exact (stop_ne_ok (c := c) hrun).elim
  | some inner =>
    obtain ⟨room, takes⟩ := reaches
    obtain ⟨count, forms, entries, k, rfl, counted, heach, distinct, hinput, hbudget⟩ :=
      (readMap_eq_ok_iff takes hc).1 hrun
    obtain ⟨hlen, each, rfl⟩ := each_entryForm_iff.1 heach
    exact ⟨_, _, .map room counted hlen distinct
      (fun i form e hform he => (each i form e hform he).1)
      fun i form e hform he => (each i form e hform he).2, by rw [size], hinput, hbudget⟩

theorem form_of_readBody (reaches : Reaches limits depth inner) {kind : Kind} {t : Tree}
    (hc : c.budget ≤ limits.maxItems.toNat)
    (hrun : readBody limits depth inner kind c = .ok (t, c')) :
    ∃ form k, Form limits depth (kind.tag :: form) t ∧ t.size = 1 + k ∧
      c.input = form ++ c'.input ∧ c.budget = k + c'.budget := by
  cases kind with
  | boolean =>
    obtain ⟨p, d, hp, ht⟩ := bind_eq_ok_iff.1 hrun
    obtain ⟨rfl, rfl⟩ := pure_eq_ok_iff.1 ht
    obtain ⟨b, rfl, hinput, hbudget⟩ := readBoolean_eq_ok_iff.1 hp
    exact ⟨_, 0, .boolean b, by rw [size], hinput, by omega⟩
  | integer =>
    obtain ⟨p, d, hp, ht⟩ := bind_eq_ok_iff.1 hrun
    obtain ⟨rfl, rfl⟩ := pure_eq_ok_iff.1 ht
    obtain ⟨length, payload, rfl, sized, small, hinput, hbudget⟩ := readInteger_eq_ok_iff.1 hp
    exact ⟨_, 0, .integer sized small, by rw [size], hinput, by omega⟩
  | bytes =>
    obtain ⟨bs, d, hbs, ht⟩ := bind_eq_ok_iff.1 hrun
    obtain ⟨rfl, rfl⟩ := pure_eq_ok_iff.1 ht
    obtain ⟨length, sized, small, hinput, hbudget⟩ := sized_eq_ok_iff.1 hbs
    exact ⟨_, 0, .bytes sized small, by rw [size], hinput, by omega⟩
  | array => exact form_of_readSeq reaches hc hrun
  | struct => exact form_of_readSeq reaches hc hrun
  | map => exact form_of_readMap reaches hc hrun
  | interop => exact (fail_ne_ok (c := c) hrun).elim

theorem readBody_of_form (reaches : Reaches limits depth inner) {bs : List UInt8} {t : Tree}
    (form : Form limits depth bs t) :
    ∃ kind body, bs = kind.tag :: body ∧ ∀ c c' : Cursor, c.budget ≤ limits.maxItems.toNat →
      c.input = body ++ c'.input → 1 + c.budget = t.size + c'.budget →
        readBody limits depth inner kind c = .ok (t, c') := by
  cases form with
  | boolean b =>
    refine ⟨.boolean, _, rfl, fun c c' _ hinput hbudget => ?_⟩
    rw [size] at hbudget
    exact bind_eq_ok_iff.2 ⟨_, c', readBoolean_eq_ok_iff.2 ⟨b, rfl, hinput, by omega⟩,
      pure_eq_ok_iff.2 ⟨rfl, rfl⟩⟩
  | integer sized small =>
    refine ⟨.integer, _, rfl, fun c c' _ hinput hbudget => ?_⟩
    rw [size] at hbudget
    exact bind_eq_ok_iff.2 ⟨_, c', readInteger_eq_ok_iff.2
      ⟨_, _, rfl, sized, small, hinput, by omega⟩, pure_eq_ok_iff.2 ⟨rfl, rfl⟩⟩
  | bytes sized small =>
    refine ⟨.bytes, _, rfl, fun c c' _ hinput hbudget => ?_⟩
    rw [size] at hbudget
    exact bind_eq_ok_iff.2 ⟨_, c', sized_eq_ok_iff.2 ⟨_, sized, small, hinput, by omega⟩,
      pure_eq_ok_iff.2 ⟨rfl, rfl⟩⟩
  | @seq _ kind count forms children room counted hlen each =>
    refine ⟨kind.kind, _, by rw [SeqKind.tag_kind], fun c c' hc hinput hbudget => ?_⟩
    rw [size] at hbudget
    cases inner with
    | none => exact absurd room reaches
    | some inner =>
      have heach := each_spells_iff.2 ⟨hlen, each, rfl⟩
      have hread : readSeq limits kind inner c = .ok (.seq kind children, c') :=
        (readSeq_eq_ok_iff reaches.2 hc).2
          ⟨count, forms, children, _, rfl, counted, heach, hinput, by omega⟩
      cases kind
      · exact hread
      · exact hread
  | @map _ count forms entries room counted hlen distinct keys values =>
    refine ⟨.map, _, rfl, fun c c' hc hinput hbudget => ?_⟩
    rw [size] at hbudget
    cases inner with
    | none => exact absurd room reaches
    | some inner =>
      have heach := each_entryForm_iff.2 ⟨hlen, fun i form e hform he =>
        ⟨keys i form e hform he, values i form e hform he⟩, rfl⟩
      exact (readMap_eq_ok_iff reaches.2 hc).2
        ⟨count, forms, entries, _, rfl, counted, heach, distinct, hinput, by omega⟩

theorem takes_readWith (reaches : Reaches limits depth inner) :
    Takes limits (readWith limits depth inner) (Spells limits depth) := by
  intro c t c' hc
  rw [readWith_eq_ok_iff]
  constructor
  · rintro ⟨kind, d, hinput, hbudget, hbody⟩
    obtain ⟨form, k, hform, hsize, hinput', hbudget'⟩ :=
      form_of_readBody reaches (by omega) hbody
    refine ⟨kind.tag :: form, t.size, ⟨hform, rfl⟩, ?_, by omega⟩
    rw [hinput, hinput', List.cons_append]
  · rintro ⟨form, k, ⟨hform, rfl⟩, hinput, hbudget⟩
    obtain ⟨kind, body, rfl, hread⟩ := readBody_of_form reaches hform
    have hpos := t.size_pos
    refine ⟨kind, ⟨body ++ c'.input, t.size - 1 + c'.budget⟩, hinput, ?_, ?_⟩
    · show c.budget = 1 + (t.size - 1 + c'.budget)
      omega
    · refine hread _ c' ?_ rfl ?_
      · show t.size - 1 + c'.budget ≤ _
        omega
      · show 1 + (t.size - 1 + c'.budget) = _
        omega

end

theorem takes_readAt {room depth : Nat} (hd : depth + room = limits.maxStructDepth.toNat) :
    Takes limits (readAt limits room depth) (Spells limits depth) := by
  -- Room and depth add up to the limit, so there is no room exactly at the limit.
  induction room generalizing depth with
  | zero =>
    rw [readAt]
    apply takes_readWith
    show ¬ depth < limits.maxStructDepth.toNat
    omega
  | succ room ih =>
    rw [readAt]
    apply takes_readWith
    exact ⟨by omega, ih (by omega)⟩

/-- A whole input is accepted exactly if it is the form of a tree whose items the
budget holds, and then as that tree. -/
theorem decode_eq_ok_iff {input : List UInt8} {t : Tree} :
    decode limits input = .ok t ↔
      Form limits 0 input t ∧ t.size ≤ limits.maxItems.toNat := by
  have takes := @takes_readAt limits _ 0 (Nat.zero_add _)
    ⟨input, limits.maxItems.toNat⟩
  constructor
  · intro h
    rw [decode] at h
    split at h
    · exact absurd h (by simp)
    · next t' rest hread =>
      split at h
      -- Nothing is left behind the form, so the form is the whole input.
      · next hrest =>
        injection h with h
        subst h
        obtain ⟨form, k, ⟨hform, rfl⟩, hinput, hbudget⟩ := (takes _ _ (Nat.le_refl _)).1 hread
        rw [List.isEmpty_iff.1 hrest, List.append_nil] at hinput
        obtain rfl : input = form := hinput
        have hbudget : limits.maxItems.toNat = t'.size + rest.budget := hbudget
        exact ⟨hform, by omega⟩
      · exact absurd h (by simp)
  · rintro ⟨hform, hsize⟩
    have hread := (takes t ⟨[], limits.maxItems.toNat - t.size⟩ (Nat.le_refl _)).2
      ⟨input, t.size, ⟨hform, rfl⟩, (List.append_nil _).symm, (Nat.add_sub_cancel' hsize).symm⟩
    rw [decode, hread]
    rfl

end Tree

end StackItems
