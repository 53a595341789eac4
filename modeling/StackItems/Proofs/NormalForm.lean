/-
Reading and writing again.

A form is written back as it was, but for the integers in it: one that was padded
comes back in its shortest form.  So what is written is a normal form of what was
read, and padded integers are all that two forms of one tree can differ in.

* `HasPayload` — the byte strings that stand for integers in a form, as items or as
  keys;
* `Form.length_encode_le` — no form of a tree is shorter than the one that is
  written for it;
* `Form.encode_eq_iff` — a form is the one that is written for its tree exactly if
  all payloads in it are as short as their values allow;
* `serialize_deserialize` — **what was read is written, in no more bytes, and what
  is written is read as the same again.**

Design notes: the lengths of two forms of one tree are compared index by index; a
container of which one part is longer, and none is shorter, is longer.
-/
import StackItems.Proofs.RoundTrip

namespace StackItems

/-! ### Byte strings one behind the other -/

section

variable {fs gs : List (List UInt8)}

theorem length_flatten_le (size : fs.length = gs.length)
    (each : ∀ (i : Nat) (f g : List UInt8),
      fs[i]? = some f → gs[i]? = some g → f.length ≤ g.length) :
    fs.flatten.length ≤ gs.flatten.length := by
  induction fs generalizing gs with
  | nil => simp
  | cons f fs ih =>
    cases gs with
    | nil => simp at size
    | cons g gs =>
      have hfirst : f.length ≤ g.length := each 0 f g rfl rfl
      have hrest := ih (by simpa using size) fun i => each (i + 1)
      simp only [List.flatten_cons, List.length_append]
      omega

theorem length_flatten_lt (size : fs.length = gs.length)
    (each : ∀ (i : Nat) (f g : List UInt8),
      fs[i]? = some f → gs[i]? = some g → f.length ≤ g.length)
    {i : Nat} {f g : List UInt8} (hf : fs[i]? = some f) (hg : gs[i]? = some g)
    (shorter : f.length < g.length) : fs.flatten.length < gs.flatten.length := by
  induction fs generalizing gs i with
  | nil => simp at hf
  | cons f' fs ih =>
    cases gs with
    | nil => simp at size
    | cons g' gs =>
      have size' : fs.length = gs.length := by simpa using size
      have hfirst : f'.length ≤ g'.length := each 0 f' g' rfl rfl
      simp only [List.flatten_cons, List.length_append]
      cases i with
      | zero =>
        simp only [List.getElem?_cons_zero, Option.some_inj] at hf hg
        subst hf hg
        have hrest := length_flatten_le size' fun i => each (i + 1)
        omega
      | succ i =>
        have hrest := ih size' (fun i => each (i + 1)) hf hg
        omega

end

namespace Tree

/-! ### The payloads of integers -/

/-- A byte string that stands for an integer at some place of a form. -/
inductive HasPayload (limits : Limits) :
    (depth : Nat) → (form : List UInt8) → Tree → (payload : List UInt8) → Prop where
  | integer {depth : Nat} {length payload : List UInt8}
      (sized : VarInt.Shortest length payload.length) (small : payload.length ≤ 32) :
      HasPayload limits depth (0x21 :: (length ++ payload))
        (.prim (.integer (TwosComplement.signExtended payload))) payload
  | element {depth : Nat} {kind : SeqKind} {count : List UInt8} {forms : List (List UInt8)}
      {children : List Tree} {i : Nat} {form : List UInt8} {t : Tree} {payload : List UInt8}
      (room : depth < limits.maxStructDepth.toNat)
      (counted : VarInt.Shortest count children.length) (size : forms.length = children.length)
      (each : ∀ (i : Nat) (form : List UInt8) (t : Tree),
        forms[i]? = some form → children[i]? = some t → Form limits (depth + 1) form t)
      (hform : forms[i]? = some form) (ht : children[i]? = some t)
      (inside : HasPayload limits (depth + 1) form t payload) :
      HasPayload limits depth (kind.opener :: (count ++ forms.flatten)) (.seq kind children)
        payload
  | entry {depth : Nat} {count : List UInt8} {forms : List (List UInt8 × List UInt8)}
      {entries : List (Primitive × Tree)} {i : Nat} {form : List UInt8 × List UInt8}
      {e : Primitive × Tree} {part payload : List UInt8} {t : Tree}
      (room : depth < limits.maxStructDepth.toNat)
      (counted : VarInt.Shortest count entries.length) (size : forms.length = entries.length)
      (distinct : (entries.map Prod.fst).Nodup)
      (each : ∀ (i : Nat) (form : List UInt8 × List UInt8) (e : Primitive × Tree),
        forms[i]? = some form → entries[i]? = some e →
          Form limits (depth + 1) form.1 (.prim e.1) ∧ Form limits (depth + 1) form.2 e.2)
      (hform : forms[i]? = some form) (he : entries[i]? = some e)
      (keyOrValue : (part, t) = (form.1, .prim e.1) ∨ (part, t) = (form.2, e.2))
      (inside : HasPayload limits (depth + 1) part t payload) :
      HasPayload limits depth (0x48 :: (count ++ forms.flatMap fun form => form.1 ++ form.2))
        (.map entries) payload

variable {limits : Limits} {depth : Nat} {bs payload : List UInt8} {t : Tree}

/-! ### What is written for a form -/

theorem encode_seq_eq {kind : SeqKind} {count : List UInt8} {children : List Tree}
    (counted : VarInt.Shortest count children.length) :
    (Tree.seq kind children).encode = kind.opener :: (count ++ (children.map encode).flatten) := by
  rw [encode, encodeAll_eq, SeqKind.tag_kind, counted.eq_encode]

/-- The key and the value of an entry, as they are written. -/
def encodeEntry (e : Primitive × Tree) : List UInt8 := e.1.encode ++ e.2.encode

theorem encode_map_eq {count : List UInt8} {entries : List (Primitive × Tree)}
    (counted : VarInt.Shortest count entries.length) :
    (Tree.map entries).encode = 0x48 :: (count ++ (entries.map encodeEntry).flatten) := by
  rw [encode, encodeEntries_eq, counted.eq_encode, List.flatMap_map]
  rfl

theorem encode_integer_eq (n : Int) :
    (Tree.prim (.integer n)).encode
      = 0x21 :: (VarInt.encode (TwosComplement.encode n).length ++ TwosComplement.encode n) := by
  rw [encode]
  rfl

theorem encode_bytes_eq {length : List UInt8} (sized : VarInt.Shortest length payload.length) :
    (Tree.prim (.bytes payload)).encode = 0x28 :: (length ++ payload) := by
  rw [sized.eq_encode, encode]
  rfl

/-- The length of a payload of an integer takes one byte. -/
theorem length_integerForm {length : List UInt8} (sized : VarInt.Shortest length payload.length)
    (small : payload.length ≤ 32) : (0x21 :: (length ++ payload)).length = 2 + payload.length := by
  have hone : length.length = 1 := by
    rw [sized.eq_encode, VarInt.encode, if_pos (by omega), List.length_singleton]
  rw [List.length_cons, List.length_append, hone]
  omega

/-- An integer is written in as many bytes fewer than its form has as its payload is
longer than the shortest one. -/
theorem length_encode_integer {length : List UInt8}
    (sized : VarInt.Shortest length payload.length) (small : payload.length ≤ 32) :
    (Tree.prim (.integer (TwosComplement.signExtended payload))).encode.length + payload.length
      = (0x21 :: (length ++ payload)).length
        + (TwosComplement.encode (TwosComplement.signExtended payload)).length := by
  have hsmall : (TwosComplement.encode (TwosComplement.signExtended payload)).length ≤ 32 :=
    Nat.le_trans (TwosComplement.length_encode_signExtended_le payload) small
  have hform := length_integerForm sized small
  have hwritten := length_integerForm (VarInt.shortest_encode (by omega)) hsmall
  rw [encode_integer_eq, hwritten, hform]
  omega

/-! ### Lengths of forms -/

theorem length_encode_children_le {forms : List (List UInt8)} {children : List Tree}
    (each : ∀ (i : Nat) (form : List UInt8) (t : Tree),
      forms[i]? = some form → children[i]? = some t → t.encode.length ≤ form.length)
    (i : Nat) (f g : List UInt8) (hf : (children.map encode)[i]? = some f)
    (hg : forms[i]? = some g) : f.length ≤ g.length := by
  rw [List.getElem?_map, Option.map_eq_some_iff] at hf
  obtain ⟨t, ht, rfl⟩ := hf
  exact each i g t hg ht

theorem length_encode_entries_le {forms : List (List UInt8 × List UInt8)}
    {entries : List (Primitive × Tree)}
    (each : ∀ (i : Nat) (form : List UInt8 × List UInt8) (e : Primitive × Tree),
      forms[i]? = some form → entries[i]? = some e →
        (Tree.prim e.1).encode.length ≤ form.1.length ∧ e.2.encode.length ≤ form.2.length)
    (i : Nat) (f g : List UInt8) (hf : (entries.map encodeEntry)[i]? = some f)
    (hg : (forms.map fun form => form.1 ++ form.2)[i]? = some g) : f.length ≤ g.length := by
  rw [List.getElem?_map, Option.map_eq_some_iff] at hf hg
  obtain ⟨e, he, rfl⟩ := hf
  obtain ⟨form, hform, rfl⟩ := hg
  obtain ⟨hkey, hvalue⟩ := each i form e hform he
  rw [encode] at hkey
  simp only [encodeEntry, List.length_append]
  omega

/-- No form of a tree is shorter than the one that is written for it. -/
theorem Form.length_encode_le (form : Form limits depth bs t) : t.encode.length ≤ bs.length := by
  induction form with
  | boolean b => cases b <;> exact Nat.le_refl 2
  | @integer _ length payload sized small =>
    have hlen := length_encode_integer sized small
    have hle := TwosComplement.length_encode_signExtended_le payload
    omega
  | @bytes _ length payload sized small => rw [encode_bytes_eq sized]
  | @seq _ kind count forms children room counted size each ih =>
    have hflat := length_flatten_le (by rw [List.length_map, size])
      (length_encode_children_le ih)
    rw [encode_seq_eq counted]
    simp only [List.length_cons, List.length_append]
    omega
  | @map _ count forms entries room counted size distinct keys values ihkeys ihvalues =>
    have hflat := length_flatten_le (by rw [List.length_map, List.length_map, size])
      (length_encode_entries_le fun i form e hform he =>
        ⟨ihkeys i form e hform he, ihvalues i form e hform he⟩)
    rw [encode_map_eq counted, List.flatMap_def]
    simp only [List.length_cons, List.length_append]
    omega

/-- A form with a padded integer in it is longer than the one that is written. -/
theorem HasPayload.length_encode_lt (has : HasPayload limits depth bs t payload)
    (padded : ¬ TwosComplement.IsShortest payload) : t.encode.length < bs.length := by
  induction has with
  | @integer _ length payload sized small =>
    have hlen := length_encode_integer sized small
    have hlt : (TwosComplement.encode (TwosComplement.signExtended payload)).length
        < payload.length := by
      by_contra hge
      apply padded
      intro bs' same
      have hle := TwosComplement.length_encode_signExtended_le bs'
      rw [same] at hle
      omega
    omega
  | @element _ kind count forms children i form t payload room counted size each hform ht
      inside ih =>
    have hchild : (children.map encode)[i]? = some t.encode := by rw [List.getElem?_map, ht]; rfl
    have hflat := length_flatten_lt (by rw [List.length_map, size])
      (length_encode_children_le fun i form t hform ht => (each i form t hform ht).length_encode_le)
      hchild hform (ih padded)
    rw [encode_seq_eq counted]
    simp only [List.length_cons, List.length_append]
    omega
  | @entry _ count forms entries i form e part payload t room counted size distinct each hform he
      keyOrValue inside ih =>
    have hlt := ih padded
    obtain ⟨hkey, hvalue⟩ := each i form e hform he
    have hkeyle := hkey.length_encode_le
    have hvaluele := hvalue.length_encode_le
    have hpart : (encodeEntry e).length < (form.1 ++ form.2).length := by
      rw [encode] at hkeyle
      simp only [encodeEntry, List.length_append]
      rcases keyOrValue with heq | heq
      · injection heq with hpart ht
        rw [hpart, ht, encode] at hlt
        omega
      · injection heq with hpart ht
        rw [hpart, ht] at hlt
        omega
    have hentry : (entries.map encodeEntry)[i]? = some (encodeEntry e) := by
      rw [List.getElem?_map, he]
      rfl
    have hforms : (forms.map fun form => form.1 ++ form.2)[i]? = some (form.1 ++ form.2) := by
      rw [List.getElem?_map, hform]
      rfl
    have hflat := length_flatten_lt (by rw [List.length_map, List.length_map, size])
      (length_encode_entries_le fun i form e hform he =>
        ⟨(each i form e hform he).1.length_encode_le, (each i form e hform he).2.length_encode_le⟩)
      hentry hforms hpart
    rw [encode_map_eq counted, List.flatMap_def]
    simp only [List.length_cons, List.length_append]
    omega

/-! ### Forms without padding -/

/-- A form whose integers are all in their shortest form is the one that is written. -/
theorem Form.encode_eq (form : Form limits depth bs t)
    (shortest : ∀ payload, HasPayload limits depth bs t payload →
      TwosComplement.IsShortest payload) : t.encode = bs := by
  induction form with
  | boolean b => cases b <;> rfl
  | @integer _ length payload sized small =>
    have hwritten := TwosComplement.isShortest_iff.1 (shortest payload (.integer sized small))
    rw [encode_integer_eq, hwritten, ← sized.eq_encode]
  | @bytes _ length payload sized small => exact encode_bytes_eq sized
  | @seq _ kind count forms children room counted size each ih =>
    have hforms : children.map encode = forms := by
      apply eq_of_getElem? (by rw [List.length_map, size])
      intro i f form hf hform
      rw [List.getElem?_map, Option.map_eq_some_iff] at hf
      obtain ⟨t, ht, rfl⟩ := hf
      apply ih i form t hform ht
      intro payload inside
      exact shortest payload (.element room counted size each hform ht inside)
    rw [encode_seq_eq counted, hforms]
  | @map _ count forms entries room counted size distinct keys values ihkeys ihvalues =>
    have hforms : entries.map encodeEntry = forms.map fun form => form.1 ++ form.2 := by
      apply eq_of_getElem? (by rw [List.length_map, List.length_map, size])
      intro i f g hf hg
      rw [List.getElem?_map, Option.map_eq_some_iff] at hf hg
      obtain ⟨e, he, rfl⟩ := hf
      obtain ⟨form, hform, rfl⟩ := hg
      have inEntry : ∀ {part payload t},
          (part, t) = (form.1, .prim e.1) ∨ (part, t) = (form.2, e.2) →
            HasPayload limits _ part t payload → TwosComplement.IsShortest payload :=
        fun keyOrValue inside => shortest _ (.entry room counted size distinct
          (fun i form e hform he => ⟨keys i form e hform he, values i form e hform he⟩)
          hform he keyOrValue inside)
      have hkey := ihkeys i form e hform he fun _ => inEntry (.inl rfl)
      have hvalue := ihvalues i form e hform he fun _ => inEntry (.inr rfl)
      rw [encode] at hkey
      rw [encodeEntry, hkey, hvalue]
    rw [encode_map_eq counted, hforms, List.flatMap_def]

/-- A form is the one that is written for its tree exactly if no integer in it is
padded. -/
theorem Form.encode_eq_iff (form : Form limits depth bs t) :
    t.encode = bs ↔ ∀ payload, HasPayload limits depth bs t payload →
      TwosComplement.IsShortest payload := by
  constructor
  · intro written payload has
    by_contra padded
    have hlt := has.length_encode_lt padded
    rw [written] at hlt
    exact Nat.lt_irrefl _ hlt
  · exact form.encode_eq

end Tree

namespace Heap

open StackItems.Tree (HasPayload)

/-! ### Writing what was read -/

/-- What was read is written within the same limits, in no more bytes than it was read
from, and what is written is read as the same again and written as it was.  It is what
was read exactly if every payload of an integer there is as short as its value allows. -/
theorem serialize_deserialize {store h : Heap} {limits : Limits} {b : List UInt8} {x : Item}
    (hread : (store.deserialize limits b).result = .ok (x, h)) :
    ∃ t c, h.Unfolds x t ∧ (h.serialize limits x).result = .ok c ∧ c.length ≤ b.length ∧
      (∀ store' : Heap, ∃ y h', (store'.deserialize limits c).result = .ok (y, h') ∧
        h'.unfolding y = h.unfolding x ∧ (h'.serialize limits y).result = .ok c) ∧
      (c = b ↔ ∀ payload, HasPayload limits 0 b t payload →
        TwosComplement.IsShortest payload) := by
  obtain ⟨t, hform, hsize, carries⟩ := deserialize_carries hread
  have hwrite : (h.serialize limits x).result = .ok t.encode :=
    serialize_eq_ok_iff.2 ⟨t, carries.shows, hform.storable, hsize, rfl⟩
  have hlt : t.size < 2 ^ 64 := Nat.lt_of_le_of_lt hsize limits.maxItems.toNat_lt
  refine ⟨t, t.encode, carries.shows, hwrite, hform.length_encode_le, ?_, hform.encode_eq_iff⟩
  intro store'
  have hread' : (store'.deserialize limits t.encode).result = .ok (t.build store') :=
    deserialize_eq_ok_iff.2 ⟨t, Tree.form_encode hform.storable hlt, hsize, rfl⟩
  have carries' := Tree.build_carries hform.storable store'
  have hwrite' : ((t.build store').2.serialize limits (t.build store').1).result
      = .ok t.encode :=
    serialize_eq_ok_iff.2 ⟨t, carries'.shows, hform.storable, hsize, rfl⟩
  exact ⟨_, _, hread', carries.shows.unfolding_eq carries'.shows, hwrite'⟩

/-- A map with one entry, whose key, the integer seven, is padded by a byte. -/
def paddedKey : List UInt8 := [0x48, 1, 0x21, 2, 7, 0, 0x41, 1, 0x20, 1]

/-- The padding of a key is gone after the key was read and written. -/
theorem serialize_deserialize_paddedKey :
    ∃ x h, (empty.deserialize .default paddedKey).result = .ok (x, h) ∧
      (h.serialize .default x).result = .ok [0x48, 1, 0x21, 1, 7, 0x41, 1, 0x20, 1] ∧
      ∃ t payload, HasPayload .default 0 paddedKey t payload ∧
        ¬ TwosComplement.IsShortest payload := by
  obtain ⟨x, h, hread⟩ : ∃ x h, (empty.deserialize .default paddedKey).result = .ok (x, h) :=
    ⟨_, _, rfl⟩
  have hwrite : (h.serialize .default x).result
      = .ok [0x48, 1, 0x21, 1, 7, 0x41, 1, 0x20, 1] := by
    injection hread with hread
    injection hread with hx hh
    subst hx hh
    rfl
  obtain ⟨t, c, -, hc, -, -, same⟩ := serialize_deserialize hread
  have hne : c ≠ paddedKey := by
    rw [hwrite] at hc
    injection hc with hc
    subst hc
    decide
  refine ⟨x, h, hread, hwrite, t, ?_⟩
  by_contra none
  refine hne (same.2 fun payload has => ?_)
  by_contra padded
  exact none ⟨payload, has, padded⟩

end Heap

end StackItems
