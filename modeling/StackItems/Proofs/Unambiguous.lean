/-
Forms and trees under different limits.

* `Form.storable`, `form_encode` — a tree of an acceptable size has a form within
  limits exactly if it is storable within them, and `encode` writes one;
* `Form.mono` — larger limits admit all forms that smaller ones admit;
* `Form.unique` — no byte string is a form of two trees, whatever the limits under
  which it is read.

Design notes: the reader gives at most one tree, so under one and the same limits
a byte string has one tree.  Two limits are compared under a third that is larger
than both.
-/
import StackItems.Proofs.Grammar
import StackItems.Proofs.Storable

namespace StackItems

/-! ### Larger limits -/

namespace Limits

/-- What may be stored within the first limits may be stored within the second. -/
structure Within (limits limits' : Limits) : Prop where
  depth : limits.maxStructDepth.toNat ≤ limits'.maxStructDepth.toNat
  itemSize : limits.maxItemSize.toNat ≤ limits'.maxItemSize.toNat
  items : limits.maxItems.toNat ≤ limits'.maxItems.toNat

/-- The larger of two words. -/
theorem exists_word_ge (a b : UInt64) : ∃ c : UInt64, a.toNat ≤ c.toNat ∧ b.toNat ≤ c.toNat := by
  rcases Nat.le_total a.toNat b.toNat with h | h
  · exact ⟨b, h, Nat.le_refl _⟩
  · exact ⟨a, Nat.le_refl _, h⟩

theorem exists_within (limits limits' : Limits) :
    ∃ wide : Limits, limits.Within wide ∧ limits'.Within wide := by
  obtain ⟨depth, hd, hd'⟩ := exists_word_ge limits.maxStructDepth limits'.maxStructDepth
  obtain ⟨size, hs, hs'⟩ := exists_word_ge limits.maxItemSize limits'.maxItemSize
  obtain ⟨items, hi, hi'⟩ := exists_word_ge limits.maxItems limits'.maxItems
  refine ⟨{ maxStructDepth := depth, maxItemSize := size, maxItems := items }, ?_, ?_⟩
  · exact ⟨hd, hs, hi⟩
  · exact ⟨hd', hs', hi'⟩

end Limits

namespace Tree

variable {limits limits' : Limits} {depth : Nat} {bs : List UInt8} {t t' : Tree}

/-- Of the limits, only those of nesting and of byte strings decide what is a form. -/
theorem Form.of_le (form : Form limits depth bs t)
    (hdepth : limits.maxStructDepth.toNat ≤ limits'.maxStructDepth.toNat)
    (hsize : limits.maxItemSize.toNat ≤ limits'.maxItemSize.toNat) : Form limits' depth bs t := by
  induction form with
  | boolean b => exact .boolean b
  | integer sized small => exact .integer sized small
  | bytes sized small => exact .bytes sized (small.trans hsize)
  | seq room counted size each ih => exact .seq (Nat.lt_of_lt_of_le room hdepth) counted size ih
  | map room counted size distinct keys values ihkeys ihvalues =>
    exact .map (Nat.lt_of_lt_of_le room hdepth) counted size distinct ihkeys ihvalues

theorem Form.mono (form : Form limits depth bs t) (within : limits.Within limits') :
    Form limits' depth bs t :=
  form.of_le within.depth within.itemSize

/-- No byte string is a form of two trees. -/
theorem Form.unique (a : Form limits 0 bs t) (b : Form limits' 0 bs t')
    (ha : t.size ≤ limits.maxItems.toNat) (hb : t'.size ≤ limits'.maxItems.toNat) : t = t' := by
  -- Within limits that are wide enough, the reader gives both trees, and gives only one.
  obtain ⟨wide, hw, hw'⟩ := limits.exists_within limits'
  have hread : decode wide bs = .ok t :=
    decode_eq_ok_iff.2 ⟨a.mono hw, ha.trans hw.items⟩
  have hread' : decode wide bs = .ok t' :=
    decode_eq_ok_iff.2 ⟨b.mono hw', hb.trans hw'.items⟩
  rw [hread] at hread'
  exact Except.ok.inj hread'

/-! ### What has a form is storable -/

theorem Form.storable (form : Form limits depth bs t) : Storable limits depth t := by
  induction form with
  | boolean b => exact .prim rfl
  -- The payload may be padded, but the value has a form that is no longer.
  | @integer _ length payload sized small =>
    have hw := TwosComplement.width_decode_le payload
    rw [TwosComplement.decode_eq_signExtended] at hw
    refine .prim (if_neg ?_)
    rw [maxIntegerSize]
    omega
  | bytes sized small => exact .prim (if_neg (Nat.not_lt.2 small))
  | seq room counted size each ih => exact .seq room (forall_mem_of_getElem? size ih)
  | @map _ _ _ entries room counted size distinct keys values ihkeys ihvalues =>
    have small : ∀ e ∈ entries, e.1.storageFault? limits = none := by
      refine forall_mem_of_getElem? size fun i form e hform he => ?_
      cases ihkeys i form e hform he with
      | prim small => exact small
    exact .map room distinct small (forall_mem_of_getElem? size ihvalues)

/-! ### What is storable has a form -/

theorem form_encode_prim {p : Primitive} (small : p.storageFault? limits = none) :
    Form limits depth p.encode (.prim p) := by
  cases p with
  | boolean b => cases b <;> exact .boolean _
  | integer n =>
    have hw : TwosComplement.width n ≤ 32 := by
      rw [Primitive.storageFault?, ite_eq_right_iff] at small
      exact Nat.le_of_not_lt fun h => absurd (small h) (by simp)
    have hlen := TwosComplement.length_encode n
    have form : Form limits depth _ _ := .integer
      (VarInt.shortest_encode (n := (TwosComplement.encode n).length) (by omega)) (by omega)
    rwa [← TwosComplement.decode_eq_signExtended, TwosComplement.decode_encode] at form
  | bytes bs =>
    have hw : bs.length ≤ limits.maxItemSize.toNat := by
      rw [Primitive.storageFault?, ite_eq_right_iff] at small
      exact Nat.le_of_not_lt fun h => absurd (small h) (by simp)
    have hlt : bs.length < 2 ^ 64 := Nat.lt_of_le_of_lt hw limits.maxItemSize.toNat_lt
    exact .bytes (VarInt.shortest_encode hlt) hw

theorem encodeAll_eq (ts : List Tree) : encodeAll ts = (ts.map encode).flatten := by
  induction ts with
  | nil => rfl
  | cons t ts ih => rw [encodeAll, ih, List.map_cons, List.flatten_cons]

theorem encodeEntries_eq (es : List (Primitive × Tree)) :
    encodeEntries es
      = (es.map fun e => (e.1.encode, e.2.encode)).flatMap fun form => form.1 ++ form.2 := by
  induction es with
  | nil => rfl
  | cons e es ih =>
    obtain ⟨k, t⟩ := e
    rw [encodeEntries, ih, List.map_cons, List.flatMap_cons, List.append_assoc]

theorem length_le_sizeAll (ts : List Tree) : ts.length ≤ sizeAll ts := by
  induction ts with
  | nil => exact Nat.le_refl 0
  | cons t ts ih =>
    have := t.size_pos
    rw [sizeAll, List.length_cons]
    omega

/-- An entry has a key and a value, so it counts for two at least. -/
theorem two_mul_length_le_sizeEntries (es : List (Primitive × Tree)) :
    2 * es.length ≤ sizeEntries es := by
  induction es with
  | nil => exact Nat.le_refl 0
  | cons e es ih =>
    have := e.2.size_pos
    rw [sizeEntries_cons, List.length_cons]
    omega

theorem size_le_sizeAll {ts : List Tree} (ht : t ∈ ts) : t.size ≤ sizeAll ts := by
  induction ht with
  | head ts => rw [sizeAll]; omega
  | tail _ _ ih => rw [sizeAll]; omega

theorem size_le_sizeEntries {es : List (Primitive × Tree)} {e : Primitive × Tree}
    (he : e ∈ es) : e.2.size ≤ sizeEntries es := by
  induction he with
  | head es => rw [sizeEntries_cons]; omega
  | tail _ _ ih => rw [sizeEntries_cons]; omega

/-- A storable tree that is not too large to be counted has the form that `encode`
writes. -/
theorem form_encode (ht : Storable limits depth t) (hsize : t.size < 2 ^ 64) :
    Form limits depth t.encode t := by
  -- No count is larger than the size of the tree, so every count has a shortest form.
  induction ht with
  | prim small => rw [encode]; exact form_encode_prim small
  | @seq _ kind children room each ih =>
    rw [size] at hsize
    have hlen := length_le_sizeAll children
    rw [encode, encodeAll_eq, SeqKind.tag_kind]
    refine .seq room (VarInt.shortest_encode (by omega)) (by rw [List.length_map]) ?_
    intro i form t hform ht
    rw [List.getElem?_map, ht, Option.map_some, Option.some_inj] at hform
    subst hform
    have hmem := List.mem_of_getElem? ht
    have := size_le_sizeAll hmem
    exact ih t hmem (by omega)
  | @map _ entries room distinct small each ih =>
    rw [size] at hsize
    have hlen := two_mul_length_le_sizeEntries entries
    rw [encode, encodeEntries_eq]
    refine .map room (VarInt.shortest_encode (by omega)) (by rw [List.length_map]) distinct ?_ ?_
    · intro i form e hform he
      rw [List.getElem?_map, he, Option.map_some, Option.some_inj] at hform
      subst hform
      exact form_encode_prim (small e (List.mem_of_getElem? he))
    · intro i form e hform he
      rw [List.getElem?_map, he, Option.map_some, Option.some_inj] at hform
      subst hform
      have hmem := List.mem_of_getElem? he
      have := size_le_sizeEntries hmem
      exact ih e hmem (by omega)

end Tree

end StackItems
