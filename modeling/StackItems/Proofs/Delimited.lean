/-
Stored forms end where they say.

A reader that is given a form without its end reads all that is there, finds nothing wrong
with it, and misses the rest.  A reader that is given more than a form stops behind the form.

* `Cut` — a list without some of its last elements, and `cut_append_cases`, the cut falls
  into the first of two parts or behind it;
* `RunsOut` — a reader that finds the end of the input in a form that is cut;
* `runsOut_readAt` — the reader of trees is one, at every depth;
* `deserialize_delimited` — **a stored item that is cut ends too early, one that is padded
  has bytes left over, and no stored item is the beginning of another.**

Design notes: a cut form is read up to the cut by what is known of the whole form, since the
parts in front of the cut are forms themselves.  The budget is one that holds the whole form,
so the reader never stops for the budget first.
-/
import StackItems.Proofs.RoundTrip

namespace StackItems

/-! ### Lists without their ends -/

section

variable {α : Type} {p a b : List α} {x : α}

/-- The first list is the second one without some of its last elements. -/
def Cut (p b : List α) : Prop := p <+: b ∧ p ≠ b

theorem not_cut_nil : ¬ Cut p [] := by
  rintro ⟨hp, hne⟩
  exact hne (List.prefix_nil.1 hp)

theorem Cut.length_lt (h : Cut p b) : p.length < b.length := by
  obtain ⟨⟨missing, rfl⟩, hne⟩ := h
  cases missing with
  | nil => simp at hne
  | cons m missing => simp

/-- A cut falls into the first of two parts, or into the second behind the first. -/
theorem cut_append_cases (h : Cut p (a ++ b)) : Cut p a ∨ ∃ q, p = a ++ q ∧ Cut q b := by
  obtain ⟨⟨missing, heq⟩, hne⟩ := h
  rcases List.append_eq_append_iff.1 heq with ⟨m, rfl, rfl⟩ | ⟨q, rfl, rfl⟩
  · by_cases hm : m = []
    · subst hm
      refine .inr ⟨[], by simp, List.nil_prefix, ?_⟩
      rintro rfl
      simp at hne
    · exact .inl ⟨List.prefix_append .., by simpa using hm⟩
  · refine .inr ⟨q, rfl, List.prefix_append .., ?_⟩
    intro hq
    exact hne (by rw [← hq])

theorem cut_cons_cases (h : Cut p (x :: b)) : p = [] ∨ ∃ q, p = x :: q ∧ Cut q b := by
  rcases cut_append_cases (a := [x]) h with hp | hp
  · have := hp.length_lt
    exact .inl (List.length_eq_zero_iff.1 (by simpa using this))
  · exact .inr hp

end

/-! ### Lengths -/

theorem takeBytes_of_lt {n : Nat} {input : List UInt8} (h : input.length < n) :
    takeBytes n input = .error .unexpectedEnd := by
  simp only [takeBytes, List.splitAt_eq, List.length_take]
  rw [if_neg (by omega)]

theorem VarInt.decode_of_cut {max : UInt64} {form p : List UInt8} {n : Nat}
    (h : Shortest form n) (hcut : Cut p form) : decode max p = .error .unexpectedEnd := by
  rcases h.cases_announced with ⟨b, -, rfl, -⟩ | ⟨marker, w, least, payload, hm, hw, -, rfl, -⟩
  · rcases cut_cons_cases hcut with rfl | ⟨q, -, hq⟩
    · rfl
    · exact absurd hq not_cut_nil
  · rcases cut_cons_cases hcut with rfl | ⟨q, rfl, hq⟩
    · rfl
    · have hlt := hq.length_lt
      rw [decode, hm]
      simp only [takeBytes_of_lt (hw ▸ hlt)]

namespace Reader

variable {α : Type} {c : Cursor} {limits : Limits}

/-! ### Readers that reach the end -/

/-- What a reader stops with when the input ends too early. -/
def endOfData : Halt := .fault (.format .unexpectedEnd)

theorem front_of_error {read : List UInt8 → Except FormatFault (α × List UInt8)}
    {cause : FormatFault} (h : read c.input = .error cause) :
    front read c = .error (.fault (.format cause)) := by
  rw [front, h]

theorem byte_of_nil (h : c.input = []) : byte c = .error endOfData := by
  apply front_of_error
  rw [h]

theorem sized_of_cut {max : UInt64} {length bs : List UInt8}
    (hlength : VarInt.Shortest length bs.length) (hmax : bs.length ≤ max.toNat)
    (hcut : Cut c.input (length ++ bs)) : sized max c = .error endOfData := by
  rcases cut_append_cases hcut with hcut | ⟨q, hinput, hq⟩
  · exact bind_of_error (front_of_error (VarInt.decode_of_cut hlength hcut))
  · have hread : front (VarInt.decode max) c = .ok (bs.length, ⟨q, c.budget⟩) :=
      front_eq_ok_iff.2 ⟨VarInt.decode_eq_ok_iff.2 ⟨length, hlength, hmax, hinput⟩, rfl⟩
    rw [sized, bind_of_ok hread]
    exact front_of_error (takeBytes_of_lt hq.length_lt)

theorem count_of_cut {share n : Nat} {form : List UInt8} (h : VarInt.Shortest form n)
    (hcut : Cut c.input form) : count limits share c = .error endOfData :=
  bind_of_error (front_of_error (VarInt.decode_of_cut h hcut))

/-- In a form that is cut the reader finds the end of the input, if its budget would hold
what the whole form costs. -/
def RunsOut (limits : Limits) (read : Reader α) (F : List UInt8 → α → Nat → Prop) : Prop :=
  ∀ (c : Cursor) (form : List UInt8) (a : α) (k : Nat), F form a k → Cut c.input form →
    k ≤ c.budget → c.budget ≤ limits.maxItems.toNat → read c = .error endOfData

section

variable {F : List UInt8 → Tree → Nat → Prop} {read : Reader Tree}

theorem times_of_cut (takes : Takes limits read F) (runs : RunsOut limits read F)
    {forms : List (List UInt8)} {ts done : List Tree} {k : Nat} (each : Each F forms ts k)
    (hcut : Cut c.input forms.flatten) (hk : k ≤ c.budget)
    (hc : c.budget ≤ limits.maxItems.toNat) :
    times read ts.length done c = .error endOfData := by
  induction each generalizing c done with
  | nil => exact absurd hcut not_cut_nil
  | @cons form t k forms ts k' first rest ih =>
    rw [List.length_cons, times]
    rw [List.flatten_cons] at hcut
    rcases cut_append_cases hcut with hcut | ⟨q, hinput, hq⟩
    · exact bind_of_error (runs c form t k first hcut (by omega) hc)
    · have hread : read c = .ok (t, ⟨q, c.budget - k⟩) :=
        (takes c t _ hc).2 ⟨form, k, first, hinput, by simp only; omega⟩
      rw [bind_of_ok hread]
      exact ih hq (by simp only; omega) (by simp only; omega)

/-- The form of an entry that is cut is read up to the cut. -/
theorem entries_of_cut (takes : Takes limits read F) (runs : RunsOut limits read F)
    {forms : List (List UInt8 × List UInt8)} {es done : List (Primitive × Tree)} {k : Nat}
    (each : Each (EntryForm F) forms es k) (hnodup : ((done.reverse ++ es).map Prod.fst).Nodup)
    (hcut : Cut c.input (forms.flatMap fun form => form.1 ++ form.2)) (hk : k ≤ c.budget)
    (hc : c.budget ≤ limits.maxItems.toNat) :
    entries read es.length done c = .error endOfData := by
  induction each generalizing c done with
  | nil => exact absurd hcut not_cut_nil
  | @cons form e k forms es k' first rest ih =>
    obtain ⟨i, j, hkey, hvalue, rfl⟩ := first
    rw [List.length_cons, entries]
    rw [List.flatMap_cons, List.append_assoc] at hcut
    rcases cut_append_cases hcut with hcut | ⟨q, hinput, hq⟩
    · exact bind_of_error (runs c form.1 _ i hkey hcut (by omega) hc)
    have hreadKey : read c = .ok (.prim e.1, ⟨q, c.budget - i⟩) :=
      (takes c _ _ hc).2 ⟨form.1, i, hkey, hinput, by simp only; omega⟩
    have hasKey : asKey (.prim e.1) ⟨q, c.budget - i⟩ = .ok (e.1, ⟨q, c.budget - i⟩) := rfl
    rw [bind_of_ok hreadKey, bind_of_ok hasKey]
    rcases cut_append_cases hq with hcut | ⟨q', hinput', hq'⟩
    · exact bind_of_error (runs ⟨q, c.budget - i⟩ form.2 _ j hvalue hcut
        (by simp only; omega) (by simp only; omega))
    have hreadValue : read ⟨q, c.budget - i⟩ = .ok (e.2, ⟨q', c.budget - i - j⟩) :=
      (takes ⟨q, c.budget - i⟩ _ _ (by simp only; omega)).2
        ⟨form.2, j, hvalue, hinput', by simp only; omega⟩
    rw [bind_of_ok hreadValue, if_neg (mt any_key_iff.1 (key_not_mem_of_nodup hnodup))]
    exact ih (by simpa using hnodup) hq' (by simp only; omega) (by simp only; omega)

end

end Reader

namespace Tree

open Reader

variable {limits : Limits} {depth : Nat} {c : Cursor}

/-! ### The reader of trees -/

theorem readSeq_of_cut {element : Reader Tree} (takes : Takes limits element (Spells limits depth))
    (runs : RunsOut limits element (Spells limits depth)) {kind : SeqKind} {count : List UInt8}
    {forms : List (List UInt8)} {children : List Tree}
    (counted : VarInt.Shortest count children.length)
    (each : Each (Spells limits depth) forms children (sizeAll children))
    (hcut : Cut c.input (count ++ forms.flatten)) (hk : sizeAll children ≤ c.budget)
    (hc : c.budget ≤ limits.maxItems.toNat) :
    readSeq limits kind element c = .error endOfData := by
  rcases cut_append_cases hcut with hcut | ⟨q, hinput, hq⟩
  · exact bind_of_error (count_of_cut counted hcut)
  · have hlen := length_le_sizeAll children
    have hcount : Reader.count limits 1 c = .ok (children.length, ⟨q, c.budget⟩) :=
      count_eq_ok_iff.2 ⟨by omega, rfl, count, counted, by omega, hinput⟩
    rw [readSeq, bind_of_ok hcount]
    exact bind_of_error (times_of_cut takes runs each hq hk hc)

theorem readMap_of_cut {item : Reader Tree} (takes : Takes limits item (Spells limits depth))
    (runs : RunsOut limits item (Spells limits depth)) {count : List UInt8}
    {forms : List (List UInt8 × List UInt8)} {entries : List (Primitive × Tree)}
    (counted : VarInt.Shortest count entries.length)
    (distinct : (entries.map Prod.fst).Nodup)
    (each : Each (EntryForm (Spells limits depth)) forms entries (sizeEntries entries))
    (hcut : Cut c.input (count ++ forms.flatMap fun form => form.1 ++ form.2))
    (hk : sizeEntries entries ≤ c.budget) (hc : c.budget ≤ limits.maxItems.toNat) :
    readMap limits item c = .error endOfData := by
  rcases cut_append_cases hcut with hcut | ⟨q, hinput, hq⟩
  · exact bind_of_error (count_of_cut counted hcut)
  · have hlen := two_mul_length_le_sizeEntries entries
    have hcount : Reader.count limits 2 c = .ok (entries.length, ⟨q, c.budget⟩) :=
      count_eq_ok_iff.2 ⟨by omega, rfl, count, counted, by omega, hinput⟩
    rw [readMap, bind_of_ok hcount]
    exact bind_of_error (entries_of_cut takes runs each (by simpa using distinct) hq hk hc)

theorem readWith_of_nil {inner : Option (Reader Tree)} {n : Nat} :
    readWith limits depth inner ⟨[], n + 1⟩ = .error endOfData := rfl

section

variable {inner : Option (Reader Tree)}

/-- Behind the tag of a form that is cut, the end of the input is found. -/
theorem readBody_of_cut (reaches : Reaches limits depth inner)
    (runs : ∀ read, inner = some read → RunsOut limits read (Spells limits (depth + 1)))
    {bs : List UInt8} {t : Tree} (form : Form limits depth bs t) :
    ∃ kind body, bs = kind.tag :: body ∧ ∀ c : Cursor, Cut c.input body →
      t.size ≤ 1 + c.budget → c.budget ≤ limits.maxItems.toNat →
        readBody limits depth inner kind c = .error endOfData := by
  cases form with
  | boolean b =>
    refine ⟨.boolean, _, rfl, fun c hcut _ _ => ?_⟩
    rcases cut_cons_cases hcut with hinput | ⟨q, -, hq⟩
    · exact bind_of_error (bind_of_error (byte_of_nil hinput))
    · exact absurd hq not_cut_nil
  | integer sized small =>
    refine ⟨.integer, _, rfl, fun c hcut _ _ => ?_⟩
    exact bind_of_error (bind_of_error (sized_of_cut sized small hcut))
  | bytes sized small =>
    refine ⟨.bytes, _, rfl, fun c hcut _ _ => ?_⟩
    exact bind_of_error (sized_of_cut sized small hcut)
  | @seq _ kind count forms children room counted hlen each =>
    refine ⟨kind.kind, _, by rw [SeqKind.tag_kind], fun c hcut hk hc => ?_⟩
    rw [size] at hk
    cases inner with
    | none => exact absurd room reaches
    | some read =>
      have heach := each_spells_iff.2 ⟨hlen, each, rfl⟩
      have hread : readSeq limits kind read c = .error endOfData :=
        readSeq_of_cut reaches.2 (runs read rfl) counted heach hcut (by omega) hc
      cases kind
      · exact hread
      · exact hread
  | @map _ count forms entries room counted hlen distinct keys values =>
    refine ⟨.map, _, rfl, fun c hcut hk hc => ?_⟩
    rw [size] at hk
    cases inner with
    | none => exact absurd room reaches
    | some read =>
      have heach := each_entryForm_iff.2 ⟨hlen, fun i form e hform he =>
        ⟨keys i form e hform he, values i form e hform he⟩, rfl⟩
      exact readMap_of_cut reaches.2 (runs read rfl) counted distinct heach hcut (by omega) hc

theorem runsOut_readWith (reaches : Reaches limits depth inner)
    (runs : ∀ read, inner = some read → RunsOut limits read (Spells limits (depth + 1))) :
    RunsOut limits (readWith limits depth inner) (Spells limits depth) := by
  rintro ⟨input, budget⟩ bs t k ⟨form, rfl⟩ hcut hk hc
  obtain ⟨kind, body, rfl, hbody⟩ := readBody_of_cut reaches runs form
  have hpos := t.size_pos
  obtain ⟨n, rfl⟩ : ∃ n, budget = n + 1 := ⟨budget - 1, by simp only at hk; omega⟩
  rcases cut_cons_cases hcut with hinput | ⟨q, hinput, hq⟩
  · obtain rfl : input = [] := hinput
    exact readWith_of_nil
  · obtain rfl : input = kind.tag :: q := hinput
    rw [readWith_of_tag]
    simp only at hk hc
    exact hbody ⟨q, n⟩ hq (by simp only; omega) (by simp only; omega)

end

theorem runsOut_readAt {room depth : Nat} (hd : depth + room = limits.maxStructDepth.toNat) :
    RunsOut limits (readAt limits room depth) (Spells limits depth) := by
  induction room generalizing depth with
  | zero =>
    have full : Reaches limits depth none := by
      show ¬ depth < limits.maxStructDepth.toNat
      omega
    exact runsOut_readWith full fun _ hread => by simp at hread
  | succ room ih =>
    have reaches : Reaches limits depth (some (readAt limits room (depth + 1))) :=
      ⟨by omega, takes_readAt (by omega)⟩
    refine runsOut_readWith reaches fun read hread => ?_
    obtain rfl := Option.some_inj.1 hread
    exact ih (by omega)

variable {t : Tree} {b p s : List UInt8}

/-- A form that is cut ends too early. -/
theorem decode_of_cut (form : Form limits 0 b t) (hsize : t.size ≤ limits.maxItems.toNat)
    (hcut : Cut p b) : decode limits p = .error endOfData := by
  have hread := runsOut_readAt (Nat.zero_add _) ⟨p, limits.maxItems.toNat⟩ b t _ ⟨form, rfl⟩
    hcut hsize (Nat.le_refl _)
  rw [decode, hread]

/-- Behind a form all that follows is left over. -/
theorem decode_append (form : Form limits 0 b t) (hsize : t.size ≤ limits.maxItems.toNat)
    (hs : s ≠ []) :
    decode limits (b ++ s) = .error (.fault (.format (.trailingBytes s.length))) := by
  have takes := @takes_readAt limits _ 0 (Nat.zero_add _)
  have hread := (takes ⟨b ++ s, limits.maxItems.toNat⟩ t ⟨s, limits.maxItems.toNat - t.size⟩
    (Nat.le_refl _)).2 ⟨b, t.size, ⟨form, rfl⟩, rfl, by simp only; omega⟩
  rw [decode, hread]
  simp [hs]

/-- No form is the beginning of another one, whatever the limits. -/
theorem Form.eq_of_prefix {limits' : Limits} {t' : Tree} {b' : List UInt8}
    (form : Form limits 0 b t) (hsize : t.size ≤ limits.maxItems.toNat)
    (form' : Form limits' 0 b' t') (hsize' : t'.size ≤ limits'.maxItems.toNat)
    (h : b' <+: b) : b' = b := by
  obtain ⟨wide, hw, hw'⟩ := limits.exists_within limits'
  by_contra hne
  have accepted : decode wide b' = .ok t' :=
    decode_eq_ok_iff.2 ⟨form'.mono hw', hsize'.trans hw'.items⟩
  rw [decode_of_cut (form.mono hw) (hsize.trans hw.items) ⟨h, hne⟩] at accepted
  simp at accepted

end Tree

namespace Heap

variable {h : Heap} {limits : Limits} {x : Item} {b : List UInt8}

/-! ### Stored items -/

/-- A stored item without its end ends too early, and with anything behind it has so many
bytes left over; nothing else is found wrong with it, and nothing is put on record.  No
stored item is the beginning of another one, whatever the limits that they were stored
within. -/
theorem deserialize_delimited (hb : (h.serialize limits x).result = .ok b) (store : Heap) :
    (∀ p, p <+: b → p ≠ b →
        store.deserialize limits p = .quiet (.error (.format .unexpectedEnd))) ∧
      FormatFault.unexpectedEnd.text = "unexpected end of data" ∧
      (∀ s, s ≠ [] → store.deserialize limits (b ++ s)
        = .quiet (.error (.format (.trailingBytes s.length)))) ∧
      (∀ n : Nat, (FormatFault.trailingBytes n).text
        = toString n ++ " trailing bytes after stack item") ∧
      ∀ (h' : Heap) (limits' : Limits) (y : Item) (b' : List UInt8),
        (h'.serialize limits' y).result = .ok b' → b' <+: b → b' = b := by
  obtain ⟨t, -, hs, hsize, rfl⟩ := serialize_eq_ok_iff.1 hb
  have form := Tree.form_encode hs (Nat.lt_of_le_of_lt hsize limits.maxItems.toNat_lt)
  refine ⟨?_, rfl, ?_, fun _ => rfl, ?_⟩
  · intro p hp hne
    rw [deserialize_eq, Tree.decode_of_cut form hsize ⟨hp, hne⟩]
    rfl
  · intro s hs
    rw [deserialize_eq, Tree.decode_append form hsize hs]
    rfl
  · intro h' limits' y b' hb' hprefix
    obtain ⟨t', -, hs', hsize', rfl⟩ := serialize_eq_ok_iff.1 hb'
    have form' := Tree.form_encode hs' (Nat.lt_of_le_of_lt hsize' limits'.maxItems.toNat_lt)
    exact form.eq_of_prefix hsize form' hsize' hprefix

/-- A map with two entries, whose budget is used up exactly. -/
def twoEntries : Heap :=
  { maps := #[(Entries.empty.insert (.integer 7) (.prim (.bytes [1, 2]))).insert (.boolean true)
      (.prim (.integer 0))] }

/-- The map may be cut behind a key, or in the middle of a value; a byte behind it is left
over, and is not taken for a further entry. -/
theorem deserialize_delimited_twoEntries :
    (twoEntries.serialize { maxItems := 5 } (.map ⟨0⟩)).result
        = .ok [0x48, 2, 0x21, 1, 7, 0x28, 2, 1, 2, 0x20, 1, 0x21, 0] ∧
      (empty.deserialize { maxItems := 5 } [0x48, 2, 0x21, 1, 7]).result
        = .error (.format .unexpectedEnd) ∧
      (empty.deserialize { maxItems := 5 } [0x48, 2, 0x21, 1, 7, 0x28, 2, 1]).result
        = .error (.format .unexpectedEnd) ∧
      (empty.deserialize { maxItems := 5 }
          [0x48, 2, 0x21, 1, 7, 0x28, 2, 1, 2, 0x20, 1, 0x21, 0, 0x20]).result
        = .error (.format (.trailingBytes 1)) := by
  have hb : (twoEntries.serialize { maxItems := 5 } (.map ⟨0⟩)).result
      = .ok [0x48, 2, 0x21, 1, 7, 0x28, 2, 1, 2, 0x20, 1, 0x21, 0] := rfl
  obtain ⟨ends, -, left, -, -⟩ := deserialize_delimited hb empty
  refine ⟨hb, ?_, ?_, ?_⟩
  · rw [ends _ (by decide) (by decide)]
    rfl
  · rw [ends _ (by decide) (by decide)]
    rfl
  · exact congrArg Report.result (left [0x20] (by decide))

end Heap

end StackItems
