/-
What readers take from the front of the input.

* `sized_eq_ok_iff`, `count_eq_ok_iff` — a length and so many bytes, a count;
* `Takes` — a reader that takes exactly the forms of what it gives, and for each its
  cost from the budget;
* `times_eq_ok_iff`, `entries_eq_ok_iff` — such a reader, several times in a row.

Design notes: a reader that succeeds has taken a form off the front of the input, and
it succeeds on every form; both directions are one equivalence, which composes.
-/
import StackItems.Proofs.LengthForm
import StackItems.Proofs.SilentWalks

namespace StackItems

namespace Reader

variable {α : Type} {c c' : Cursor}

/-! ### What the small readers take -/

theorem front_eq_ok_iff {read : List UInt8 → Except FormatFault (α × List UInt8)} {a : α} :
    front read c = .ok (a, c') ↔ read c.input = .ok (a, c'.input) ∧ c'.budget = c.budget := by
  obtain ⟨input', budget'⟩ := c'
  rw [front]
  cases read c.input with
  | error cause => simp
  | ok done =>
    obtain ⟨b, rest⟩ := done
    simp only [Except.ok.injEq, Prod.mk.injEq, Cursor.mk.injEq]
    constructor
    · rintro ⟨rfl, rfl, rfl⟩
      exact ⟨⟨rfl, rfl⟩, rfl⟩
    · rintro ⟨⟨rfl, rfl⟩, rfl⟩
      exact ⟨rfl, rfl, rfl⟩

theorem byte_eq_ok_iff {b : UInt8} :
    byte c = .ok (b, c') ↔ c.input = b :: c'.input ∧ c'.budget = c.budget := by
  rw [byte, front_eq_ok_iff]
  cases c.input with
  | nil => simp
  | cons b' rest => simp

theorem spend_eq_ok_iff {u : Unit} :
    spend c = .ok (u, c') ↔ c'.input = c.input ∧ c.budget = 1 + c'.budget := by
  obtain ⟨input, budget⟩ := c
  obtain ⟨input', budget'⟩ := c'
  cases budget with
  | zero => simp [spend]; omega
  | succ n =>
    simp only [spend, Except.ok.injEq, Prod.mk.injEq, Cursor.mk.injEq]
    constructor
    · rintro ⟨-, rfl, rfl⟩
      exact ⟨rfl, Nat.add_comm ..⟩
    · rintro ⟨rfl, hn⟩
      exact ⟨trivial, rfl, by omega⟩

theorem fail_ne_ok {fault : Fault} {a : α} : (fail fault : Reader α) c ≠ .ok (a, c') := by
  simp [fail]

theorem stop_ne_ok {cause : Cutoff} {a : α} : (stop cause : Reader α) c ≠ .ok (a, c') := by
  simp [stop]

theorem sized_eq_ok_iff {max : UInt64} {bs : List UInt8} :
    sized max c = .ok (bs, c') ↔
      ∃ length, VarInt.Shortest length bs.length ∧ bs.length ≤ max.toNat ∧
        c.input = length ++ bs ++ c'.input ∧ c'.budget = c.budget := by
  rw [sized, bind_eq_ok_iff]
  constructor
  · rintro ⟨n, d, hn, hbs⟩
    obtain ⟨hn, hd⟩ := front_eq_ok_iff.1 hn
    obtain ⟨hbs, hc'⟩ := front_eq_ok_iff.1 hbs
    obtain ⟨length, hlength, hmax, hinput⟩ := VarInt.decode_eq_ok_iff.1 hn
    obtain ⟨rfl, hrest⟩ := takeBytes_eq_ok_iff.1 hbs
    exact ⟨length, hlength, hmax, by rw [hinput, hrest, List.append_assoc], hc'.trans hd⟩
  · rintro ⟨length, hlength, hmax, hinput, hbudget⟩
    refine ⟨bs.length, ⟨bs ++ c'.input, c.budget⟩, ?_, ?_⟩
    · rw [front_eq_ok_iff, VarInt.decode_eq_ok_iff]
      exact ⟨⟨length, hlength, hmax, by rw [hinput, List.append_assoc]⟩, rfl⟩
    · rw [front_eq_ok_iff, takeBytes_eq_ok_iff]
      exact ⟨⟨rfl, rfl⟩, hbudget⟩

theorem count_eq_ok_iff {limits : Limits} {share n : Nat} :
    count limits share c = .ok (n, c') ↔
      n ≤ c.budget / share ∧ c'.budget = c.budget ∧
        ∃ form, VarInt.Shortest form n ∧ n ≤ limits.maxItems.toNat ∧
          c.input = form ++ c'.input := by
  rw [count, bind_eq_ok_iff]
  constructor
  · rintro ⟨m, d, hm, hrest⟩
    obtain ⟨hm, hd⟩ := front_eq_ok_iff.1 hm
    rw [get_bind_eq] at hrest
    split at hrest
    · exact (stop_ne_ok hrest).elim
    · next hle =>
      obtain ⟨rfl, rfl⟩ := pure_eq_ok_iff.1 hrest
      rw [hd] at hle
      exact ⟨Nat.le_of_not_lt hle, hd, VarInt.decode_eq_ok_iff.1 hm⟩
  · rintro ⟨hle, hbudget, hform⟩
    refine ⟨n, c', front_eq_ok_iff.2 ⟨VarInt.decode_eq_ok_iff.2 hform, hbudget⟩, ?_⟩
    rw [get_bind_eq, if_neg (by rw [hbudget]; omega)]
    exact pure_eq_ok_iff.2 ⟨rfl, rfl⟩

theorem asKey_eq_ok_iff {t : Tree} {p : Primitive} :
    asKey t c = .ok (p, c') ↔ t = .prim p ∧ c' = c := by
  cases t with
  | prim q => rw [asKey, pure_eq_ok_iff, Tree.prim.injEq, eq_comm]
  | seq kind children => simp [asKey, fail]
  | map entries => simp [asKey, fail]

/-! ### Readers that take forms -/

/-- Within the budget of the limits, the reader gives exactly the values whose
forms lie in front of the rest of the input, at their cost. -/
def Takes (limits : Limits) (read : Reader α) (F : List UInt8 → α → Nat → Prop) : Prop :=
  ∀ (c : Cursor) (a : α) (c' : Cursor), c.budget ≤ limits.maxItems.toNat →
    (read c = .ok (a, c') ↔
      ∃ form k, F form a k ∧ c.input = form ++ c'.input ∧ c.budget = k + c'.budget)

section

variable {limits : Limits} {F : List UInt8 → Tree → Nat → Prop} {read : Reader Tree}

theorem times_eq_ok_iff (takes : Takes limits read F) {n : Nat} {done ts : List Tree}
    (hc : c.budget ≤ limits.maxItems.toNat) :
    times read n done c = .ok (ts, c') ↔
      ∃ forms new k, ts = done.reverse ++ new ∧ new.length = n ∧ Each F forms new k ∧
        c.input = forms.flatten ++ c'.input ∧ c.budget = k + c'.budget := by
  -- What is read goes behind `done`, so the statement is about every `done`.
  induction n generalizing c done with
  | zero =>
    rw [times, pure_eq_ok_iff]
    constructor
    · rintro ⟨rfl, rfl⟩
      exact ⟨[], [], 0, by simp, rfl, .nil, rfl, (Nat.zero_add _).symm⟩
    · rintro ⟨forms, new, k, rfl, hlen, heach, hinput, hbudget⟩
      obtain rfl := List.length_eq_zero_iff.1 hlen
      cases heach
      obtain ⟨input, budget⟩ := c
      obtain ⟨input', budget'⟩ := c'
      simp only [List.flatten_nil, List.nil_append, Nat.zero_add] at hinput hbudget
      subst hinput hbudget
      exact ⟨by simp, rfl⟩
  | succ n ih =>
    rw [times, bind_eq_ok_iff]
    constructor
    · rintro ⟨t, d, ht, hrest⟩
      obtain ⟨form, k, hform, hinput, hbudget⟩ := (takes c t d hc).1 ht
      obtain ⟨forms, new, k', rfl, hlen, heach, hinput', hbudget'⟩ := (ih (by omega)).1 hrest
      refine ⟨form :: forms, t :: new, k + k', by simp, by rw [List.length_cons, hlen],
        .cons hform heach, ?_, by omega⟩
      rw [hinput, hinput', List.flatten_cons, List.append_assoc]
    · rintro ⟨forms, new, k, rfl, hlen, heach, hinput, hbudget⟩
      cases heach with
      | nil => exact absurd hlen (by simp)
      | @cons form t k forms new k' hform heach =>
        refine ⟨t, ⟨forms.flatten ++ c'.input, k' + c'.budget⟩, ?_, ?_⟩
        · refine (takes c t _ hc).2 ⟨form, k, hform, ?_, by rw [hbudget, Nat.add_assoc]⟩
          rw [hinput, List.flatten_cons, List.append_assoc]
        · refine (ih ?_).2 ⟨forms, new, k', by simp, by simpa using hlen, heach, rfl, rfl⟩
          show k' + c'.budget ≤ _
          omega

/-- The form and the cost of an entry: of its key and of its value. -/
def EntryForm (F : List UInt8 → Tree → Nat → Prop) (form : List UInt8 × List UInt8)
    (e : Primitive × Tree) (k : Nat) : Prop :=
  ∃ i j, F form.1 (.prim e.1) i ∧ F form.2 e.2 j ∧ k = i + j

/-- A key is looked for among those of the entries already read. -/
theorem any_key_iff {done : List (Primitive × Tree)} {k : Primitive} :
    done.any (·.1 == k) = true ↔ k ∈ done.map Prod.fst := by
  simp only [List.any_eq_true, List.mem_map, beq_iff_eq]

/-- No key of a whole list of entries occurs twice, so none is in front of itself. -/
theorem key_not_mem_of_nodup {done es : List (Primitive × Tree)} {e : Primitive × Tree}
    (h : ((done.reverse ++ e :: es).map Prod.fst).Nodup) : e.1 ∉ done.map Prod.fst := by
  intro hmem
  rw [List.map_append, List.nodup_append] at h
  refine h.2.2 e.1 ?_ e.1 (List.mem_cons_self ..) rfl
  rwa [List.map_reverse, List.mem_reverse]

theorem entries_succ_eq_ok_iff (takes : Takes limits read F) {n : Nat}
    {done es : List (Primitive × Tree)} (hc : c.budget ≤ limits.maxItems.toNat) :
    entries read (n + 1) done c = .ok (es, c') ↔
      ∃ form e k d, EntryForm F form e k ∧ e.1 ∉ done.map Prod.fst ∧
        c.input = form.1 ++ form.2 ++ d.input ∧ c.budget = k + d.budget ∧
        entries read n (e :: done) d = .ok (es, c') := by
  rw [entries, bind_eq_ok_iff]
  constructor
  · rintro ⟨u, c₁, hu, hrest₁⟩
    obtain ⟨k, c₂, hk, hrest₂⟩ := bind_eq_ok_iff.1 hrest₁
    obtain ⟨t, c₃, ht, hrest⟩ := bind_eq_ok_iff.1 hrest₂
    obtain ⟨rfl, rfl⟩ := asKey_eq_ok_iff.1 hk
    obtain ⟨f, i, hf, hinput, hbudget⟩ := (takes c _ c₂ hc).1 hu
    obtain ⟨g, j, hg, hinput', hbudget'⟩ := (takes c₂ t c₃ (by omega)).1 ht
    split at hrest
    · exact (fail_ne_ok hrest).elim
    · next hnew =>
      refine ⟨(f, g), (k, t), i + j, c₃, ⟨i, j, hf, hg, rfl⟩, mt any_key_iff.2 hnew, ?_, by omega,
        hrest⟩
      rw [hinput, hinput', List.append_assoc]
  · rintro ⟨⟨f, g⟩, ⟨k, t⟩, _, d, ⟨i, j, hf, hg, rfl⟩, hnew, hinput, hbudget, hrest⟩
    have hu := (takes c (.prim k) ⟨g ++ d.input, j + d.budget⟩ hc).2
      ⟨f, i, hf, by rw [hinput, List.append_assoc], by rw [hbudget, Nat.add_assoc]⟩
    refine ⟨.prim k, _, hu, bind_eq_ok_iff.2 ⟨k, _, asKey_eq_ok_iff.2 ⟨rfl, rfl⟩, ?_⟩⟩
    have ht := (takes ⟨g ++ d.input, j + d.budget⟩ t d (by show j + d.budget ≤ _; omega)).2
      ⟨g, j, hg, rfl, rfl⟩
    refine bind_eq_ok_iff.2 ⟨t, d, ht, ?_⟩
    rw [if_neg (mt any_key_iff.1 hnew)]
    exact hrest

theorem entries_eq_ok_iff (takes : Takes limits read F) {n : Nat}
    {done es : List (Primitive × Tree)} (hdone : (done.map Prod.fst).Nodup)
    (hc : c.budget ≤ limits.maxItems.toNat) :
    entries read n done c = .ok (es, c') ↔
      ∃ forms new k, es = done.reverse ++ new ∧ new.length = n ∧ Each (EntryForm F) forms new k ∧
        (es.map Prod.fst).Nodup ∧
        c.input = (forms.flatMap fun form => form.1 ++ form.2) ++ c'.input ∧
        c.budget = k + c'.budget := by
  induction n generalizing c done with
  | zero =>
    rw [entries, pure_eq_ok_iff]
    constructor
    · rintro ⟨rfl, rfl⟩
      refine ⟨[], [], 0, by simp, rfl, .nil, ?_, rfl, (Nat.zero_add _).symm⟩
      rw [List.map_reverse]
      exact (List.reverse_perm _).nodup_iff.2 hdone
    · rintro ⟨forms, new, k, rfl, hlen, heach, -, hinput, hbudget⟩
      obtain rfl := List.length_eq_zero_iff.1 hlen
      cases heach
      obtain ⟨input, budget⟩ := c
      obtain ⟨input', budget'⟩ := c'
      simp only [List.flatMap_nil, List.nil_append, Nat.zero_add] at hinput hbudget
      subst hinput hbudget
      exact ⟨by simp, rfl⟩
  | succ n ih =>
    rw [entries_succ_eq_ok_iff takes hc]
    constructor
    · rintro ⟨form, e, k, d, hform, hnew, hinput, hbudget, hrest⟩
      have hdone' : ((e :: done).map Prod.fst).Nodup := List.nodup_cons.2 ⟨hnew, hdone⟩
      obtain ⟨forms, new, k', rfl, hlen, heach, hnodup, hinput', hbudget'⟩ :=
        (ih hdone' (by omega)).1 hrest
      refine ⟨form :: forms, e :: new, k + k', by simp, by rw [List.length_cons, hlen],
        .cons hform heach, hnodup, ?_, by omega⟩
      rw [hinput, hinput', List.flatMap_cons, List.append_assoc, List.append_assoc,
        List.append_assoc]
    · rintro ⟨forms, new, k, rfl, hlen, heach, hnodup, hinput, hbudget⟩
      cases heach with
      | nil => exact absurd hlen (by simp)
      | @cons form e k forms new k' hform heach =>
        have hnew := key_not_mem_of_nodup hnodup
        have hdone' : ((e :: done).map Prod.fst).Nodup := List.nodup_cons.2 ⟨hnew, hdone⟩
        refine ⟨form, e, k, ⟨(forms.flatMap fun form => form.1 ++ form.2) ++ c'.input,
          k' + c'.budget⟩, hform, hnew, ?_, by rw [hbudget, Nat.add_assoc], ?_⟩
        · rw [hinput, List.flatMap_cons, List.append_assoc, List.append_assoc]
        · refine (ih hdone' ?_).2 ⟨forms, new, k', by simp, by simpa using hlen, heach, hnodup,
            rfl, rfl⟩
          show k' + c'.budget ≤ _
          omega

end

end Reader

end StackItems
