/-
What it costs to read a tree.

Every item of a tree costs one unit of the budget and at least two bytes of the input: a tag, and
behind it a truth value, a length or a count.

* `Pays` — a reader that pays for what it gives; `pays_readAt` — the reader of trees does;
* `scan_accounts` — **reading by position never crashes and ends as the reader of trees does;
  all that it does on the way is sound, however it ends, and if it gives a tree, the budget has
  gone down by one and the position up by two at least for every item of the tree.**

Design notes: the budget that a walk starts with need not be the one of the limits, so what is
known of readers within that budget does not apply.
-/
import StackItems.Proofs.Grammar
import StackItems.Proofs.Scan

namespace StackItems

theorem VarInt.Shortest.length_pos {form : List UInt8} {n : Nat} (h : VarInt.Shortest form n) :
    0 < form.length := by
  rw [h.eq_encode, VarInt.length_encode]
  split_ifs <;> decide

namespace Reader

variable {limits : Limits} {c c' : Cursor}

/-- From one cursor to another so many items are paid for: each with one unit of the budget and
two bytes at least. -/
structure Paid (c c' : Cursor) (items : Nat) : Prop where
  budget : c.budget = items + c'.budget
  input : c'.input.length + 2 * items ≤ c.input.length

theorem Paid.refl (c : Cursor) : Paid c c 0 := ⟨(Nat.zero_add _).symm, Nat.le_refl _⟩

theorem Paid.trans {c'' : Cursor} {m n : Nat} (a : Paid c c' m) (b : Paid c' c'' n) :
    Paid c c'' (m + n) := by
  have ha := a.budget
  have hb := b.budget
  have ha' := a.input
  have hb' := b.input
  constructor
  · omega
  · omega

/-- A reader of trees that pays for the items of the tree it gives. -/
def Pays (read : Reader Tree) : Prop :=
  ∀ (c : Cursor) (t : Tree) (c' : Cursor), read c = .ok (t, c') → Paid c c' t.size

section

variable {read : Reader Tree}

theorem Pays.times (pays : Pays read) {n : Nat} {done ts : List Tree}
    (h : times read n done c = .ok (ts, c')) :
    ∃ new, ts = done.reverse ++ new ∧ Paid c c' (Tree.sizeAll new) := by
  induction n generalizing c done with
  | zero =>
    obtain ⟨rfl, rfl⟩ := pure_eq_ok_iff.1 h
    exact ⟨[], (List.append_nil _).symm, .refl _⟩
  | succ n ih =>
    obtain ⟨t, d, ht, hrest⟩ := bind_eq_ok_iff.1 h
    obtain ⟨new, rfl, others⟩ := ih hrest
    exact ⟨t :: new, by simp, (pays c t d ht).trans others⟩

theorem Pays.entries (pays : Pays read) {n : Nat} {done es : List (Primitive × Tree)}
    (h : entries read n done c = .ok (es, c')) :
    ∃ new, es = done.reverse ++ new ∧ Paid c c' (Tree.sizeEntries new) := by
  induction n generalizing c done with
  | zero =>
    obtain ⟨rfl, rfl⟩ := pure_eq_ok_iff.1 h
    exact ⟨[], (List.append_nil _).symm, .refl _⟩
  | succ n ih =>
    obtain ⟨key, c₁, hkey, hrest₁⟩ := bind_eq_ok_iff.1 h
    obtain ⟨k, c₂, hk, hrest₂⟩ := bind_eq_ok_iff.1 hrest₁
    obtain ⟨t, c₃, ht, hrest⟩ := bind_eq_ok_iff.1 hrest₂
    obtain ⟨rfl, rfl⟩ := asKey_eq_ok_iff.1 hk
    split at hrest
    · exact (fail_ne_ok hrest).elim
    · obtain ⟨new, rfl, others⟩ := ih hrest
      have entry := ((pays c _ c₂ hkey).trans (pays c₂ t c₃ ht)).trans others
      rw [Tree.size] at entry
      exact ⟨(k, t) :: new, by simp, by rwa [Tree.sizeEntries]⟩

/-- A count takes at least one byte and nothing from the budget. -/
theorem count_input {share n : Nat} (h : count limits share c = .ok (n, c')) :
    c'.budget = c.budget ∧ c'.input.length + 1 ≤ c.input.length := by
  obtain ⟨-, hbudget, form, hform, -, hinput⟩ := count_eq_ok_iff.1 h
  have hpos := hform.length_pos
  rw [hinput, List.length_append]
  exact ⟨hbudget, by omega⟩

end

end Reader

namespace Tree

open Reader

variable {limits : Limits} {c c' d : Cursor} {depth : Nat}

section

variable {read : Reader Tree} {t : Tree}

theorem paid_readSeq (pays : Pays read) {kind : SeqKind}
    (h : readSeq limits kind read d = .ok (t, c')) (hbudget : c.budget = 1 + d.budget)
    (hinput : c.input.length = 1 + d.input.length) : Paid c c' t.size := by
  obtain ⟨n, c₁, hn, hrest⟩ := bind_eq_ok_iff.1 h
  obtain ⟨ts, c₂, hts, ht⟩ := bind_eq_ok_iff.1 hrest
  obtain ⟨rfl, rfl⟩ := pure_eq_ok_iff.1 ht
  obtain ⟨hsame, hcount⟩ := count_input hn
  obtain ⟨new, rfl, paid⟩ := pays.times hts
  have first : Paid c c₁ 1 := ⟨by omega, by omega⟩
  rw [size]
  exact first.trans paid

theorem paid_readMap (pays : Pays read) (h : readMap limits read d = .ok (t, c'))
    (hbudget : c.budget = 1 + d.budget) (hinput : c.input.length = 1 + d.input.length) :
    Paid c c' t.size := by
  obtain ⟨n, c₁, hn, hrest⟩ := bind_eq_ok_iff.1 h
  obtain ⟨es, c₂, hes, ht⟩ := bind_eq_ok_iff.1 hrest
  obtain ⟨rfl, rfl⟩ := pure_eq_ok_iff.1 ht
  obtain ⟨hsame, hcount⟩ := count_input hn
  obtain ⟨new, rfl, paid⟩ := pays.entries hes
  have first : Paid c c₁ 1 := ⟨by omega, by omega⟩
  rw [size]
  exact first.trans paid

/-- A length and as many bytes are one byte at least. -/
theorem paid_sized {max : UInt64} {bs : List UInt8} (h : sized max d = .ok (bs, c'))
    (hbudget : c.budget = 1 + d.budget) (hinput : c.input.length = 1 + d.input.length) :
    Paid c c' 1 := by
  obtain ⟨length, sized, -, hinput', hbudget'⟩ := sized_eq_ok_iff.1 h
  have hpos := sized.length_pos
  rw [hinput', List.length_append, List.length_append] at hinput
  exact ⟨by omega, by omega⟩

end

/-- A reader pays for a tree at a depth if the reader of what containers hold does. -/
theorem pays_readWith {inner : Option (Reader Tree)} (below : ∀ read ∈ inner, Pays read) :
    Pays (readWith limits depth inner) := by
  intro c t c' h
  obtain ⟨kind, d, hinput, hbudget, hbody⟩ := readWith_eq_ok_iff.1 h
  replace hinput : c.input.length = 1 + d.input.length := by
    rw [hinput, List.length_cons, Nat.add_comm]
  cases kind with
  | boolean =>
    obtain ⟨p, e, hp, ht⟩ := bind_eq_ok_iff.1 hbody
    obtain ⟨rfl, rfl⟩ := pure_eq_ok_iff.1 ht
    obtain ⟨b, -, hbyte, hsame⟩ := readBoolean_eq_ok_iff.1 hp
    rw [hbyte, List.length_cons] at hinput
    rw [size]
    exact ⟨by omega, by omega⟩
  | integer =>
    obtain ⟨p, e, hp, ht⟩ := bind_eq_ok_iff.1 hbody
    obtain ⟨rfl, rfl⟩ := pure_eq_ok_iff.1 ht
    obtain ⟨bs, e', hbs, hp⟩ := bind_eq_ok_iff.1 hp
    obtain ⟨-, rfl⟩ := pure_eq_ok_iff.1 hp
    exact paid_sized hbs hbudget hinput
  | bytes =>
    obtain ⟨bs, e, hbs, ht⟩ := bind_eq_ok_iff.1 hbody
    obtain ⟨rfl, rfl⟩ := pure_eq_ok_iff.1 ht
    exact paid_sized hbs hbudget hinput
  | array =>
    cases inner with
    | none => exact (stop_ne_ok (c := d) hbody).elim
    | some inner => exact paid_readSeq (below inner rfl) hbody hbudget hinput
  | struct =>
    cases inner with
    | none => exact (stop_ne_ok (c := d) hbody).elim
    | some inner => exact paid_readSeq (below inner rfl) hbody hbudget hinput
  | map =>
    cases inner with
    | none => exact (stop_ne_ok (c := d) hbody).elim
    | some inner => exact paid_readMap (below inner rfl) hbody hbudget hinput
  | interop => exact (fail_ne_ok (c := d) hbody).elim

theorem pays_readAt (room depth : Nat) : Pays (readAt limits room depth) := by
  induction room generalizing depth with
  | zero => exact pays_readWith (by simp)
  | succ room ih => exact pays_readWith (by simpa using ih (depth + 1))

/-- A whole input has at least two bytes for every item. -/
theorem two_mul_size_le_of_decode {data : List UInt8} {t : Tree}
    (h : decode limits data = .ok t) : 2 * t.size ≤ data.length := by
  rw [decode] at h
  split at h
  · exact absurd h (by simp)
  · next t' rest hread =>
    have paid := (pays_readAt _ _ _ _ _ hread).input
    split at h
    · injection h with h
      subst h
      exact Nat.le_trans (Nat.le_add_left ..) paid
    · exact absurd h (by simp)

end Tree

/-- From any position in the data, at any depth and with any budget left, reading a tree by
position goes forward within the data, cuts no slice that does not lie in them, sets storage
aside only for what is left of the budget, or for half of it under the count of a map, and
calculates in machine words.  It stops where the reader of trees stops, and for the same cause.
If it gives a tree, the reader gives the same one, the budget has gone down by the number of
items of the tree, and the position has gone up by twice that number at least.  So an input that
is accepted as a whole has two bytes or more for every item. -/
theorem scan_accounts {data : List UInt8} (size : data.length < UInt64.size) {position : Nat}
    (within : position ≤ data.length) (limits : Limits) (depth budget : Nat) :
    let run := Scan.tree data limits depth ⟨position, budget, []⟩
    let read := Tree.readAt limits (limits.maxStructDepth.toNat - depth) depth
      ⟨data.drop position, budget⟩
    (position ≤ run.2.position ∧ run.2.position ≤ data.length) ∧
      (∀ deed ∈ run.2.deeds, deed.Sound data.length) ∧
      ((∃ halt, run.1 = .error (.halt halt) ∧ read = .error halt) ∨
        ∃ t, run.1 = .ok t ∧ read = .ok (t, run.2.cursor data) ∧
          budget = t.size + run.2.budget ∧ position + 2 * t.size ≤ run.2.position) ∧
      ∀ t, Tree.decode limits data = .ok t → 2 * t.size ≤ data.length := by
  intro run read
  have beside : Beside data ⟨position, budget, []⟩ read run :=
    follows_scanAt size limits rfl ⟨position, budget, []⟩ within
  have sound : ∀ m' : Stand, Moves data.length ⟨position, budget, []⟩ m' →
      ∀ deed ∈ m'.deeds, deed.Sound data.length := by
    intro m' moves deed hd
    obtain ⟨new, hnew, hsound⟩ := moves.deeds
    rw [hnew] at hd
    exact hsound deed hd
  have whole := fun t (h : Tree.decode limits data = .ok t) => Tree.two_mul_size_le_of_decode h
  have paid : ∀ t c, read = .ok (t, c) → Reader.Paid ⟨data.drop position, budget⟩ c t.size :=
    fun t c h => Tree.pays_readAt _ _ _ t c h
  generalize read = ended, run = ended' at beside paid
  cases beside with
  | stopped halt moves =>
    exact ⟨⟨moves.forward, moves.inside⟩, sound _ moves, .inl ⟨halt, rfl, rfl⟩, whole⟩
  | @done t m' moves =>
    refine ⟨⟨moves.forward, moves.inside⟩, sound _ moves, .inr ⟨t, rfl, rfl, ?_, ?_⟩, whole⟩
    · exact (paid t _ rfl).budget
    · have hinput := (paid t _ rfl).input
      have hinside := moves.inside
      simp only [Stand.cursor, List.length_drop] at hinput
      show position + 2 * t.size ≤ m'.position
      omega

/-- A struct of one flag under the key seven, behind a byte of something else. -/
def keyedFlag : List UInt8 := [0xFF, 0x48, 1, 0x21, 1, 7, 0x41, 1, 0x20, 1]

/-- From the second byte on, four items are read from nine bytes. -/
theorem scan_accounts_keyedFlag :
    keyedFlag.length < UInt64.size ∧ 1 ≤ keyedFlag.length ∧
      ∃ t m, Scan.tree keyedFlag .default 3 ⟨1, 9, []⟩ = (.ok t, m) ∧ m.position = 10 ∧
        t.size = 4 ∧ m.budget = 5 ∧ ∀ deed ∈ m.deeds, deed.Sound keyedFlag.length := by
  have size : keyedFlag.length < UInt64.size := by decide
  have within : 1 ≤ keyedFlag.length := by decide
  have position : (Scan.tree keyedFlag .default 3 ⟨1, 9, []⟩).2.position = 10 := by decide +kernel
  have left : (Scan.tree keyedFlag .default 3 ⟨1, 9, []⟩).2.budget = 5 := by decide +kernel
  have succeeds : (Scan.tree keyedFlag .default 3 ⟨1, 9, []⟩).1.isOk = true := by decide +kernel
  have accounts := scan_accounts size within .default 3 9
  -- From here on the run is any that is as the kernel has found it.
  generalize Scan.tree keyedFlag .default 3 ⟨1, 9, []⟩ = run at position left succeeds accounts ⊢
  obtain ⟨-, sound, ended, -⟩ := accounts
  rcases ended with ⟨halt, hrun, -⟩ | ⟨t, hrun, -, hbudget, -⟩
  · rw [hrun] at succeeds
    exact absurd succeeds (by simp [Except.isOk, Except.toBool])
  · exact ⟨size, within, t, run.2, Prod.ext hrun rfl, position, by omega, left, sound⟩

end StackItems
