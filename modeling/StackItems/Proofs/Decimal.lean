/-
Decimal numbers as both formats read them.

An integer is written as its decimal digits, behind a minus if it is negative,
without needless zeros at the front.

* `JsonNumber.ofInt` — the number token that an integer is written as;
* `first?_decimal` — the decimal form of an integer is that token;
* `value?_ofInt_word` — a token that is a machine word is worth the word;
* `ofWord?_decimal` — the decimal form of a 64-bit integer is a word of a
  configuration file, and no other kind of word.

Design notes: the digits of a number are those of `Nat.toDigits`, so their value
and the bound on their first one come from its lemmas.
-/
import Mathlib.Algebra.Order.Ring.Int
import StackItems.JsonToken
import StackItems.TomlScalar

namespace StackItems

/-- The characters of the decimal form of an integer. -/
def decimal (n : Int) : List Char :=
  if n < 0 then '-' :: Nat.toDigits 10 n.natAbs else Nat.toDigits 10 n.natAbs

theorem toList_toString_nat (n : Nat) : (toString n).toList = decimal n := by
  rw [decimal, if_neg (by omega), Int.natAbs_natCast]
  exact Nat.toList_repr

theorem toList_toString_int (n : Int) : (toString n).toList = decimal n := by
  rw [Int.toString_eq_repr, Int.repr_eq_if, decimal]
  by_cases h : 0 ≤ n
  · rw [if_pos h, if_neg (by omega), Nat.toList_repr, show n.toNat = n.natAbs by omega]
  · rw [if_neg h, if_pos (by omega), String.toList_append, Nat.toList_repr,
      show (-n).toNat = n.natAbs by omega]
    rfl

/-- A natural number is written as the integer that it is. -/
theorem toString_natCast (n : Nat) : toString (n : Int) = toString n := by
  rw [← String.toList_inj, toList_toString_int, toList_toString_nat]

/-! ### First characters -/

/-- Characters differ if a test tells them apart. -/
theorem ne_of_holds {p : Char → Bool} {c d : Char} (hc : p c = true) (hd : p d = false) :
    c ≠ d := by
  rintro rfl
  rw [hc] at hd
  exact Bool.noConfusion hd

/-- Texts differ if a test tells their first characters apart. -/
theorem cons_ne_cons {p : Char → Bool} {c d : Char} (hc : p c = true) (hd : p d = false)
    (cs ds : List Char) : c :: cs ≠ d :: ds :=
  fun h => ne_of_holds hc hd (List.cons.inj h).1

/-! ### The digits of a natural number -/

theorem isDigit_of_mem_digits {n : Nat} {c : Char} (h : c ∈ Nat.toDigits 10 n) : c.isDigit :=
  Nat.isDigit_of_mem_toDigits (by decide) (by decide) h

theorem toDigits_eq_cons (n : Nat) : ∃ d ds, Nat.toDigits 10 n = d :: ds ∧ d.isDigit := by
  obtain ⟨d, ds, hds⟩ := List.exists_cons_of_ne_nil (Nat.toDigits_ne_nil (n := n) (b := 10))
  exact ⟨d, ds, hds, isDigit_of_mem_digits (hds ▸ List.mem_cons_self)⟩

/-- The digits are no word that begins with something else. -/
theorem toDigits_ne_cons {n : Nat} {d : Char} (hd : d.isDigit = false) (cs : List Char) :
    Nat.toDigits 10 n ≠ d :: cs := by
  obtain ⟨c, ds, hds, hc⟩ := toDigits_eq_cons n
  rw [hds]
  exact cons_ne_cons hc hd ds cs

theorem takeWhile_toDigits_append {p : Char → Bool} (hp : ∀ c : Char, c.isDigit → p c) (n : Nat)
    (rest : List Char) :
    (Nat.toDigits 10 n ++ rest).takeWhile p = Nat.toDigits 10 n ++ rest.takeWhile p :=
  List.takeWhile_append_of_pos fun c hc => hp c (isDigit_of_mem_digits hc)

theorem takeWhile_toDigits {p : Char → Bool} (hp : ∀ c : Char, c.isDigit → p c) (n : Nat) :
    (Nat.toDigits 10 n).takeWhile p = Nat.toDigits 10 n := by
  simpa using takeWhile_toDigits_append hp n []

/-- The digits of a number have its value, in whatever order the two factors of
each step stand. -/
theorem foldl_toDigits (n : Nat) :
    (Nat.toDigits 10 n).foldl (fun m c => m * 10 + (c.toNat - '0'.toNat)) 0 = n := by
  have h := @Nat.ofDigitChars_ten_toDigits n
  rw [Nat.ofDigitChars_eq_foldl] at h
  simpa only [Nat.mul_comm] using h

/-- Only zero has a zero for its first digit. -/
theorem eq_nil_of_toDigits_eq_zero_cons {n : Nat} {cs : List Char}
    (h : Nat.toDigits 10 n = '0' :: cs) : cs = [] := by
  induction n using Nat.strongRecOn generalizing cs with
  | ind n ih =>
    by_cases hn : n < 10
    · rw [Nat.toDigits_of_lt_base hn] at h
      injection h with _ h
      exact h.symm
    · rw [Nat.toDigits_of_base_le (by decide) (by omega)] at h
      cases hq : Nat.toDigits 10 (n / 10) with
      | nil => exact absurd hq Nat.toDigits_ne_nil
      | cons c front =>
        rw [hq, List.cons_append] at h
        injection h with hc _
        subst hc
        -- The quotient would be zero, and so the number a single digit.
        obtain rfl := ih (n / 10) (by omega) hq
        have hvalue := foldl_toDigits (n / 10)
        rw [hq] at hvalue
        simp only [List.foldl_cons, List.foldl_nil] at hvalue
        omega

/-- The digits of a number, each as its value. -/
def digitsOf (n : Nat) : List Nat := (Nat.toDigits 10 n).map (·.toNat - '0'.toNat)

theorem ofDigits_digitsOf (n : Nat) : JsonToken.ofDigits (digitsOf n) = n := by
  rw [JsonToken.ofDigits, digitsOf, List.foldl_map]
  exact foldl_toDigits n

theorem digitsOf_ne_nil (n : Nat) : digitsOf n ≠ [] := by
  simpa only [digitsOf, ne_eq, List.map_eq_nil_iff] using Nat.toDigits_ne_nil

theorem eq_nil_of_digitsOf_eq_zero_cons {n : Nat} {ds : List Nat} (h : digitsOf n = 0 :: ds) :
    ds = [] := by
  rw [digitsOf, List.map_eq_cons_iff] at h
  obtain ⟨c, cs, hn, hc, rfl⟩ := h
  have hdigit : c.isDigit := isDigit_of_mem_digits (hn ▸ List.mem_cons_self)
  have hzero : c = '0' := by
    simp only [Char.isDigit, Bool.and_eq_true, decide_eq_true_eq, ge_iff_le] at hdigit
    rw [← Char.toNat_inj]
    have := UInt32.le_iff_toNat_le.1 hdigit.1
    exact Nat.le_antisymm (Nat.le_of_sub_eq_zero hc) this
  subst hzero
  rw [eq_nil_of_toDigits_eq_zero_cons hn, List.map_nil]

/-! ### The form of an integer -/

/-- Whether a character is the first of a decimal form. -/
def opensNumber (c : Char) : Bool := c = '-' || c.isDigit

theorem decimal_eq_cons (n : Int) : ∃ c cs, decimal n = c :: cs ∧ opensNumber c := by
  rw [decimal]
  split
  · exact ⟨_, _, rfl, rfl⟩
  · obtain ⟨d, ds, hds, hd⟩ := toDigits_eq_cons n.natAbs
    exact ⟨d, ds, hds, by rw [opensNumber, hd, Bool.or_true]⟩

theorem decimal_ne_nil (n : Int) : decimal n ≠ [] := by
  obtain ⟨c, cs, hdecimal, -⟩ := decimal_eq_cons n
  rw [hdecimal]
  exact List.cons_ne_nil _ _

theorem decimal_ne_cons {n : Int} {d : Char} (hd : opensNumber d = false) (cs : List Char) :
    decimal n ≠ d :: cs := by
  obtain ⟨c, ds, hdecimal, hc⟩ := decimal_eq_cons n
  rw [hdecimal]
  exact cons_ne_cons hc hd ds cs

/-! ### Number tokens -/

/-- The token that an integer is written as. -/
def JsonNumber.ofInt (n : Int) : JsonNumber := ⟨n < 0, digitsOf n.natAbs, [], none⟩

namespace JsonToken

theorem digits_toDigits_append {n : Nat} {c : Char} (hc : c.isDigit = false) (rest : List Char) :
    digits (Nat.toDigits 10 n ++ c :: rest) = digitsOf n := by
  rw [digits, digitsOf, takeWhile_toDigits_append fun _ h => h,
    List.takeWhile_cons_of_neg (by simp [hc]), List.append_nil]

/-- What ends a number in a text: the comma or the brace behind a member. -/
def IsEnd (c : Char) : Prop := c = ',' ∨ c = '}'

theorem IsEnd.isDigit {c : Char} (h : IsEnd c) : c.isDigit = false := by
  rcases h with rfl | rfl <;> rfl

theorem IsEnd.fraction {c : Char} (h : IsEnd c) (rest : List Char) :
    fraction (c :: rest) = some ([], c :: rest) := by
  rcases h with rfl | rfl <;> rfl

theorem IsEnd.exponent {c : Char} (h : IsEnd c) (rest : List Char) :
    exponent (c :: rest) = some (none, c :: rest) := by
  rcases h with rfl | rfl <;> rfl

theorem unsignedNumber_toDigits (negative : Bool) (n : Nat) {c : Char} (hc : IsEnd c)
    (rest : List Char) :
    unsignedNumber negative (Nat.toDigits 10 n ++ c :: rest) =
      some (.number ⟨negative, digitsOf n, [], none⟩, c :: rest) := by
  have hlength : (digitsOf n).length = (Nat.toDigits 10 n).length := List.length_map _
  rw [unsignedNumber, digits_toDigits_append hc.isDigit]
  split
  · next h => exact absurd h (digitsOf_ne_nil n)
  · next h => exact absurd (eq_nil_of_digitsOf_eq_zero_cons h) (List.cons_ne_nil _ _)
  · rw [hlength, List.drop_left, hc.fraction]
    simp only [Option.bind_eq_bind, Option.bind_some, hc.exponent, Option.pure_def]

/-- No other token begins with a digit. -/
theorem first?_of_isDigit {c : Char} (hc : c.isDigit) (cs : List Char) :
    first? (c :: cs) = unsignedNumber false (c :: cs) := by
  rw [first?.eq_def]
  split
  case h_12 => rfl
  all_goals
    next heq =>
      injection heq with h _
      exact absurd h (ne_of_holds hc rfl)

theorem first?_decimal (n : Int) {c : Char} (hc : IsEnd c) (rest : List Char) :
    first? (decimal n ++ c :: rest) = some (.number (.ofInt n), c :: rest) := by
  rw [decimal, JsonNumber.ofInt]
  by_cases hn : n < 0
  · rw [if_pos hn, decide_eq_true hn]
    exact unsignedNumber_toDigits true n.natAbs hc rest
  · rw [if_neg hn, decide_eq_false hn, ← unsignedNumber_toDigits false n.natAbs hc rest]
    obtain ⟨d, ds, hds, hd⟩ := toDigits_eq_cons n.natAbs
    rw [hds]
    exact first?_of_isDigit hd _

end JsonToken

namespace JsonNumber

theorem le_foldl (ds : List Nat) (m : Nat) : m ≤ ds.foldl (fun n d => n * 10 + d) m := by
  induction ds generalizing m with
  | nil => exact Nat.le_refl m
  | cons d ds ih => exact Nat.le_trans (by omega) (ih (m * 10 + d))

/-- Digits whose number is a machine word are all absorbed. -/
theorem absorb_of_lt (ds : List Nat) (m : Nat)
    (h : ds.foldl (fun n d => n * 10 + d) m < UInt64.size) :
    absorb m ds = (ds.foldl (fun n d => n * 10 + d) m, []) := by
  induction ds generalizing m with
  | nil => rfl
  | cons d ds ih =>
    rw [List.foldl_cons] at h ⊢
    rw [absorb, if_pos (Nat.lt_of_le_of_lt (le_foldl ds _) h), ih _ h]

theorem value?_ofInt_word (n : UInt64) : (ofInt n.toNat).value? = some (.natural n.toNat) := by
  have hvalue := ofDigits_digitsOf n.toNat
  have habsorb : absorb 0 (digitsOf n.toNat) = (n.toNat, []) := by
    have h := absorb_of_lt (digitsOf n.toNat) 0 (by
      rw [← JsonToken.ofDigits, hvalue]
      exact n.toNat_lt)
    rwa [← JsonToken.ofDigits, hvalue] at h
  simp only [value?, ofInt, Int.natAbs_natCast, habsorb, ne_eq, not_true_eq_false, or_self,
    if_false, show ¬ (n.toNat : Int) < 0 by omega, decide_false, Bool.not_false, if_true]

end JsonNumber

/-! ### Words of digits -/

namespace TomlScalar

theorem ungroup?_of_isDigit {cs : List Char} (hne : cs ≠ []) (h : ∀ c ∈ cs, c.isDigit) :
    ungroup? Char.isDigit cs = some cs := by
  induction cs with
  | nil => exact absurd rfl hne
  | cons c cs ih =>
    rw [List.forall_mem_cons] at h
    cases cs with
    | nil => rw [ungroup?, if_pos h.1]
    | cons d cs =>
      have hd : d ≠ '_' := ne_of_holds (h.2 d List.mem_cons_self) rfl
      rw [ungroup?, if_pos h.1, ih (List.cons_ne_nil _ _) h.2, Option.map_some]
      · exact fun h => List.cons_ne_nil _ _ h
      · rintro rest h
        injection h with h _
        exact hd h

theorem decimalDigits?_toDigits (n : Nat) :
    decimalDigits? (Nat.toDigits 10 n) = some (Nat.toDigits 10 n) := by
  rw [decimalDigits?, ungroup?_of_isDigit Nat.toDigits_ne_nil fun c hc => isDigit_of_mem_digits hc]
  split
  · next h =>
    exact absurd (eq_nil_of_toDigits_eq_zero_cons (Option.some.inj h)) (List.cons_ne_nil _ _)
  · rfl

theorem ofDigits_toDigits (n : Nat) : ofDigits 10 (Nat.toDigits 10 n) = n := by
  have h : (Nat.toDigits 10 n).map digitValue = digitsOf n :=
    List.map_congr_left fun c hc => if_pos (isDigit_of_mem_digits hc)
  have hvalue := ofDigits_digitsOf n
  rw [← h, JsonToken.ofDigits, List.foldl_map] at hvalue
  exact hvalue

theorem sign_decimal (n : Int) : sign (decimal n) = (decide (n < 0), Nat.toDigits 10 n.natAbs) := by
  rw [decimal]
  by_cases hn : n < 0
  · rw [if_pos hn, decide_eq_true hn]
    rfl
  · rw [if_neg hn, decide_eq_false hn, sign]
    · exact toDigits_ne_cons rfl
    · exact toDigits_ne_cons rfl

theorem integer?_decimal (n : Int) : integer? (decimal n) = bounded? n := by
  have hbase : ∀ c : Char, c.isDigit = false → ∀ ds, decimal n ≠ '0' :: c :: ds := by
    intro c hc ds h
    have hmem : c ∈ Nat.toDigits 10 n.natAbs := by
      have hsign := sign_decimal n
      rw [h] at hsign
      injection hsign with _ hsign
      exact hsign ▸ List.mem_cons_of_mem _ List.mem_cons_self
    exact ne_of_holds (isDigit_of_mem_digits hmem) hc rfl
  rw [integer?.eq_def]
  split
  · next h => exact absurd h (hbase _ rfl _)
  · next h => exact absurd h (hbase _ rfl _)
  · next h => exact absurd h (hbase _ rfl _)
  · rw [sign_decimal]
    simp only [decimalDigits?_toDigits, Option.bind_some, ofDigits_toDigits, decide_eq_true_eq]
    by_cases hn : n < 0
    · rw [if_pos hn, show -(n.natAbs : Int) = n by omega]
    · rw [if_neg hn, show (n.natAbs : Int) = n by omega]

/-! ### Other kinds of words -/

/-- A number of two digits at the front of digits leaves digits. -/
theorem isDigit_of_twoDigits? {low high m : Nat} {cs rest : List Char}
    (h : twoDigits? low high cs = some (m, rest)) (hcs : ∀ c ∈ cs, c.isDigit) :
    ∀ c ∈ rest, c.isDigit := by
  match cs, h with
  | a :: b :: cs, h =>
    rw [twoDigits?] at h
    split at h
    · injection h with h
      injection h with _ h
      subst h
      exact fun c hc => hcs c (List.mem_cons_of_mem _ (List.mem_cons_of_mem _ hc))
    · exact absurd h (by simp)

theorem mark?_of_isDigit {d : Char} (hd : d.isDigit = false) {cs : List Char}
    (hcs : ∀ c ∈ cs, c.isDigit) : mark? d cs = none := by
  cases cs with
  | nil => rfl
  | cons c cs =>
    rw [mark?, if_neg (ne_of_holds (hcs c List.mem_cons_self) hd)]

theorem date?_of_isDigit {cs : List Char} (hcs : ∀ c ∈ cs, c.isDigit) : date? cs = none := by
  rw [date?]
  cases hcentury : twoDigits? 0 99 cs with
  | none => rfl
  | some century =>
    have hrest := isDigit_of_twoDigits? hcentury hcs
    cases hyear : twoDigits? 0 99 century.2 with
    | none => simp only [Option.bind_eq_bind, Option.bind_some, hyear, Option.bind_none]
    | some year =>
      have hmark := mark?_of_isDigit (d := '-') rfl (isDigit_of_twoDigits? hyear hrest)
      simp only [Option.bind_eq_bind, Option.bind_some, hyear, hmark, Option.bind_none]

theorem time?_of_isDigit {cs : List Char} (hcs : ∀ c ∈ cs, c.isDigit) : time? cs = none := by
  rw [time?]
  cases hhour : twoDigits? 0 23 cs with
  | none => rfl
  | some hour =>
    have hmark := mark?_of_isDigit (d := ':') rfl (isDigit_of_twoDigits? hhour hcs)
    simp only [Option.bind_eq_bind, Option.bind_some, hmark, Option.bind_none]

theorem twoDigits?_minus (low high : Nat) (cs : List Char) :
    twoDigits? low high ('-' :: cs) = none := by
  cases cs with
  | nil => rfl
  | cons c cs => rw [twoDigits?, if_neg (fun h => Bool.noConfusion h.1)]

theorem isDatetime_decimal (n : Int) : isDatetime (decimal n) = false := by
  rw [isDatetime, decimal]
  by_cases hn : n < 0
  · rw [if_pos hn, date?, time?]
    simp only [twoDigits?_minus, Option.bind_eq_bind, Option.bind_none]
    rfl
  · have hcs : ∀ c ∈ Nat.toDigits 10 n.natAbs, c.isDigit := fun c hc => isDigit_of_mem_digits hc
    rw [if_neg hn, date?_of_isDigit hcs, time?_of_isDigit hcs]
    rfl

theorem magnitude?_toDigits (n : Nat) : magnitude? (Nat.toDigits 10 n) = none := by
  have hmark : ∀ c : Char, c.isDigit → (!(decide (c = 'e') || decide (c = 'E'))) = true := by
    intro c hc
    simp [ne_of_holds hc (d := 'e') rfl, ne_of_holds hc (d := 'E') rfl]
  have hpoint : ∀ c : Char, c.isDigit → (c != '.') = true :=
    fun c hc => bne_iff_ne.2 (ne_of_holds hc rfl)
  simp only [magnitude?, takeWhile_toDigits hmark, takeWhile_toDigits hpoint, List.drop_length,
    decimalDigits?_toDigits, Option.bind_eq_bind, Option.bind_some]

theorem float?_decimal (n : Int) : float? (decimal n) = none := by
  simp only [float?, sign_decimal]
  have hinf : Nat.toDigits 10 n.natAbs ≠ "inf".toList := toDigits_ne_cons rfl ['n', 'f']
  have hnan : Nat.toDigits 10 n.natAbs ≠ "nan".toList := toDigits_ne_cons rfl ['a', 'n']
  rw [if_neg hinf, if_neg hnan, magnitude?_toDigits]
  rfl

/-- The decimal form of an integer of 64 bits is the word of that integer. -/
theorem ofWord?_decimal {n : Int} (low : -2 ^ 63 ≤ n) (high : n ≤ 2 ^ 63 - 1) :
    ofWord? (decimal n) = some (.integer n) := by
  have htrue : decimal n ≠ "true".toList := decimal_ne_cons rfl ['r', 'u', 'e']
  have hfalse : decimal n ≠ "false".toList := decimal_ne_cons rfl ['a', 'l', 's', 'e']
  rw [ofWord?, if_neg htrue, if_neg hfalse, isDatetime_decimal, if_neg Bool.false_ne_true,
    float?_decimal, integer?_decimal, bounded?, if_pos ⟨low, high⟩]

end TomlScalar

end StackItems
