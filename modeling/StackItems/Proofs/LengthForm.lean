/-
The shortest form of a length.

A length below `0xFD` is its own byte.  A longer one is a marker and a payload of
two, four or eight bytes, and needs a payload so wide.

* `Shortest form n` — the grammar of these forms;
* `decode_eq_ok_iff` — reading takes exactly the shortest forms of the lengths it
  was asked for;
* `shortest_iff` — every length below `2 ^ 64` has one such form, the one that
  `encode` writes, and no other length has any;
* `decode_inverts_encode` — **reading a length and writing it are inverse to each other, on
  every input and for every bound.**
-/
import StackItems.ByteWidth

namespace StackItems

theorem takeBytes_eq_ok_iff {n : Nat} {input bs rest : List UInt8} :
    takeBytes n input = .ok (bs, rest) ↔ bs.length = n ∧ input = bs ++ rest := by
  simp only [takeBytes, List.splitAt_eq]
  constructor
  · intro h
    split at h
    · next hn =>
      injection h with h
      injection h with hbs hrest
      subst hbs hrest
      exact ⟨hn, (List.take_append_drop n input).symm⟩
    · exact absurd h (by simp)
  · rintro ⟨rfl, rfl⟩
    rw [List.take_left', List.drop_left', if_pos rfl]
    · rfl
    · rfl

namespace VarInt

/-- The forms of lengths, each as short as the length allows. -/
inductive Shortest : List UInt8 → Nat → Prop where
  | one {b : UInt8} (small : b < 0xFD) : Shortest [b] b.toNat
  | two {payload : List UInt8} (width : payload.length = 2) (needed : 0xFD ≤ valueLE payload) :
      Shortest (0xFD :: payload) (valueLE payload)
  | four {payload : List UInt8} (width : payload.length = 4)
      (needed : 0x10000 ≤ valueLE payload) : Shortest (0xFE :: payload) (valueLE payload)
  | eight {payload : List UInt8} (width : payload.length = 8)
      (needed : 0x100000000 ≤ valueLE payload) : Shortest (0xFF :: payload) (valueLE payload)

/-! ### Markers -/

theorem announced?_eq_none_iff {b : UInt8} : announced? b = none ↔ b < 0xFD := by
  have hb := b.toNat_lt
  rw [announced?, UInt8.lt_iff_toNat_lt]
  split
  · next h => subst h; simp
  · next h1 =>
    split
    · next h => subst h; simp
    · next h2 =>
      split
      · next h => subst h; simp
      · next h3 =>
        rw [← UInt8.toNat_inj] at h1 h2 h3
        simp only [UInt8.reduceToNat, true_iff] at h1 h2 h3 ⊢
        omega

theorem announced?_eq_some_iff {b : UInt8} {w least : Nat} :
    announced? b = some (w, least) ↔
      b = 0xFD ∧ w = 2 ∧ least = 0xFD ∨ b = 0xFE ∧ w = 4 ∧ least = 0x10000 ∨
        b = 0xFF ∧ w = 8 ∧ least = 0x100000000 := by
  constructor
  · intro h
    rw [announced?] at h
    split at h
    · next hb => injection h with h; injection h with hw hl; exact .inl ⟨hb, hw.symm, hl.symm⟩
    · split at h
      · next hb =>
        injection h with h
        injection h with hw hl
        exact .inr (.inl ⟨hb, hw.symm, hl.symm⟩)
      · split at h
        · next hb =>
          injection h with h
          injection h with hw hl
          exact .inr (.inr ⟨hb, hw.symm, hl.symm⟩)
        · exact absurd h (by simp)
  · rintro (⟨rfl, rfl, rfl⟩ | ⟨rfl, rfl, rfl⟩ | ⟨rfl, rfl, rfl⟩) <;> rfl

/-- The three marked forms as one. -/
theorem Shortest.marked {marker : UInt8} {w least : Nat} {payload : List UInt8}
    (h : announced? marker = some (w, least)) (width : payload.length = w)
    (needed : least ≤ valueLE payload) : Shortest (marker :: payload) (valueLE payload) := by
  rcases announced?_eq_some_iff.1 h with ⟨rfl, rfl, rfl⟩ | ⟨rfl, rfl, rfl⟩ | ⟨rfl, rfl, rfl⟩
  · exact .two width needed
  · exact .four width needed
  · exact .eight width needed

theorem Shortest.cases_announced {form : List UInt8} {n : Nat} (h : Shortest form n) :
    (∃ b, announced? b = none ∧ form = [b] ∧ n = b.toNat) ∨
      ∃ marker w least payload, announced? marker = some (w, least) ∧ payload.length = w ∧
        least ≤ valueLE payload ∧ form = marker :: payload ∧ n = valueLE payload := by
  cases h with
  | one small => exact .inl ⟨_, announced?_eq_none_iff.2 small, rfl, rfl⟩
  | two width needed => exact .inr ⟨_, _, _, _, rfl, width, needed, rfl, rfl⟩
  | four width needed => exact .inr ⟨_, _, _, _, rfl, width, needed, rfl, rfl⟩
  | eight width needed => exact .inr ⟨_, _, _, _, rfl, width, needed, rfl, rfl⟩

/-! ### Reading -/

theorem bounded_eq_ok_iff {max : UInt64} {v n : Nat} {rest rest' : List UInt8} :
    bounded max v rest = .ok (n, rest') ↔ v ≤ max.toNat ∧ n = v ∧ rest' = rest := by
  rw [bounded]
  split
  · next h => simp [h, eq_comm]
  · next h => simp [h]

/-- In front of anything, a form is read as its length, if that is not too large. -/
theorem Shortest.decode_append {form : List UInt8} {n : Nat} (h : Shortest form n) (max : UInt64)
    (rest : List UInt8) : decode max (form ++ rest) = bounded max n rest := by
  rcases h.cases_announced with
    ⟨b, hb, rfl, rfl⟩ | ⟨marker, w, least, payload, hm, hw, hneeded, rfl, rfl⟩
  · rw [List.singleton_append, decode, hb]
  · have htake : takeBytes w (payload ++ rest) = .ok (payload, rest) :=
      takeBytes_eq_ok_iff.2 ⟨hw, rfl⟩
    rw [List.cons_append, decode, hm]
    simp only [htake, if_neg (Nat.not_lt.2 hneeded)]

theorem decode_eq_ok_iff {max : UInt64} {input rest : List UInt8} {n : Nat} :
    decode max input = .ok (n, rest) ↔
      ∃ form, Shortest form n ∧ n ≤ max.toNat ∧ input = form ++ rest := by
  constructor
  · intro h
    cases input with
    | nil => exact absurd h (by simp [decode])
    | cons b input =>
      rw [decode] at h
      split at h
      · next hb =>
        obtain ⟨hmax, rfl, rfl⟩ := bounded_eq_ok_iff.1 h
        exact ⟨[b], .one (announced?_eq_none_iff.1 hb), hmax, rfl⟩
      · next w least hb =>
        split at h
        · exact absurd h (by simp)
        · next payload rest' htake =>
          obtain ⟨width, rfl⟩ := takeBytes_eq_ok_iff.1 htake
          split at h
          · exact absurd h (by simp)
          · next hneeded =>
            obtain ⟨hmax, rfl, rfl⟩ := bounded_eq_ok_iff.1 h
            exact ⟨b :: payload, .marked hb width (Nat.le_of_not_lt hneeded), hmax, rfl⟩
  · rintro ⟨form, hform, hmax, rfl⟩
    rw [hform.decode_append]
    exact bounded_eq_ok_iff.2 ⟨hmax, rfl, rfl⟩

/-! ### Writing -/

theorem shortest_encode {n : Nat} (h : n < 2 ^ 64) : Shortest (encode n) n := by
  have marked : ∀ {marker : UInt8} {w least : Nat}, announced? marker = some (w, least) →
      n < 256 ^ w → least ≤ n → Shortest (marker :: bytesLE w n) n := by
    intro marker w least hm hw hneeded
    have hv := valueLE_bytesLE hw
    have hs := Shortest.marked hm (length_bytesLE w n) (by rw [hv]; exact hneeded)
    rwa [hv] at hs
  rw [encode]
  split
  · next h1 =>
    have hn : (UInt8.ofNat n).toNat = n := by
      rw [UInt8.toNat_ofNat']
      omega
    have hs := Shortest.one (b := UInt8.ofNat n) (by
      rw [UInt8.lt_iff_toNat_lt, hn]
      exact h1)
    rwa [hn] at hs
  · next h1 =>
    split
    · exact marked rfl (by omega) (by omega)
    · next h2 =>
      split
      · exact marked rfl (by omega) (by omega)
      · next h3 => exact marked rfl (by omega) (by omega)

theorem Shortest.lt {form : List UInt8} {n : Nat} (h : Shortest form n) : n < 2 ^ 64 := by
  have wide : ∀ {payload : List UInt8} {w : Nat}, payload.length = w → w ≤ 8 →
      valueLE payload < 2 ^ 64 := by
    intro payload w hw h8
    have hv := valueLE_lt payload
    have hp : 256 ^ payload.length ≤ 256 ^ 8 := Nat.pow_le_pow_right (by decide) (by omega)
    omega
  cases h with
  | @one b small =>
    have hb := b.toNat_lt
    omega
  | two width needed => exact wide width (by decide)
  | four width needed => exact wide width (by decide)
  | eight width needed => exact wide width (by decide)

theorem Shortest.eq_encode {form : List UInt8} {n : Nat} (h : Shortest form n) :
    form = encode n := by
  have bytes : ∀ {payload : List UInt8} {w : Nat}, payload.length = w →
      bytesLE w (valueLE payload) = payload := by
    intro payload w hw
    rw [← hw, bytesLE_valueLE]
  have hlt := fun payload => valueLE_lt payload
  cases h with
  | @one b small =>
    have hb : b.toNat < 0xFD := UInt8.lt_iff_toNat_lt.1 small
    rw [encode, if_pos hb, UInt8.ofNat_toNat]
  | @two payload width needed =>
    have hv := hlt payload
    rw [width] at hv
    rw [encode, if_neg (by omega), if_pos (by omega), bytes width]
  | @four payload width needed =>
    have hv := hlt payload
    rw [width] at hv
    rw [encode, if_neg (by omega), if_neg (by omega), if_pos (by omega), bytes width]
  | @eight payload width needed =>
    rw [encode, if_neg (by omega), if_neg (by omega), if_neg (by omega), bytes width]

theorem shortest_iff {form : List UInt8} {n : Nat} :
    Shortest form n ↔ n < 2 ^ 64 ∧ form = encode n :=
  ⟨fun h => ⟨h.lt, h.eq_encode⟩, fun ⟨hn, hf⟩ => hf ▸ shortest_encode hn⟩

/-! ### The two directions -/

/-- The number of bytes of a form goes up in four steps. -/
theorem length_encode (n : Nat) :
    (encode n).length
      = if n < 0xFD then 1 else if n ≤ 0xFFFF then 3 else if n ≤ 0xFFFFFFFF then 5 else 9 := by
  rw [encode]
  split_ifs <;> simp

/-- A length is read exactly where its form lies in front. -/
theorem decode_eq_ok_iff_encode {max : UInt64} {input rest : List UInt8} {n : Nat} :
    decode max input = .ok (n, rest) ↔ n ≤ max.toNat ∧ input = encode n ++ rest := by
  rw [decode_eq_ok_iff]
  constructor
  · rintro ⟨form, hform, hmax, rfl⟩
    rw [hform.eq_encode]
    exact ⟨hmax, rfl⟩
  · rintro ⟨hmax, rfl⟩
    exact ⟨encode n, shortest_encode (Nat.lt_of_le_of_lt hmax max.toNat_lt), hmax, rfl⟩

/-- A length that was written in front of anything is read back if the bound allows it, and
otherwise refused by name.  Whatever is read was written so: an input from which a length is
read is the form of the length and the rest.  Hence a length has one form that is read, of one,
three, five or nine bytes, or none if the bound forbids it. -/
theorem decode_inverts_encode (v max : UInt64) :
    (∀ rest, decode max (encode v.toNat ++ rest)
      = if v ≤ max then .ok (v.toNat, rest) else .error (.lengthTooLarge v.toNat max)) ∧
    (FormatFault.lengthTooLarge v.toNat max).text
      = "var int " ++ toString v ++ " exceeds " ++ toString max ∧
    (∀ input rest n,
      decode max input = .ok (n, rest) ↔ n ≤ max.toNat ∧ input = encode n ++ rest) ∧
    (v ≤ max ↔ ∃! form, decode max form = .ok (v.toNat, [])) ∧
    (encode v.toNat).length
      = if v < 0xFD then 1 else if v ≤ 0xFFFF then 3 else if v ≤ 0xFFFFFFFF then 5 else 9 := by
  refine ⟨fun rest => ?_, rfl, fun input rest n => decode_eq_ok_iff_encode, ?_, ?_⟩
  · rw [(shortest_encode v.toNat_lt).decode_append, bounded]
    exact if_congr UInt64.le_iff_toNat_le.symm rfl rfl
  · constructor
    · intro hle
      refine ⟨encode v.toNat, ?_, fun form hform => ?_⟩
      · exact decode_eq_ok_iff_encode.2 ⟨UInt64.le_iff_toNat_le.1 hle, by rw [List.append_nil]⟩
      · rw [(decode_eq_ok_iff_encode.1 hform).2, List.append_nil]
    · rintro ⟨form, hform, -⟩
      exact UInt64.le_iff_toNat_le.2 (decode_eq_ok_iff_encode.1 hform).1
  · rw [length_encode]
    rfl

example : encode 0xFC = [0xFC] ∧ encode 0xFD = [0xFD, 0xFD, 0] ∧
    encode 0x10000 = [0xFE, 0, 0, 1, 0] := by decide

end VarInt

end StackItems
