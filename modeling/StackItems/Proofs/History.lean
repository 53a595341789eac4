/-
What a history of changes leaves in a map.

A history lists the changes of a map, the earliest first.  It alone settles which keys the
map has, in which order and with which values, and these are read off the history without
running it:

* `Present` — a key was inserted after it was removed or the map was cleared for the last
  time;
* `LastValue` — the value of the last insertion of a key;
* `ArrivesLast` — the position at which a key last turned from absent to present;
* `Leaves` — entries that are as a history says, and `Leaves.edit`, one change more;
* `map_follows_history` — **after any changes of any maps, every map is as its own history
  says, and every change has given back what a look-up would have found before it.**

Design notes: the entries that a map has at the beginning count as insertions in their
order, so every history starts from nothing.
-/
import StackItems.Proofs.RenamedStorage
import StackItems.Proofs.Symmetry

namespace StackItems

open Heap (getElem?_concat_eq_some)

/-- A change of a map. -/
inductive MapEdit where
  | insert (key : Primitive) (value : Item)
  | remove (key : Primitive)
  | clear

namespace MapEdit

/-- The key that a change is about; clearing is about all keys. -/
def key? : MapEdit → Option Primitive
  | insert k _ | remove k => some k
  | clear => none

/-- After the change the key is absent. -/
def Drops (k : Primitive) : MapEdit → Prop
  | insert _ _ => False
  | remove l => l = k
  | clear => True

end MapEdit

/-- The entries after a change. -/
def Entries.edit (e : Entries Item) : MapEdit → Entries Item
  | .insert k v => e.insert k v
  | .remove k => e.erase k
  | .clear => .empty

namespace Heap

/-- A change of the map behind a handle, and the value that was under its key. -/
def edit (h : Heap) (r : MapRef) : MapEdit → Option Item × Heap
  | .insert k v => h.insertKey r k v
  | .remove k => h.removeKey r k
  | .clear => (none, h.clearMap r)

/-- Changes one after the other, each through a handle of its own, with what they give
back. -/
def editAll (h : Heap) : List (MapRef × MapEdit) → List (Option Item) × Heap
  | [] => ([], h)
  | (r, e) :: rest =>
    let (previous, h) := h.edit r e
    let (others, h) := h.editAll rest
    (previous :: others, h)

/-- All changes of a map: its entries as insertions, and then those of the given changes
that go through one of its handles. -/
def history (h : Heap) (r : MapRef) (edits : List (MapRef × MapEdit)) : List MapEdit :=
  (h.entries r).toList.map (fun entry => .insert entry.1 entry.2)
    ++ (edits.filter fun edit => edit.1 = r).map Prod.snd

end Heap

/-! ### What a history says -/

section

variable (history : List MapEdit) (k : Primitive)

/-- The change at a position inserts the key. -/
def InsertsAt (i : Nat) : Prop := ∃ v, history[i]? = some (.insert k v)

/-- The key is inserted at a position behind which it is neither removed nor cleared. -/
def Present : Prop :=
  ∃ i, InsertsAt history k i ∧ ∀ j e, i < j → history[j]? = some e → ¬ e.Drops k

/-- The value is the one of the last insertion of the key. -/
def LastValue (v : Item) : Prop :=
  ∃ i, history[i]? = some (.insert k v) ∧ ∀ j, i < j → ¬ InsertsAt history k j

/-- The insertion at a position turns the key from absent to present. -/
def Arrives (i : Nat) : Prop := InsertsAt history k i ∧ ¬ Present (history.take i) k

/-- The last position at which the key turns from absent to present. -/
def ArrivesLast (i : Nat) : Prop :=
  Arrives history k i ∧ ∀ j, i < j → ¬ Arrives history k j

/-- The entries are as the history says. -/
structure Leaves (e : Entries Item) : Prop where
  distinct : e.keys.Nodup
  present : ∀ k, k ∈ e.keys ↔ Present history k
  /-- Of two keys the one that arrived first is listed first. -/
  order : e.keys.Pairwise fun k l =>
    ∃ i j, ArrivesLast history k i ∧ ArrivesLast history l j ∧ i < j
  value : ∀ k v, e.get? k = some v ↔ Present history k ∧ LastValue history k v

end

/-! ### One change more -/

section

variable {history : List MapEdit} {k : Primitive} {e : MapEdit} {v : Item} {i : Nat}

theorem insertsAt_concat :
    InsertsAt (history ++ [e]) k i ↔
      InsertsAt history k i ∨ i = history.length ∧ ∃ v, e = .insert k v := by
  simp only [InsertsAt, getElem?_concat_eq_some]
  constructor
  · rintro ⟨v, hv | ⟨hi, he⟩⟩
    · exact .inl ⟨v, hv⟩
    · exact .inr ⟨hi, v, he⟩
  · rintro (⟨v, hv⟩ | ⟨hi, v, he⟩)
    · exact ⟨v, .inl hv⟩
    · exact ⟨v, .inr ⟨hi, he⟩⟩

theorem InsertsAt.lt (h : InsertsAt history k i) : i < history.length := by
  obtain ⟨v, hv⟩ := h
  exact (List.getElem?_eq_some_iff.1 hv).1

theorem present_concat :
    Present (history ++ [e]) k ↔
      (∃ v, e = .insert k v) ∨ Present history k ∧ ¬ e.Drops k := by
  constructor
  · rintro ⟨i, hi, hlater⟩
    rcases insertsAt_concat.1 hi with hi | ⟨-, he⟩
    · refine .inr ⟨⟨i, hi, ?_⟩, ?_⟩
      · intro j d hij hd
        exact hlater j d hij (getElem?_concat_eq_some.2 (.inl hd))
      · exact hlater _ e hi.lt (getElem?_concat_eq_some.2 (.inr ⟨rfl, rfl⟩))
    · exact .inl he
  · rintro (he | ⟨⟨i, hi, hlater⟩, hkeep⟩)
    · refine ⟨history.length, insertsAt_concat.2 (.inr ⟨rfl, he⟩), ?_⟩
      intro j d hj hd
      have := (List.getElem?_eq_some_iff.1 hd).1
      simp at this
      omega
    · refine ⟨i, insertsAt_concat.2 (.inl hi), ?_⟩
      intro j d hij hd
      rcases getElem?_concat_eq_some.1 hd with hd | ⟨-, rfl⟩
      · exact hlater j d hij hd
      · exact hkeep

theorem present_concat_insert {l : Primitive} :
    Present (history ++ [.insert k v]) l ↔ l = k ∨ Present history l := by
  rw [present_concat]
  constructor
  · rintro (⟨w, he⟩ | ⟨hl, -⟩)
    · injection he with hk
      exact .inl hk.symm
    · exact .inr hl
  · rintro (rfl | hl)
    · exact .inl ⟨v, rfl⟩
    · exact .inr ⟨hl, id⟩

theorem present_concat_remove {l : Primitive} :
    Present (history ++ [.remove k]) l ↔ Present history l ∧ l ≠ k := by
  rw [present_concat]
  constructor
  · rintro (⟨w, he⟩ | ⟨hl, hkeep⟩)
    · injection he
    · exact ⟨hl, fun h => hkeep h.symm⟩
  · rintro ⟨hl, hne⟩
    exact .inr ⟨hl, fun h => hne h.symm⟩

theorem not_present_concat_clear : ¬ Present (history ++ [.clear]) k := by
  rw [present_concat]
  rintro (⟨v, he⟩ | ⟨-, hkeep⟩)
  · injection he
  · exact hkeep trivial

theorem lastValue_concat :
    LastValue (history ++ [e]) k v ↔
      e = .insert k v ∨ LastValue history k v ∧ ∀ w, e ≠ .insert k w := by
  constructor
  · rintro ⟨i, hi, hlast⟩
    rcases getElem?_concat_eq_some.1 hi with hi | ⟨-, he⟩
    · refine .inr ⟨⟨i, hi, ?_⟩, ?_⟩
      · intro j hij hj
        exact hlast j hij (insertsAt_concat.2 (.inl hj))
      · intro w he
        exact hlast _ (InsertsAt.lt ⟨v, hi⟩) (insertsAt_concat.2 (.inr ⟨rfl, w, he⟩))
    · exact .inl he
  · rintro (rfl | ⟨⟨i, hi, hlast⟩, hne⟩)
    · refine ⟨history.length, getElem?_concat_eq_some.2 (.inr ⟨rfl, rfl⟩), ?_⟩
      intro j hj hins
      have := hins.lt
      simp at this
      omega
    · refine ⟨i, getElem?_concat_eq_some.2 (.inl hi), ?_⟩
      intro j hij hins
      rcases insertsAt_concat.1 hins with hins | ⟨-, w, he⟩
      · exact hlast j hij hins
      · exact hne w he

theorem arrives_concat :
    Arrives (history ++ [e]) k i ↔
      Arrives history k i ∨
        i = history.length ∧ (∃ v, e = .insert k v) ∧ ¬ Present history k := by
  rw [Arrives, insertsAt_concat]
  constructor
  · rintro ⟨hi | ⟨rfl, he⟩, habsent⟩
    · rw [List.take_append_of_le_length (Nat.le_of_lt hi.lt)] at habsent
      exact .inl ⟨hi, habsent⟩
    · rw [List.take_left] at habsent
      exact .inr ⟨rfl, he, habsent⟩
  · rintro (⟨hi, habsent⟩ | ⟨rfl, he, habsent⟩)
    · rw [List.take_append_of_le_length (Nat.le_of_lt hi.lt)]
      exact ⟨.inl hi, habsent⟩
    · rw [List.take_left]
      exact ⟨.inr ⟨rfl, he⟩, habsent⟩

/-- A key that arrives with a change arrives last with it. -/
theorem arrivesLast_concat_self (habsent : ¬ Present history k) :
    ArrivesLast (history ++ [.insert k v]) k history.length := by
  refine ⟨arrives_concat.2 (.inr ⟨rfl, ⟨v, rfl⟩, habsent⟩), ?_⟩
  intro j hj harrives
  have := harrives.1.lt
  simp at this
  omega

/-- For every other key its last arrival is what it was. -/
theorem ArrivesLast.concat (h : ArrivesLast history k i)
    (other : ∀ v, e = .insert k v → Present history k) :
    ArrivesLast (history ++ [e]) k i := by
  refine ⟨arrives_concat.2 (.inl h.1), ?_⟩
  intro j hij harrives
  rcases arrives_concat.1 harrives with hj | ⟨-, ⟨v, he⟩, habsent⟩
  · exact h.2 j hij hj
  · exact habsent (other v he)

theorem not_present_nil : ¬ Present [] k := by
  rintro ⟨i, ⟨v, hv⟩, -⟩
  simp at hv

/-- A key that is present has arrived. -/
theorem Present.exists_arrivesLast (h : Present history k) : ∃ i, ArrivesLast history k i := by
  induction history using List.reverseRecOn with
  | nil => exact absurd h not_present_nil
  | append_singleton history e ih =>
    by_cases hold : Present history k
    · obtain ⟨i, hi⟩ := ih hold
      exact ⟨i, hi.concat fun _ _ => hold⟩
    · rcases present_concat.1 h with ⟨v, rfl⟩ | ⟨hold', -⟩
      · exact ⟨_, arrivesLast_concat_self hold⟩
      · exact absurd hold' hold

end

namespace Leaves

variable {history : List MapEdit} {es : Entries Item}

theorem nil : Leaves [] .empty where
  distinct := .nil
  present k := iff_of_false List.not_mem_nil not_present_nil
  order := .nil
  value k v := iff_of_false (by simp [Entries.get?_empty]) fun h => not_present_nil h.1

theorem order_concat (a : Leaves history es) {e : MapEdit}
    (other : ∀ k ∈ es.keys, ∀ v, e = .insert k v → Present history k) :
    es.keys.Pairwise fun k l => ∃ i j, ArrivesLast (history ++ [e]) k i ∧
      ArrivesLast (history ++ [e]) l j ∧ i < j := by
  refine a.order.imp_of_mem ?_
  rintro k l hk hl ⟨i, j, hi, hj, hij⟩
  exact ⟨i, j, hi.concat (other k hk), hj.concat (other l hl), hij⟩

theorem insert (a : Leaves history es) (k : Primitive) (v : Item) :
    Leaves (history ++ [.insert k v]) (es.insert k v) where
  distinct := Entries.nodup_keys _
  present l := by
    rw [present_concat_insert, Entries.keys_insert, ← a.present]
    by_cases hk : k ∈ es.keys
    · rw [if_pos hk]
      refine ⟨.inr, ?_⟩
      rintro (rfl | hl)
      · exact hk
      · exact hl
    · rw [if_neg hk, List.mem_append, List.mem_singleton, or_comm]
  order := by
    -- The last arrival of a key that was there stays what it was, also if it is this key.
    have old := a.order_concat (e := .insert k v) fun l hl _ _ => (a.present l).1 hl
    rw [Entries.keys_insert]
    by_cases hk : k ∈ es.keys
    · rwa [if_pos hk]
    · rw [if_neg hk, List.pairwise_append]
      refine ⟨old, List.pairwise_singleton .., ?_⟩
      intro l hl m hm
      obtain rfl := List.mem_singleton.1 hm
      have hpresent := (a.present l).1 hl
      obtain ⟨i, hi⟩ := hpresent.exists_arrivesLast
      have habsent : ¬ Present history m := mt (a.present m).2 hk
      exact ⟨i, history.length, hi.concat fun _ _ => hpresent, arrivesLast_concat_self habsent,
        hi.1.1.lt⟩
  value l w := by
    rw [Entries.get?_insert, present_concat_insert, lastValue_concat]
    by_cases hl : l = k
    · subst hl
      simp
    · simp [hl, Ne.symm hl, a.value]

theorem remove (a : Leaves history es) (k : Primitive) :
    Leaves (history ++ [.remove k]) (es.erase k) where
  distinct := Entries.nodup_keys _
  present l := by
    rw [present_concat_remove, Entries.keys_erase, List.mem_filter, a.present, bne_iff_ne]
  order := by
    rw [Entries.keys_erase]
    exact (a.order_concat (e := .remove k) fun _ _ _ he => by simp at he).filter _
  value l w := by
    rw [Entries.get?_erase, present_concat_remove, lastValue_concat]
    by_cases hl : l = k
    · simp [hl]
    · simp [hl, a.value]

theorem clear : Leaves (history ++ [.clear]) .empty where
  distinct := .nil
  present k := iff_of_false List.not_mem_nil not_present_concat_clear
  order := .nil
  value k v := iff_of_false (by simp [Entries.get?_empty]) fun h => not_present_concat_clear h.1

/-- A change more in the history is a change more of the entries. -/
theorem edit (a : Leaves history es) (e : MapEdit) : Leaves (history ++ [e]) (es.edit e) := by
  cases e with
  | insert k v => exact a.insert k v
  | remove k => exact a.remove k
  | clear => exact clear

end Leaves

/-! ### What can be asked of entries -/

namespace Entries

/-- All that can be asked of entries agrees with their keys. -/
structure AgreesWithKeys (es : Entries Item) : Prop where
  toList : es.toList = es.keys.zip es.values
  size : es.size = es.keys.length
  isEmpty : es.isEmpty = true ↔ es.keys = []
  contains : ∀ k, es.contains k = true ↔ k ∈ es.keys

theorem agreesWithKeys (es : Entries Item) : es.AgreesWithKeys where
  toList := by
    rw [keys, values, List.zip_map']
    exact (List.map_id _).symm
  size := by rw [Entries.size, keys, List.length_map]
  isEmpty := by simp [Entries.isEmpty, keys]
  contains _ := contains_eq_true_iff

end Entries

/-! ### The entries at the beginning -/

/-- Entries are the insertions of their keys and values, one after the other. -/
theorem leaves_insertions (es : Entries Item) :
    Leaves (es.toList.map fun entry => .insert entry.1 entry.2) es := by
  obtain ⟨l, hl⟩ := es
  induction l using List.reverseRecOn with
  | nil => exact .nil
  | append_singleton l entry ih =>
    obtain ⟨k, v⟩ := entry
    rw [List.map_append, List.nodup_append] at hl
    obtain ⟨hold, -, hnew⟩ := hl
    have absent : k ∉ Entries.keys ⟨l, hold⟩ := fun hk => hnew k hk k (by simp) rfl
    have last := (ih hold).insert k v
    have hins : Entries.insert ⟨l, hold⟩ k v = ⟨l ++ [(k, v)], hl⟩ :=
      Entries.ext (Entries.toList_insert_of_not_mem v absent)
    rw [hins] at last
    rw [List.map_append]
    exact last

namespace Heap

variable {h : Heap} {r s : MapRef}

/-! ### Changes in a heap -/

theorem entries_edit_self (held : h.Holds (.map r)) (e : MapEdit) :
    (h.edit r e).2.entries r = (h.entries r).edit e := by
  cases e with
  | insert k v => exact entries_putMap_self _ held
  | remove k => exact entries_putMap_self _ held
  | clear => exact entries_putMap_self _ held

theorem entries_edit_of_ne (hr : r ≠ s) (e : MapEdit) :
    (h.edit s e).2.entries r = h.entries r := by
  cases e with
  | insert k v => exact entries_putMap_of_ne _ hr
  | remove k => exact entries_putMap_of_ne _ hr
  | clear => exact entries_putMap_of_ne _ hr

theorem holds_edit (held : h.Holds (.map r)) (e : MapEdit) :
    (h.edit s e).2.Holds (.map r) := by
  cases e with
  | insert k v => exact (holds_putMap _ _ _).2 held
  | remove k => exact (holds_putMap _ _ _).2 held
  | clear => exact (holds_putMap _ _ _).2 held

theorem edit_fst (h : Heap) (r : MapRef) (e : MapEdit) :
    (h.edit r e).1 = e.key?.bind (h.entries r).get? := by
  cases e with
  | insert k v => rfl
  | remove k => rfl
  | clear => rfl

theorem editAll_cons (h : Heap) (r : MapRef) (e : MapEdit) (rest : List (MapRef × MapEdit)) :
    h.editAll ((r, e) :: rest)
      = ((h.edit r e).1 :: ((h.edit r e).2.editAll rest).1, ((h.edit r e).2.editAll rest).2) :=
  rfl

/-- A map that is as its history says is so after more changes, with those among them that
are its own. -/
theorem leaves_editAll {past : List MapEdit} (held : h.Holds (.map r))
    (a : Leaves past (h.entries r)) (edits : List (MapRef × MapEdit)) :
    Leaves (past ++ (edits.filter fun edit => edit.1 = r).map Prod.snd)
      ((h.editAll edits).2.entries r) := by
  induction edits generalizing h past with
  | nil => simpa [editAll] using a
  | cons edit rest ih =>
    obtain ⟨s, e⟩ := edit
    rw [editAll_cons]
    by_cases hs : s = r
    · subst hs
      have next := a.edit e
      rw [← entries_edit_self held] at next
      simpa using ih (holds_edit held e) next
    · rw [← entries_edit_of_ne (Ne.symm hs) e] at a
      simpa [hs] using ih (holds_edit held e) a

/-- Every change gives back what a look-up of its key finds after the changes before it. -/
theorem editAll_fst (h : Heap) (edits : List (MapRef × MapEdit)) (i : Nat) :
    (h.editAll edits).1[i]? = edits[i]?.map fun edit =>
      edit.2.key?.bind ((h.editAll (edits.take i)).2.entries edit.1).get? := by
  induction edits generalizing h i with
  | nil => rfl
  | cons edit rest ih =>
    obtain ⟨s, e⟩ := edit
    rw [editAll_cons]
    cases i with
    | zero =>
      show some (h.edit s e).1 = _
      rw [edit_fst]
      rfl
    | succ i =>
      show ((h.edit s e).2.editAll rest).1[i]? = _
      rw [ih]
      rfl

/-! ### Keys and equality -/

theorem toKey_eq_ok_iff {x : Item} {k : Primitive} : x.toKey = .ok k ↔ x = .prim k := by
  cases x <;> simp [Item.toKey]

theorem equals_prim (h : Heap) (p q : Primitive) :
    (h.equals (.prim p) (.prim q)).result = .ok (p == q) := by
  rw [equals, compare, compareAt]
  rfl

/-- Two keys find the same in every map exactly if they are one key. -/
theorem get?_eq_get?_iff {k l : Primitive} :
    (∀ es : Entries Item, es.get? k = es.get? l) ↔ k = l := by
  constructor
  · intro same
    by_contra hne
    have found := same (Entries.empty.insert k default)
    rw [Entries.get?_insert, Entries.get?_insert, if_pos rfl, if_neg (Ne.symm hne),
      Entries.get?_empty] at found
    injection found
  · rintro rfl es
    rfl

/-! ### Maps and their histories -/

/-- After any changes of any maps, the map behind a handle is as its history says.  Every
change has given back what a look-up of its key would have found just before.  All that can
be asked of the map agrees with its keys.  Two keys are of one entry exactly if they are
equal items, and items of two kinds never are. -/
theorem map_follows_history (held : h.Holds (.map r)) (edits : List (MapRef × MapEdit)) :
    Leaves (h.history r edits) ((h.editAll edits).2.entries r) ∧
      (∀ i : Nat, (h.editAll edits).1[i]? = edits[i]?.map fun edit =>
        edit.2.key?.bind ((h.editAll (edits.take i)).2.entries edit.1).get?) ∧
      ((h.editAll edits).2.entries r).AgreesWithKeys ∧
      (h.editAll edits).2.count (.map r) = ((h.editAll edits).2.entries r).keys.length ∧
      ∀ (x y : Item) (k l : Primitive), x.toKey = .ok k → y.toKey = .ok l →
        ((h.equals x y).result = .ok true ↔ ∀ es : Entries Item, es.get? k = es.get? l) ∧
          (x.kind ≠ y.kind → (h.equals x y).result = .ok false) := by
  have agrees := ((h.editAll edits).2.entries r).agreesWithKeys
  refine ⟨leaves_editAll held (leaves_insertions _) edits, h.editAll_fst edits, agrees,
    agrees.size, ?_⟩
  intro x y k l hx hy
  rw [toKey_eq_ok_iff] at hx hy
  subst hx hy
  rw [equals_prim, get?_eq_get?_iff]
  refine ⟨by simp, fun hkind => ?_⟩
  rw [beq_false_of_ne]
  rintro rfl
  exact hkind rfl

/-- A map with one key, the integer one. -/
def oneKey : Heap := { maps := #[Entries.empty.insert (.integer 1) (.prim (.boolean true))] }

/-- A byte string is inserted, removed and inserted again, with other changes in between. -/
def reinserted : List (MapRef × MapEdit) :=
  [(⟨0⟩, .insert (.bytes [1]) (.prim (.integer 2))),
    (⟨0⟩, .insert (.boolean true) (.prim (.integer 3))),
    (⟨0⟩, .insert (.integer 1) (.prim (.integer 4))),
    (⟨0⟩, .remove (.bytes [1])),
    (⟨0⟩, .insert (.bytes [1]) (.prim (.integer 5)))]

/-- A key that comes back is listed last, and one that is inserted anew stays where it is.
The integer one, the byte one and the true value are three keys. -/
theorem map_follows_history_reinserted :
    ((oneKey.editAll reinserted).2.entries ⟨0⟩).keys
        = [.integer 1, .boolean true, .bytes [1]] ∧
      LastValue (oneKey.history ⟨0⟩ reinserted) (.bytes [1]) (.prim (.integer 5)) ∧
      (oneKey.editAll reinserted).1
        = [none, none, some (.prim (.boolean true)), some (.prim (.integer 2)), none] ∧
      (oneKey.equals (.prim (.integer 1)) (.prim (.bytes [1]))).result = .ok false ∧
      (oneKey.equals (.prim (.integer 1)) (.prim (.boolean true))).result = .ok false := by
  have held : oneKey.Holds (.map ⟨0⟩) := (by decide : 0 < 1)
  obtain ⟨leaves, -, -, -, apart⟩ := map_follows_history held reinserted
  obtain ⟨-, last⟩ := (leaves.value (.bytes [1]) (.prim (.integer 5))).1 rfl
  exact ⟨rfl, last, rfl, (apart _ _ _ _ rfl rfl).2 (by decide),
    (apart _ _ _ _ rfl rfl).2 (by decide)⟩

end Heap

end StackItems
