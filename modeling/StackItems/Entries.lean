/-
The entries of a map, in the order in which their keys arrived.

`Entries α` is a list of keys and values in which no key occurs twice.  A key
keeps its place until it is removed: inserting under a present key replaces the
value and moves nothing.

* `toList_insert_of_mem`, `toList_insert_of_not_mem` — where an insertion goes;
* `get?_empty`, `get?_insert`, `get?_erase` — what a look-up finds.
-/
import StackItems.Item

namespace StackItems

/-- Keys and values, each key at most once, in order of arrival. -/
structure Entries (α : Type) where
  toList : List (Primitive × α)
  nodup : (toList.map Prod.fst).Nodup

namespace Entries

variable {α : Type}

@[ext] theorem ext {e f : Entries α} (h : e.toList = f.toList) : e = f := by
  cases e; cases f; congr

/-- No entries. -/
def empty : Entries α := ⟨[], .nil⟩

instance : Inhabited (Entries α) := ⟨empty⟩

/-- The keys, in order of arrival. -/
def keys (e : Entries α) : List Primitive := e.toList.map Prod.fst

/-- The values, in the order of their keys. -/
def values (e : Entries α) : List α := e.toList.map Prod.snd

/-- The number of entries. -/
def size (e : Entries α) : Nat := e.toList.length

/-- Whether there are no entries. -/
def isEmpty (e : Entries α) : Bool := e.toList.isEmpty

/-- The value under a key, if the key is present. -/
def get? (e : Entries α) (k : Primitive) : Option α := e.toList.lookup k

/-- Whether a key is present. -/
def contains (e : Entries α) (k : Primitive) : Bool := e.toList.any (·.1 == k)

theorem contains_eq_true_iff {e : Entries α} {k : Primitive} :
    e.contains k = true ↔ k ∈ e.keys := by
  simp only [contains, keys, List.any_eq_true, List.mem_map, beq_iff_eq]

/-- The list with the value under one key replaced. -/
def replaceIn (k : Primitive) (v : α) (l : List (Primitive × α)) : List (Primitive × α) :=
  l.map fun entry => if entry.1 == k then (entry.1, v) else entry

@[simp] theorem map_fst_replaceIn (k : Primitive) (v : α) (l : List (Primitive × α)) :
    (replaceIn k v l).map Prod.fst = l.map Prod.fst := by
  simp only [replaceIn, List.map_map]
  apply List.map_congr_left
  intro entry _
  simp only [Function.comp]
  split <;> rfl

/-- Puts a value under a key: at the key's place if it is present, else at the
end. -/
def insert (e : Entries α) (k : Primitive) (v : α) : Entries α :=
  if h : e.contains k then ⟨replaceIn k v e.toList, by simpa using e.nodup⟩
  else ⟨e.toList ++ [(k, v)], by
    rw [List.map_append, List.nodup_append]
    refine ⟨e.nodup, by simp, ?_⟩
    intro a ha b hb
    have hb : b = k := by simpa using hb
    subst hb
    rintro rfl
    exact h (contains_eq_true_iff.2 ha)⟩

/-- Takes a key and its value out and closes the gap. -/
def erase (e : Entries α) (k : Primitive) : Entries α :=
  ⟨e.toList.filter (·.1 != k), e.nodup.sublist (List.filter_sublist.map _)⟩

/-- The entries of a list of pairs, put in one after the other: a repeated key
keeps its first place and takes its last value. -/
def ofList (l : List (Primitive × α)) : Entries α :=
  l.foldl (fun e entry => e.insert entry.1 entry.2) empty

/-- The values of a list under the integers from zero upwards. -/
def numbered (xs : List α) : Entries α :=
  ⟨xs.zipIdx.map fun entry => (.integer entry.2, entry.1), by
    have h : (xs.zipIdx.map fun entry => (Primitive.integer entry.2, entry.1)).map Prod.fst
        = (List.range' 0 xs.length).map fun i : Nat => Primitive.integer i := by
      rw [← List.zipIdx_map_snd 0 xs, List.map_map, List.map_map]; rfl
    rw [h]
    refine (List.pairwise_map).2 (List.Pairwise.imp ?_ List.nodup_range')
    intro i j hij he
    injection he with he
    omega⟩

theorem nodup_keys (e : Entries α) : e.keys.Nodup := e.nodup

theorem toList_insert_of_mem {e : Entries α} {k : Primitive} (v : α) (h : k ∈ e.keys) :
    (e.insert k v).toList = replaceIn k v e.toList := by
  simp [insert, contains_eq_true_iff.2 h]

theorem toList_insert_of_not_mem {e : Entries α} {k : Primitive} (v : α) (h : k ∉ e.keys) :
    (e.insert k v).toList = e.toList ++ [(k, v)] := by
  simp [insert, mt contains_eq_true_iff.1 h]

theorem keys_insert (e : Entries α) (k : Primitive) (v : α) :
    (e.insert k v).keys = if k ∈ e.keys then e.keys else e.keys ++ [k] := by
  split
  · next h => rw [keys, toList_insert_of_mem v h, map_fst_replaceIn, keys]
  · next h => rw [keys, toList_insert_of_not_mem v h, List.map_append]; rfl

theorem keys_erase (e : Entries α) (k : Primitive) :
    (e.erase k).keys = e.keys.filter (· != k) := by
  simp only [keys, erase, List.filter_map]
  rfl

theorem get?_eq_none_iff {e : Entries α} {k : Primitive} : e.get? k = none ↔ k ∉ e.keys := by
  simp only [get?, keys, List.lookup_eq_none_iff, List.mem_map, not_exists, not_and, bne_iff_ne]
  exact ⟨fun h entry he hk => h entry he hk.symm, fun h entry he hk => h entry he hk.symm⟩

theorem replaceIn_cons (k : Primitive) (v : α) (entry : Primitive × α)
    (l : List (Primitive × α)) :
    replaceIn k v (entry :: l)
      = (if entry.1 == k then (entry.1, v) else entry) :: replaceIn k v l := rfl

theorem lookup_replaceIn {k : Primitive} (v : α) {l : List (Primitive × α)}
    (h : k ∈ l.map Prod.fst) : (replaceIn k v l).lookup k = some v := by
  induction l with
  | nil => simp at h
  | cons entry l ih =>
    obtain ⟨a, b⟩ := entry
    by_cases ha : a = k
    · simp [replaceIn_cons, ha]
    · have h' : k ∈ l.map Prod.fst := by
        rcases List.mem_cons.1 h with h | h
        · exact absurd h.symm ha
        · exact h
      simp [replaceIn_cons, List.lookup_cons, ha, beq_false_of_ne (Ne.symm ha), ih h']

theorem lookup_replaceIn_of_ne {k k' : Primitive} (v : α) (h : k' ≠ k)
    (l : List (Primitive × α)) : (replaceIn k v l).lookup k' = l.lookup k' := by
  induction l with
  | nil => rfl
  | cons entry l ih =>
    obtain ⟨a, b⟩ := entry
    by_cases ha : a = k
    · subst ha
      simp [replaceIn_cons, List.lookup_cons, beq_false_of_ne h, ih]
    · simp only [replaceIn_cons, beq_false_of_ne ha, List.lookup_cons, ih, Bool.false_eq_true,
        if_false]

theorem get?_empty (k : Primitive) : (empty : Entries α).get? k = none := rfl

theorem get?_insert (e : Entries α) (k k' : Primitive) (v : α) :
    (e.insert k v).get? k' = if k' = k then some v else e.get? k' := by
  by_cases hk : k ∈ e.keys
  · rw [get?, toList_insert_of_mem v hk]
    split
    · next h => subst h; exact lookup_replaceIn v hk
    · next h => exact lookup_replaceIn_of_ne v h e.toList
  · rw [get?, toList_insert_of_not_mem v hk, List.lookup_append]
    split
    · next h =>
      subst h
      have : e.toList.lookup k' = none := get?_eq_none_iff.2 hk
      simp [this]
    · next h => simp [get?, List.lookup_cons, beq_false_of_ne h]

theorem get?_erase (e : Entries α) (k k' : Primitive) :
    (e.erase k).get? k' = if k' = k then none else e.get? k' := by
  split
  · next h =>
    subst h
    rw [get?_eq_none_iff, keys_erase]
    simp
  · next h =>
    simp only [get?, erase]
    induction e.toList with
    | nil => rfl
    | cons entry l ih =>
      obtain ⟨a, b⟩ := entry
      by_cases ha : a = k
      · subst ha
        simp [List.lookup_cons, beq_false_of_ne h, ih]
      · simp only [List.filter_cons, bne_iff_ne, ne_eq, ha, not_false_eq_true, if_true,
          List.lookup_cons]
        cases k' == a <;> simp [ih]

end Entries

end StackItems
