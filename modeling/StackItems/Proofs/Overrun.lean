/-
Stored items that the budget does not hold.

The writer counts an item when it comes to it.  The reader does the same, and of a container it
looks at the count first: it must not be larger than the whole budget, nor may what it announces
be more than what is left.  So the reader stops no later than the writer does, and may give
another fault.

* `Overrun` — what is wrong with a visit of the reader; `overrunTour` — the tour of its visits;
* `passes_of_size_le` — nothing is wrong with the visits to a tree that the budget holds;
* `FailsAs` — a reader that stops with what is wrong with the first visit; `overdraws_readAt` —
  the reader of trees is one, in front of a form that its budget does not hold;
* `deserialize_overrun` — **if the budget alone keeps the writer from writing an item, it keeps
  the reader from reading it, and the reader reports the budget unless the first container that
  does not fit announces more than the whole budget.**

Design notes: the forms in front of the visit that is wrong are read as if the budget held
everything, so what is known of readers with a budget that is large enough is used for them.
-/
import StackItems.Proofs.Refusal

namespace StackItems

/-! ### What is wrong with a visit -/

/-- What lies directly below a tree, with keys as trees of their own. -/
def Tree.parts : Tree → List Tree
  | .prim _ => []
  | .seq _ children => children
  | .map entries => entries.flatMap fun e => [.prim e.1, e.2]

/-- The count that the stored form of a container announces. -/
def Tree.width : Tree → Nat
  | .prim _ => 0
  | .seq _ children => children.length
  | .map entries => entries.length

/-- What is wrong with a visit of the reader.  The visits are counted from zero, so the visit `k`
is to the item number `k + 1`; what lies directly below it would be the next items. -/
inductive Overrun (max : UInt64) : Nat → Nat × Tree → Fault → Prop where
  | items {k : Nat} {stop : Nat × Tree} (past : max.toNat < k + 1) :
      Overrun max k stop (.itemLimitExceeded max)
  | wide {k depth : Nat} {t : Tree} (within : k + 1 ≤ max.toNat) (wide : max.toNat < t.width) :
      Overrun max k (depth, t) (.format (.lengthTooLarge t.width max))
  | announced {k depth : Nat} {t : Tree} (within : k + 1 ≤ max.toNat)
      (narrow : t.width ≤ max.toNat) (past : max.toNat < k + 1 + t.parts.length) :
      Overrun max k (depth, t) (.itemLimitExceeded max)

theorem Overrun.unique {max : UInt64} {k : Nat} {stop : Nat × Tree} {f f' : Fault}
    (a : Overrun max k stop f) (b : Overrun max k stop f') : f = f' := by
  cases a with
  | items past =>
    cases b with
    | items => rfl
    | wide within => omega
    | announced => rfl
  | wide within wide =>
    cases b with
    | items => omega
    | wide => rfl
    | announced _ narrow => omega
  | announced within narrow =>
    cases b with
    | items => rfl
    | wide _ wide => omega
    | announced => rfl

/-- The walk of the reader. -/
def overrunTour (max : UInt64) : Tour Tree Fault where
  below := Tree.parts
  Wrong := Overrun max
  unique := Overrun.unique

namespace Tree

/-! ### Trees that the budget holds -/

theorem sizeEntries_eq (es : List (Primitive × Tree)) :
    sizeEntries es = sizeAll (es.flatMap fun e => [.prim e.1, e.2]) := by
  induction es with
  | nil => rfl
  | cons e es ih =>
    rw [sizeEntries_cons, ih, List.flatMap_cons, List.cons_append, List.cons_append,
      List.nil_append, sizeAll, sizeAll, size]
    omega

theorem size_eq (t : Tree) : t.size = 1 + sizeAll t.parts := by
  cases t with
  | prim p => rw [size, parts, sizeAll]
  | seq kind children => rw [size, parts]
  | map entries => rw [size, parts, sizeEntries_eq]

theorem length_parts_map (entries : List (Primitive × Tree)) :
    (Tree.map entries).parts.length = 2 * entries.length := by
  rw [parts]
  induction entries with
  | nil => rfl
  | cons e es ih =>
    rw [List.flatMap_cons, List.length_append, ih]
    show 2 + 2 * es.length = 2 * (es.length + 1)
    omega

theorem width_le_length_parts (t : Tree) : t.width ≤ t.parts.length := by
  cases t with
  | prim p => exact Nat.zero_le _
  | seq kind children => exact Nat.le_refl _
  | map entries =>
    rw [length_parts_map, width]
    omega

section

variable {max : UInt64} {depth k : Nat} {rest : List (Nat × Tree)} {t : Tree} {ts : List Tree}

theorem clear_of_size_le (h : k + t.size ≤ max.toNat) :
    (overrunTour max).Clear k (depth, t) := by
  have hparts := length_le_sizeAll t.parts
  have hwidth := t.width_le_length_parts
  rw [size_eq] at h
  intro f wrong
  cases wrong with
  | items past => omega
  | wide _ wide => omega
  | announced _ _ past => omega

theorem passes_all
    (each : ∀ t ∈ ts, ∀ {k rest}, k + t.size ≤ max.toNat →
      (overrunTour max).Passes ((depth, t) :: rest) k rest (k + t.size))
    (h : k + sizeAll ts ≤ max.toNat) :
    (overrunTour max).Passes (ts.map (depth, ·) ++ rest) k rest (k + sizeAll ts) := by
  induction ts generalizing k with
  | nil => exact .done rest k
  | cons t ts ih =>
    rw [sizeAll] at h ⊢
    have first : (overrunTour max).Passes ((depth, t) :: (ts.map (depth, ·) ++ rest)) k
        (ts.map (depth, ·) ++ rest) (k + t.size) := each t (List.mem_cons_self ..) (by omega)
    have others := ih (fun t' ht' => each t' (List.mem_cons_of_mem t ht')) (k := k + t.size)
      (by omega)
    rw [← Nat.add_assoc]
    exact first.trans others

/-- Nothing is wrong with the visits to a tree that the rest of the budget holds. -/
theorem passes_of_size_le (h : k + t.size ≤ max.toNat) :
    (overrunTour max).Passes ((depth, t) :: rest) k rest (k + t.size) := by
  induction hn : t.size using Nat.strongRecOn generalizing t depth k rest with
  | ind n ih =>
    subst hn
    refine .visit (clear_of_size_le h) ?_
    rw [size_eq, ← Nat.add_assoc] at h ⊢
    refine passes_all (fun t' ht' k rest hk => ih t'.size ?_ hk rfl) h
    have hle : t'.size ≤ sizeAll t.parts := size_le_sizeAll ht'
    have := t.size_eq
    omega

end

end Tree

/-! ### Readers that stop at the visit that is wrong -/

namespace Reader

open StackItems.Tree (Form Spells)

variable {α β : Type} {limits : Limits} {depth : Nat} {c : Cursor} {t : Tree}
  {form after : List UInt8} {todo todo' : List (Nat × Tree)}

/-- Where the budget stands, the reader stops with what is wrong with the first of the visits
that are to be done. -/
def FailsAs (limits : Limits) (read : Reader α) (c : Cursor) (todo : List (Nat × Tree)) : Prop :=
  ∃ halt, read c = .error halt ∧ ∀ rest, (overrunTour limits.maxItems).Fails (todo ++ rest)
    (limits.maxItems.toNat - c.budget) (storageFault limits halt)

theorem FailsAs.append {read : Reader α} (a : FailsAs limits read c todo)
    (todo' : List (Nat × Tree)) : FailsAs limits read c (todo ++ todo') := by
  obtain ⟨halt, hread, fails⟩ := a
  refine ⟨halt, hread, fun rest => ?_⟩
  rw [List.append_assoc]
  exact fails (todo' ++ rest)

theorem FailsAs.bind {read : Reader α} (a : FailsAs limits read c todo) (next : α → Reader β) :
    FailsAs limits (read >>= next) c todo := by
  obtain ⟨halt, hread, fails⟩ := a
  exact ⟨halt, bind_of_error hread, fails⟩

theorem FailsAs.ofKey {p : Primitive} {next : Primitive → Reader β}
    (a : FailsAs limits (next p) c todo) : FailsAs limits (asKey (.prim p) >>= next) c todo := by
  obtain ⟨halt, hnext, fails⟩ := a
  have hkey : asKey (.prim p) c = .ok (p, c) := rfl
  exact ⟨halt, by rw [bind_of_ok hkey, hnext], fails⟩

/-- In front of a form that its budget does not hold, the reader stops with what is wrong with
the first visit to the tree. -/
def Overdraws (limits : Limits) (depth : Nat) (read : Reader Tree) : Prop :=
  ∀ (c : Cursor) (form after : List UInt8) (t : Tree), Form limits depth form t →
    c.input = form ++ after → c.budget < t.size → c.budget ≤ limits.maxItems.toNat →
    FailsAs limits read c [(depth, t)]

section

variable {read : Reader Tree}

/-- A form that the budget holds is read, and what is wrong is found behind it. -/
theorem FailsAs.behind (takes : Takes limits read (Spells limits depth))
    (hform : Form limits depth form t) (hinput : c.input = form ++ after)
    (hsize : t.size ≤ c.budget) (hc : c.budget ≤ limits.maxItems.toNat) {next : Tree → Reader β}
    (a : FailsAs limits (next t) ⟨after, c.budget - t.size⟩ todo) :
    FailsAs limits (read >>= next) c ((depth, t) :: todo) := by
  obtain ⟨halt, hnext, fails⟩ := a
  have hread : read c = .ok (t, ⟨after, c.budget - t.size⟩) :=
    (takes c t _ hc).2 ⟨form, t.size, ⟨hform, rfl⟩, hinput, (Nat.add_sub_cancel' hsize).symm⟩
  refine ⟨halt, by rw [bind_of_ok hread, hnext], fun rest => ?_⟩
  -- The visits to the tree come first, and nothing is wrong with them.
  have passes : (overrunTour limits.maxItems).Passes ((depth, t) :: (todo ++ rest))
      (limits.maxItems.toNat - c.budget) (todo ++ rest)
      (limits.maxItems.toNat - c.budget + t.size) := Tree.passes_of_size_le (by omega)
  have onward := fails rest
  rw [show limits.maxItems.toNat - (c.budget - t.size)
    = limits.maxItems.toNat - c.budget + t.size by omega] at onward
  exact passes.fails onward

theorem failsAs_times (takes : Takes limits read (Spells limits depth))
    (overdraws : Overdraws limits depth read) {forms : List (List UInt8)} {ts done : List Tree}
    {k : Nat} (each : Each (Spells limits depth) forms ts k)
    (hinput : c.input = forms.flatten ++ after) (hk : c.budget < k)
    (hc : c.budget ≤ limits.maxItems.toNat) :
    FailsAs limits (times read ts.length done) c (ts.map (depth, ·)) := by
  induction each generalizing c done with
  | nil => exact absurd hk (Nat.not_lt_zero _)
  | @cons form t k forms ts k' first rest ih =>
    obtain ⟨hform, rfl⟩ := first
    rw [List.flatten_cons, List.append_assoc] at hinput
    rw [List.length_cons, times, List.map_cons]
    -- The budget is used up in the first tree, or the first tree is read and it is used up behind.
    by_cases hsize : c.budget < t.size
    · exact ((overdraws c _ _ t hform hinput hsize hc).bind _).append _
    · refine .behind takes hform hinput (Nat.le_of_not_lt hsize) hc (ih rfl ?_ ?_)
      · show c.budget - t.size < k'
        omega
      · show c.budget - t.size ≤ limits.maxItems.toNat
        omega

/-- The key of an entry is a visit of its own, in front of those to the value. -/
theorem failsAs_entries (takes : Takes limits read (Spells limits depth))
    (overdraws : Overdraws limits depth read) {forms : List (List UInt8 × List UInt8)}
    {es done : List (Primitive × Tree)} {k : Nat}
    (each : Each (EntryForm (Spells limits depth)) forms es k)
    (hnodup : ((done.reverse ++ es).map Prod.fst).Nodup)
    (hinput : c.input = (forms.flatMap fun form => form.1 ++ form.2) ++ after)
    (hk : c.budget < k) (hc : c.budget ≤ limits.maxItems.toNat) :
    FailsAs limits (entries read es.length done) c
      ((es.flatMap fun e => [Tree.prim e.1, e.2]).map (depth, ·)) := by
  induction each generalizing c done with
  | nil => exact absurd hk (Nat.not_lt_zero _)
  | @cons form e k forms es k' first rest ih =>
    obtain ⟨_, _, ⟨hkey, rfl⟩, ⟨hvalue, rfl⟩, rfl⟩ := first
    rw [List.flatMap_cons, List.append_assoc, List.append_assoc] at hinput
    rw [List.length_cons, entries, List.flatMap_cons, List.map_append]
    show FailsAs limits _ c ((depth, .prim e.1) :: (depth, e.2) :: _)
    -- The budget is used up in the key, in the value, or behind the entry.
    by_cases hsize : c.budget < (Tree.prim e.1).size
    · exact ((overdraws c _ _ _ hkey hinput hsize hc).bind _).append _
    refine .behind takes hkey hinput (Nat.le_of_not_lt hsize) hc ?_
    generalize hd : c.budget - (Tree.prim e.1).size = n
    have hn : n ≤ limits.maxItems.toNat := by omega
    refine .ofKey ?_
    by_cases hsize' : n < e.2.size
    · exact ((overdraws ⟨_, n⟩ _ _ _ hvalue rfl hsize' hn).bind _).append _
    refine .behind takes hvalue rfl (Nat.le_of_not_lt hsize') hn ?_
    rw [if_neg (mt any_key_iff.1 (key_not_mem_of_nodup hnodup))]
    refine ih (by simpa using hnodup) rfl ?_ ?_
    · show n - e.2.size < k'
      omega
    · show n - e.2.size ≤ limits.maxItems.toNat
      omega

end

/-! ### Containers -/

/-- When the budget has been charged for an item, the reader stops with what is wrong with the
visit to it or with a later one. -/
def FailsInside (limits : Limits) (depth : Nat) (t : Tree) (read : Reader α) (c : Cursor) : Prop :=
  ∃ halt, read c = .error halt ∧ ∀ rest, (overrunTour limits.maxItems).Fails ((depth, t) :: rest)
    (limits.maxItems.toNat - (c.budget + 1)) (storageFault limits halt)

section

variable {count : List UInt8} {n share : Nat}

theorem count_of_wide (counted : VarInt.Shortest count n) (hinput : c.input = count ++ after)
    (wide : limits.maxItems.toNat < n) :
    Reader.count limits share c
      = .error (.fault (.format (.lengthTooLarge n limits.maxItems))) := by
  have hdecode := counted.decode_append limits.maxItems after
  rw [← hinput, VarInt.bounded, if_neg (Nat.not_le_of_lt wide)] at hdecode
  exact bind_of_error (by rw [front, hdecode])

theorem count_of_past (counted : VarInt.Shortest count n) (hinput : c.input = count ++ after)
    (narrow : n ≤ limits.maxItems.toNat) (past : c.budget / share < n) :
    Reader.count limits share c = .error (.cutoff .budget) := by
  have hread : front (VarInt.decode limits.maxItems) c = .ok (n, ⟨after, c.budget⟩) :=
    front_eq_ok_iff.2 ⟨VarInt.decode_eq_ok_iff.2 ⟨count, counted, narrow, hinput⟩, rfl⟩
  rw [Reader.count, bind_of_ok hread, get_bind_eq, if_pos past]
  rfl

/-- What is wrong with the visit to a container is found in its count, and all else in what lies
below. -/
theorem failsInside_count (hshare : 0 < share) (hparts : t.parts.length = share * t.width)
    (counted : VarInt.Shortest count t.width) (hinput : c.input = count ++ after)
    (hc : c.budget + 1 ≤ limits.maxItems.toNat) {next : Nat → Reader α}
    (below : FailsAs limits (next t.width) ⟨after, c.budget⟩ (t.parts.map (depth + 1, ·))) :
    FailsInside limits depth t (Reader.count limits share >>= next) c := by
  have within : limits.maxItems.toNat - (c.budget + 1) + 1 ≤ limits.maxItems.toNat := by omega
  have past_iff : c.budget / share < t.width ↔ c.budget < t.parts.length := by
    rw [Nat.div_lt_iff_lt_mul hshare, Nat.mul_comm, hparts]
  by_cases wide : limits.maxItems.toNat < t.width
  · exact ⟨_, bind_of_error (count_of_wide counted hinput wide),
      fun rest => ⟨_, rest, _, .done _ _, .wide within wide⟩⟩
  have narrow := Nat.le_of_not_lt wide
  by_cases past : c.budget / share < t.width
  · have hlen := past_iff.1 past
    exact ⟨_, bind_of_error (count_of_past counted hinput narrow past),
      fun rest => ⟨_, rest, _, .done _ _, .announced within narrow (by omega)⟩⟩
  have hlen := mt past_iff.2 past
  have clear : (overrunTour limits.maxItems).Clear
      (limits.maxItems.toNat - (c.budget + 1)) (depth, t) := by
    intro f wrong
    cases wrong with
    | items past => omega
    | wide _ wide => omega
    | announced _ _ past => omega
  have hcount : Reader.count limits share c = .ok (t.width, ⟨after, c.budget⟩) :=
    count_eq_ok_iff.2 ⟨Nat.le_of_not_lt past, rfl, count, counted, narrow, hinput⟩
  obtain ⟨halt, hnext, fails⟩ := below
  refine ⟨halt, by rw [bind_of_ok hcount, hnext], fun rest => ?_⟩
  obtain ⟨stop, rest', m, passes, wrong⟩ := fails rest
  rw [show limits.maxItems.toNat - c.budget
    = limits.maxItems.toNat - (c.budget + 1) + 1 by omega] at passes
  exact ⟨stop, rest', m, .visit clear passes, wrong⟩

end

end Reader

namespace Tree

open Reader

variable {limits : Limits} {depth : Nat} {c : Cursor} {t : Tree} {b after : List UInt8}

theorem failsInside_readSeq {element : Reader Tree}
    (takes : Takes limits element (Spells limits (depth + 1)))
    (overdraws : Overdraws limits (depth + 1) element) {kind : SeqKind} {count : List UInt8}
    {forms : List (List UInt8)} {children : List Tree}
    (counted : VarInt.Shortest count children.length)
    (each : Each (Spells limits (depth + 1)) forms children (sizeAll children))
    (hinput : c.input = count ++ (forms.flatten ++ after)) (hk : c.budget < sizeAll children)
    (hc : c.budget + 1 ≤ limits.maxItems.toNat) :
    FailsInside limits depth (.seq kind children) (readSeq limits kind element) c := by
  have below : FailsAs limits (times element children.length []) ⟨forms.flatten ++ after, c.budget⟩
      (children.map (depth + 1, ·)) :=
    failsAs_times takes overdraws each rfl hk (Nat.le_of_succ_le hc)
  rw [readSeq]
  exact failsInside_count Nat.one_pos (Nat.one_mul _).symm counted hinput hc (below.bind _)

theorem failsInside_readMap {item : Reader Tree}
    (takes : Takes limits item (Spells limits (depth + 1)))
    (overdraws : Overdraws limits (depth + 1) item) {count : List UInt8}
    {forms : List (List UInt8 × List UInt8)} {entries : List (Primitive × Tree)}
    (counted : VarInt.Shortest count entries.length)
    (distinct : (entries.map Prod.fst).Nodup)
    (each : Each (EntryForm (Spells limits (depth + 1))) forms entries (sizeEntries entries))
    (hinput : c.input = count ++ ((forms.flatMap fun form => form.1 ++ form.2) ++ after))
    (hk : c.budget < sizeEntries entries) (hc : c.budget + 1 ≤ limits.maxItems.toNat) :
    FailsInside limits depth (.map entries) (readMap limits item) c := by
  have below : FailsAs limits (Reader.entries item entries.length [])
      ⟨(forms.flatMap fun form => form.1 ++ form.2) ++ after, c.budget⟩
      ((Tree.map entries).parts.map (depth + 1, ·)) :=
    failsAs_entries takes overdraws each (by simpa using distinct) rfl hk (Nat.le_of_succ_le hc)
  rw [readMap]
  exact failsInside_count Nat.two_pos (length_parts_map entries) counted hinput hc (below.bind _)

theorem overdraws_readWith {inner : Option (Reader Tree)} (reaches : Reaches limits depth inner)
    (below : ∀ read, inner = some read → Overdraws limits (depth + 1) read) :
    Overdraws limits depth (readWith limits depth inner) := by
  rintro ⟨input, budget⟩ form after t hform hinput hsize hc
  obtain rfl : input = form ++ after := hinput
  cases budget with
  | zero =>
    refine ⟨.cutoff .budget, rfl, fun rest => ⟨(depth, t), rest, _, .done _ _, .items ?_⟩⟩
    show limits.maxItems.toNat < limits.maxItems.toNat - 0 + 1
    omega
  | succ n =>
    simp only at hsize hc
    -- A primitive is one item, and one is left, so there is a container in front.
    cases hform with
    | boolean b => rw [size] at hsize; omega
    | integer sized small => rw [size] at hsize; omega
    | bytes sized small => rw [size] at hsize; omega
    | @seq _ kind count forms children room counted hlen each =>
      cases inner with
      | none => exact absurd room reaches
      | some read =>
        rw [size] at hsize
        have hinside : n < sizeAll children := by omega
        have heach := each_spells_iff.2 ⟨hlen, each, rfl⟩
        obtain ⟨halt, hread, fails⟩ : FailsInside limits depth (.seq kind children)
            (readSeq limits kind read) ⟨count ++ (forms.flatten ++ after), n⟩ :=
          failsInside_readSeq reaches.2 (below read rfl) counted heach rfl hinside hc
        refine ⟨halt, ?_, fails⟩
        rw [← SeqKind.tag_kind, List.cons_append, List.append_assoc, readWith_of_tag]
        cases kind <;> exact hread
    | @map _ count forms entries room counted hlen distinct keys values =>
      cases inner with
      | none => exact absurd room reaches
      | some read =>
        rw [size] at hsize
        have hinside : n < sizeEntries entries := by omega
        have heach := each_entryForm_iff.2 ⟨hlen, fun i form e hform he =>
          ⟨keys i form e hform he, values i form e hform he⟩, rfl⟩
        obtain ⟨halt, hread, fails⟩ : FailsInside limits depth (.map entries)
            (readMap limits read)
            ⟨count ++ ((forms.flatMap fun form => form.1 ++ form.2) ++ after), n⟩ :=
          failsInside_readMap reaches.2 (below read rfl) counted distinct heach rfl hinside hc
        refine ⟨halt, ?_, fails⟩
        rw [List.cons_append, List.append_assoc]
        show readWith limits depth (some read) ⟨Kind.map.tag :: _, n + 1⟩ = _
        rw [readWith_of_tag]
        exact hread

theorem overdraws_readAt {room depth : Nat} (hd : depth + room = limits.maxStructDepth.toNat) :
    Overdraws limits depth (readAt limits room depth) := by
  induction room generalizing depth with
  | zero =>
    have full : Reaches limits depth none := by
      show ¬ depth < limits.maxStructDepth.toNat
      omega
    exact overdraws_readWith full fun _ hread => by simp at hread
  | succ room ih =>
    have reaches : Reaches limits depth (some (readAt limits room (depth + 1))) :=
      ⟨by omega, takes_readAt (by omega)⟩
    refine overdraws_readWith reaches fun read hread => ?_
    obtain rfl := Option.some_inj.1 hread
    exact ih (by omega)

/-- A whole input that is a form of a tree with more items than the budget is refused with what
is wrong with the first visit. -/
theorem decode_overrun (form : Form limits 0 b t) (hsize : limits.maxItems.toNat < t.size) :
    ∃ halt, decode limits b = .error halt ∧
      (overrunTour limits.maxItems).StopsWith t (storageFault limits halt) := by
  obtain ⟨halt, hread, fails⟩ := overdraws_readAt (Nat.zero_add _) ⟨b, limits.maxItems.toNat⟩ b []
    t form (List.append_nil b).symm hsize (Nat.le_refl _)
  refine ⟨halt, by rw [decode, hread], Tour.Fails.stopsWith ?_⟩
  have whole := fails []
  rwa [Nat.sub_self] at whole

end Tree

/-! ### Writing and reading with too small a budget -/

/-- Within the larger of two budgets, what is wrong with a visit is wrong under both, or it is
past the smaller one. -/
theorem Unstorable.of_maxItems {limits : Limits} {max : UInt64} {k : Nat} {stop : Nat × Item}
    {f : Fault} (wrong : Unstorable { limits with maxItems := max } k stop f)
    (within : k + 1 ≤ limits.maxItems.toNat) :
    f = .itemLimitExceeded max ∨ Unstorable limits k stop f := by
  cases wrong with
  | items => exact .inl rfl
  | depth _ container deep => exact .inr (.depth within container deep)
  | integer _ wide => exact .inr (.integer within wide)
  | bytes _ long => exact .inr (.bytes within long)
  | host => exact .inr (.host within)

namespace Heap

open StackItems.Tree (Form Storable)

variable {h : Heap} {limits : Limits} {max : UInt64} {x : Item} {b : List UInt8} {f : Fault}

/-- If an item is written within some budget, a smaller one is all that can keep it from being
written. -/
theorem serialize_overrun (hb : (h.serialize limits x).result = .ok b)
    (hf : (h.serialize { limits with maxItems := max } x).result = .error f) :
    f = .itemLimitExceeded max := by
  have completes := (serialize_result_iff h limits x).1.1 ⟨b, hb⟩
  obtain ⟨k, stop, hk, wrong, -⟩ := ((serialize_result_iff h _ x).2 f).1 hf
  -- The visits do not depend on the limits, so nothing is wrong with this one within `limits`.
  have clear := completes k stop hk
  have within : k + 1 ≤ limits.maxItems.toNat := by
    by_contra past
    exact clear _ (.items (Nat.lt_of_not_le past))
  exact (wrong.of_maxItems within).resolve_right (clear f)

/-- **A budget that is too small to write an item is too small to read it.**  The writer reports
the budget.  The reader stops with what is wrong with the first visit of its own tour: it reports
the budget too, or a length that is larger than the whole budget, and never a length if there is
no container so wide. -/
theorem deserialize_overrun (hb : (h.serialize limits x).result = .ok b)
    (hf : (h.serialize { limits with maxItems := max } x).result = .error f) (store : Heap) :
    f = .itemLimitExceeded max ∧ ∃ t, h.Unfolds x t ∧
      (∀ g, (store.deserialize { limits with maxItems := max } b).result = .error g ↔
        (overrunTour max).StopsWith t g) ∧
      ((store.deserialize { limits with maxItems := max } b).result
          = .error (.itemLimitExceeded max) ∨
        ∃ n, max.toNat < n ∧ (store.deserialize { limits with maxItems := max } b).result
          = .error (.format (.lengthTooLarge n max))) ∧
      ((∀ k stop, (overrunTour max).visit? t k = some stop → stop.2.width ≤ max.toNat) →
        (store.deserialize { limits with maxItems := max } b).result
          = .error (.itemLimitExceeded max)) := by
  obtain ⟨t, hu, hs, hsize, rfl⟩ := serialize_eq_ok_iff.1 hb
  have form : Form { limits with maxItems := max } 0 t.encode t :=
    (Tree.form_encode hs (Nat.lt_of_le_of_lt hsize limits.maxItems.toNat_lt)).of_le
      (Nat.le_refl _) (Nat.le_refl _)
  have hover : max.toNat < t.size := by
    by_contra hle
    have hok := serialize_eq_ok_iff.2 ⟨t, hu, form.storable, Nat.le_of_not_lt hle, rfl⟩
    rw [hok] at hf
    injection hf
  obtain ⟨halt, hdecode, stops⟩ := Tree.decode_overrun form hover
  have hread : (store.deserialize { limits with maxItems := max } t.encode).result
      = .error (storageFault { limits with maxItems := max } halt) := by
    rw [deserialize_eq, hdecode]
    rfl
  obtain ⟨k, stop, hk, wrong, -⟩ := id stops
  rw [hread]
  refine ⟨serialize_overrun hb hf, t, hu, fun g => ⟨?_, ?_⟩, ?_, ?_⟩
  · intro hg
    rwa [← Except.error.inj hg]
  · intro stops'
    rw [stops.eq stops']
  · generalize storageFault { limits with maxItems := max } halt = g at wrong
    cases wrong with
    | items => exact .inl rfl
    | wide _ wide => exact .inr ⟨_, wide, rfl⟩
    | announced => exact .inl rfl
  · intro narrow
    have hwidth := narrow k stop hk
    generalize storageFault { limits with maxItems := max } halt = g at wrong
    cases wrong with
    | items => rfl
    | wide _ wide => exact absurd hwidth (Nat.not_le_of_lt wide)
    | announced => rfl

/-- An array of three truth values. -/
def threeFlags : Heap :=
  { arrays := #[#[.prim (.boolean true), .prim (.boolean true), .prim (.boolean true)]] }

/-- Three elements are no more than a budget of three, but they do not fit behind the array. -/
theorem deserialize_overrun_threeFlags :
    (threeFlags.serialize { maxItems := 4 } (.seq ⟨.array, 0⟩)).result
        = .ok [0x40, 3, 0x20, 1, 0x20, 1, 0x20, 1] ∧
      (threeFlags.serialize { maxItems := 3 } (.seq ⟨.array, 0⟩)).result
        = .error (.itemLimitExceeded 3) ∧
      ∃ t, threeFlags.Unfolds (.seq ⟨.array, 0⟩) t ∧
        (overrunTour 3).StopsWith t (.itemLimitExceeded 3) := by
  have hb : (threeFlags.serialize { maxItems := 4 } (.seq ⟨.array, 0⟩)).result
      = .ok [0x40, 3, 0x20, 1, 0x20, 1, 0x20, 1] := rfl
  have hf : (threeFlags.serialize { maxItems := 3 } (.seq ⟨.array, 0⟩)).result
      = .error (.itemLimitExceeded 3) := rfl
  obtain ⟨-, t, hu, decided, -⟩ := deserialize_overrun hb hf empty
  exact ⟨hb, hf, t, hu, (decided _).1 rfl⟩

/-- Three elements are more than a budget of two.  The writer reports the budget, and the reader
of what the writer made reports malformed data. -/
theorem length_for_budget_threeFlags :
    (threeFlags.serialize { maxItems := 4 } (.seq ⟨.array, 0⟩)).result
        = .ok [0x40, 3, 0x20, 1, 0x20, 1, 0x20, 1] ∧
      (threeFlags.serialize { maxItems := 2 } (.seq ⟨.array, 0⟩)).result
        = .error (.itemLimitExceeded 2) ∧
      (empty.deserialize { maxItems := 2 } [0x40, 3, 0x20, 1, 0x20, 1, 0x20, 1]).result
        = .error (.format (.lengthTooLarge 3 2)) ∧
      (Fault.format (.lengthTooLarge 3 2)).isLimit = false :=
  ⟨rfl, rfl, rfl, rfl⟩

end Heap

end StackItems
