/-
Which items can be stored, and why the others cannot.

The walk to storage visits the items of an unfolding in preorder, the key of an entry before
its value, and the first visit with which something is wrong settles the fault.

* `parts` — what lies directly below an item, with keys as items of their own;
* `Unstorable` — what is wrong with a visit;
* `tracks_treeAt` — the walk to storage is the tour of these visits;
* `Unfolds.descends` — below an item that has a tree everything has a smaller tree, so no item
  of a tree lies below itself;
* `serialize_decided` — **an item is stored exactly if nothing is wrong with any visit, and
  otherwise fails with what is wrong with the first; it is never stored if a cycle of
  containers is reached from it.**
-/
import StackItems.Proofs.RoundTrip
import StackItems.Proofs.Tour

namespace StackItems

/-- What is wrong with a visit on the way to storage.  The visits are counted from zero, so
the visit `k` is to the item number `k + 1`.  The number comes first: only an item within
the budget is looked at. -/
inductive Unstorable (limits : Limits) : Nat → Nat × Item → Fault → Prop where
  | items {k : Nat} {stop : Nat × Item} (past : limits.maxItems.toNat < k + 1) :
      Unstorable limits k stop (.itemLimitExceeded limits.maxItems)
  | depth {k depth : Nat} {x : Item} (within : k + 1 ≤ limits.maxItems.toNat)
      (container : x.kind.isCompound = true) (deep : limits.maxStructDepth.toNat ≤ depth) :
      Unstorable limits k (depth, x) (.depthExceeded limits.maxStructDepth)
  | integer {k depth : Nat} {n : Int} (within : k + 1 ≤ limits.maxItems.toNat)
      (wide : ∀ payload, TwosComplement.signExtended payload = n → 32 < payload.length) :
      Unstorable limits k (depth, .prim (.integer n)) (.format .integerTooLarge)
  | bytes {k depth : Nat} {bs : List UInt8} (within : k + 1 ≤ limits.maxItems.toNat)
      (long : limits.maxItemSize.toNat < bs.length) :
      Unstorable limits k (depth, .prim (.bytes bs)) (.format .bytesTooLarge)
  | host {k depth : Nat} {r : HostRef} (within : k + 1 ≤ limits.maxItems.toNat) :
      Unstorable limits k (depth, .host r) (.unsupported .interop)

namespace Unstorable

variable {limits : Limits} {k depth : Nat} {stop : Nat × Item} {f f' : Fault}

theorem unique (a : Unstorable limits k stop f) (b : Unstorable limits k stop f') : f = f' := by
  -- The number of the visit tells whether it is past the budget, and else the item tells.
  cases a with
  | items past =>
    cases b with
    | items => rfl
    | depth | integer | bytes | host => omega
  | depth within container deep =>
    cases b with
    | items => omega
    | depth => rfl
    | integer | bytes | host => exact absurd container Bool.false_ne_true
  | integer within wide =>
    cases b with
    | items => omega
    | depth _ container => exact absurd container Bool.false_ne_true
    | integer => rfl
  | bytes within long =>
    cases b with
    | items => omega
    | depth _ container => exact absurd container Bool.false_ne_true
    | bytes => rfl
  | host within =>
    cases b with
    | items => omega
    | depth _ container => exact absurd container Bool.false_ne_true
    | host => rfl

end Unstorable

theorem TwosComplement.lt_width_iff {n : Int} {w : Nat} :
    w < width n ↔ ∀ payload, signExtended payload = n → w < payload.length := by
  constructor
  · rintro h payload rfl
    rw [← length_encode] at h
    exact Nat.lt_of_lt_of_le h (length_encode_signExtended_le payload)
  · intro h
    rw [← length_encode]
    exact h (encode n) (signExtended_encode n)

namespace Heap

/-- What an item holds, as the items that are stored after it: of an entry the key and then
the value. -/
def parts (h : Heap) : Item → List Item
  | .prim _ | .host _ => []
  | .seq r => h.items r
  | .map r => (h.entries r).toList.flatMap fun entry => [.prim entry.1, entry.2]

/-- The walk to storage. -/
def storageTour (h : Heap) (limits : Limits) : Tour Item Fault where
  below := h.parts
  Wrong := Unstorable limits
  unique := Unstorable.unique

section

variable {h : Heap} {limits : Limits} {k depth room : Nat} {x : Item} {f : Fault}

/-! ### The walk does the tour -/

theorem unstorable_prim_iff {p : Primitive} (hk : k < limits.maxItems.toNat) :
    Unstorable limits k (depth, .prim p) f ↔ p.storageFault? limits = some f := by
  constructor
  · intro wrong
    cases wrong with
    | items past => omega
    | depth _ container => cases p <;> exact absurd container Bool.false_ne_true
    | integer within wide =>
      exact if_pos (TwosComplement.lt_width_iff.2 wide)
    | bytes within long => exact if_pos long
  · intro hp
    cases p with
    | boolean b => simp [Primitive.storageFault?] at hp
    | integer n =>
      rw [Primitive.storageFault?] at hp
      split at hp
      · next wide =>
        rw [← Option.some_inj.1 hp]
        exact .integer hk (TwosComplement.lt_width_iff.1 wide)
      · simp at hp
    | bytes bs =>
      rw [Primitive.storageFault?] at hp
      split at hp
      · next long =>
        rw [← Option.some_inj.1 hp]
        exact .bytes hk long
      · simp at hp

/-- The visit after the last one that the budget allows is wrong, whatever it is to. -/
theorem over_budget (stop : Nat × Item) :
    Unstorable limits limits.maxItems.toNat stop (storageFault limits (.cutoff .budget)) :=
  .items (Nat.lt_succ_self _)

theorem tracks_visitPrimitive (h : Heap) (limits : Limits) (depth : Nat) (p : Primitive) :
    (h.storageTour limits).Tracks limits.maxItems.toNat (storageFault limits)
      (visitPrimitive limits p) [(depth, .prim p)] := by
  cases hp : p.storageFault? limits with
  | none =>
    simp only [visitPrimitive, hp]
    refine .visit (over_budget _) ?_ (Tour.tracks_pure ())
    intro k hk f wrong
    rw [(unstorable_prim_iff hk).1 wrong] at hp
    injection hp
  | some fault =>
    simp only [visitPrimitive, hp]
    exact Tour.tracks_stop (over_budget _) fun k hk => (unstorable_prim_iff hk).2 hp

/-- A container above the limit of nesting is visited, and then what it holds. -/
theorem tracks_container {β : Type} {act : Budgeted Halt β} (hx : x.kind.isCompound = true)
    (room : depth < limits.maxStructDepth.toNat)
    (below : (h.storageTour limits).Tracks limits.maxItems.toNat (storageFault limits) act
      ((h.parts x).map (depth + 1, ·))) :
    (h.storageTour limits).Tracks limits.maxItems.toNat (storageFault limits)
      (do Budgeted.spend (.cutoff .budget); act) [(depth, x)] := by
  refine .visit (over_budget _) ?_ ?_
  · intro k hk f wrong
    cases wrong with
    | items past => omega
    | depth _ _ deep => omega
    | integer | bytes | host => exact absurd hx Bool.false_ne_true
  · rwa [Tour.advance, List.append_nil]

/-- A container at the limit of nesting is visited, and the walk stops. -/
theorem tracks_full {β : Type} (hx : x.kind.isCompound = true)
    (deep : limits.maxStructDepth.toNat ≤ depth) :
    (h.storageTour limits).Tracks limits.maxItems.toNat (storageFault limits)
      (do Budgeted.spend (.cutoff .budget)
          (Budgeted.stop (.cutoff (.depth depth)) : Budgeted Halt β)) [(depth, x)] :=
  Tour.tracks_stop (over_budget _) fun _ hk => .depth hk hx deep

theorem tracks_treeAt_prim (h : Heap) (limits : Limits) (room depth : Nat) (p : Primitive) :
    (h.storageTour limits).Tracks limits.maxItems.toNat (storageFault limits)
      (h.treeAt limits room depth (.prim p)) [(depth, .prim p)] := by
  rw [treeAt]
  exact (tracks_visitPrimitive h limits depth p).map fun _ => Tree.prim p

theorem tracks_treeAt_host (h : Heap) (limits : Limits) (room depth : Nat) (r : HostRef) :
    (h.storageTour limits).Tracks limits.maxItems.toNat (storageFault limits)
      (h.treeAt limits room depth (.host r)) [(depth, .host r)] := by
  rw [treeAt]
  exact Tour.tracks_stop (over_budget _) fun k hk => .host hk

theorem tracks_treeAt (h : Heap) (limits : Limits)
    (hd : depth + room = limits.maxStructDepth.toNat) (x : Item) :
    (h.storageTour limits).Tracks limits.maxItems.toNat (storageFault limits)
      (h.treeAt limits room depth x) [(depth, x)] := by
  -- Only a container asks whether there is room for what it holds.
  induction room generalizing depth x with
  | zero =>
    cases x with
    | prim p => exact tracks_treeAt_prim h limits 0 depth p
    | host r => exact tracks_treeAt_host h limits 0 depth r
    | seq r =>
      rw [treeAt]
      exact tracks_full (isCompound_seq r) (by omega)
    | map r =>
      rw [treeAt]
      exact tracks_full rfl (by omega)
  | succ room ih =>
    have hroom : depth + 1 + room = limits.maxStructDepth.toNat := by omega
    cases x with
    | prim p => exact tracks_treeAt_prim h limits (room + 1) depth p
    | host r => exact tracks_treeAt_host h limits (room + 1) depth r
    | seq r =>
      rw [treeAt]
      refine tracks_container (isCompound_seq r) (by omega) ?_
      rw [parts, List.map_eq_flatMap]
      exact (Tour.Tracks.mapM fun y _ => ih hroom y).map fun ts => Tree.seq r.kind ts
    | map r =>
      rw [treeAt]
      refine tracks_container rfl (by omega) ?_
      rw [parts, List.map_flatMap]
      -- The key of an entry is a visit of its own, before what lies below the value.
      refine (Tour.Tracks.mapM fun entry _ => ?_).map fun es => Tree.map es
      exact (tracks_visitPrimitive h limits (depth + 1) entry.1).bind fun _ =>
        (ih hroom entry.2).map fun t => (entry.1, t)

theorem serialize_result (h : Heap) (limits : Limits) (x : Item) :
    (h.serialize limits x).result
      = match h.treeAt limits limits.maxStructDepth.toNat 0 x limits.maxItems.toNat with
        | .ok (t, _) => .ok t.encode
        | .error halt => .error (storageFault limits halt) := by
  rw [serialize_eq, tree, Budgeted.runFrom]
  cases h.treeAt limits limits.maxStructDepth.toNat 0 x limits.maxItems.toNat with
  | ok walked => rfl
  | error halt => rfl

/-- The tour settles whether an item is stored, and else the fault. -/
theorem serialize_result_iff (h : Heap) (limits : Limits) (x : Item) :
    ((∃ b, (h.serialize limits x).result = .ok b) ↔ (h.storageTour limits).Completes x) ∧
      ∀ f, (h.serialize limits x).result = .error f ↔ (h.storageTour limits).StopsWith x f := by
  obtain ⟨hok, herror⟩ := tracks_treeAt h limits (Nat.zero_add _) x limits.maxItems.toNat 0 []
    (Nat.zero_add _)
  rw [serialize_result]
  cases hrun : h.treeAt limits limits.maxStructDepth.toNat 0 x limits.maxItems.toNat with
  | ok walked =>
    obtain ⟨t, left⟩ := walked
    obtain ⟨m, -, passes⟩ := hok t left hrun
    exact Tour.decides (fun _ _ => passes.completes) fun f h => by injection h
  | error halt =>
    refine Tour.decides (fun b h => by injection h) fun f h => ?_
    rw [← Except.error.inj h]
    exact (herror halt hrun).stopsWith

/-! ### Cycles -/

/-- From the item one can get to a container, and from this container back to itself. -/
def LeadsIntoCycle (h : Heap) (x : Item) : Prop :=
  ∃ path loop c, h.at? Kind.isCompound x path = some c ∧ loop ≠ [] ∧
    h.at? Kind.isCompound c loop = some c

variable {t : Tree} {y c : Item} {path : List Nat}

/-- What lies directly below an item that has a tree has a smaller tree. -/
theorem Unfolds.descends (u : h.Unfolds x t) {i : Nat} (hy : (h.contents x)[i]? = some y) :
    ∃ t', h.Unfolds y t' ∧ t'.size < t.size := by
  cases u with
  | prim p => simp [Heap.contents] at hy
  | @seq r kind children same size each =>
    obtain ⟨t', ht⟩ := exists_getElem? size.symm hy
    have hsize := Tree.size_le_sizeAll (List.mem_of_getElem? ht)
    refine ⟨t', each i y t' hy ht, ?_⟩
    rw [Tree.size]
    omega
  | @map r entries size keys each =>
    rw [Heap.contents, Entries.values, List.getElem?_map, Option.map_eq_some_iff] at hy
    obtain ⟨entry, hentry, rfl⟩ := hy
    obtain ⟨e, he⟩ := exists_getElem? size.symm hentry
    have hsize := Tree.size_le_sizeEntries (List.mem_of_getElem? he)
    refine ⟨e.2, each i entry e hentry he, ?_⟩
    rw [Tree.size]
    omega

/-- Every step of a path makes the tree smaller. -/
theorem Unfolds.along (u : h.Unfolds x t) (hc : h.at? Kind.isCompound x path = some c) :
    ∃ t', h.Unfolds c t' ∧ t'.size + path.length ≤ t.size := by
  induction path generalizing x t with
  | nil =>
    rw [at?_nil, Option.some_inj] at hc
    subst hc
    exact ⟨t, u, Nat.le_refl _⟩
  | cons i path ih =>
    rw [at?] at hc
    split at hc
    · obtain ⟨y, hy, hc⟩ := Option.bind_eq_some_iff.1 hc
      obtain ⟨s, us, hs⟩ := u.descends hy
      obtain ⟨t', ut', ht'⟩ := ih us hc
      refine ⟨t', ut', ?_⟩
      rw [List.length_cons]
      omega
    · simp at hc

theorem Unfolds.not_leadsIntoCycle (u : h.Unfolds x t) : ¬ h.LeadsIntoCycle x := by
  rintro ⟨path, loop, c, hpath, hne, hloop⟩
  obtain ⟨s, us, -⟩ := u.along hpath
  obtain ⟨s', us', hsize⟩ := us.along hloop
  have hpos := List.length_pos_iff.2 hne
  rw [us.unique us'] at hsize
  omega

/-- An item is stored exactly if nothing is wrong with any visit of the tour of its unfolding;
otherwise the fault is what is wrong with the first visit with which something is wrong.  What
leads into a cycle is never stored. -/
theorem serialize_decided (h : Heap) (limits : Limits) (x : Item) :
    ((∃ b, (h.serialize limits x).result = .ok b) ↔ (h.storageTour limits).Completes x) ∧
      (∀ f, (h.serialize limits x).result = .error f ↔ (h.storageTour limits).StopsWith x f) ∧
      (FormatFault.integerTooLarge.text = "integer too large" ∧
        FormatFault.bytesTooLarge.text = "byte array too large") ∧
      (h.LeadsIntoCycle x → ∃ f, (h.serialize limits x).result = .error f) := by
  obtain ⟨stored, refused⟩ := serialize_result_iff h limits x
  refine ⟨stored, refused, ⟨rfl, rfl⟩, ?_⟩
  intro cyclic
  cases hr : (h.serialize limits x).result with
  | error f => exact ⟨f, rfl⟩
  | ok b =>
    obtain ⟨t, u, -⟩ := serialize_eq_ok_iff.1 hr
    exact absurd cyclic u.not_leadsIntoCycle

/-- An array that holds three bytes and then itself. -/
def knot : Heap :=
  { arrays := #[#[.prim (.bytes [1, 2, 3]), .seq ⟨.array, 0⟩]] }

/-- Three limits, three faults: the bytes come before the cycle, and the number of the items
before what is wrong with them.  No limits let the array through. -/
theorem serialize_decided_knot :
    (knot.storageTour { maxItemSize := 2 }).StopsWith (.seq ⟨.array, 0⟩) (.format .bytesTooLarge) ∧
      (knot.storageTour { maxItemSize := 2, maxItems := 1 }).StopsWith (.seq ⟨.array, 0⟩)
        (.itemLimitExceeded 1) ∧
      (knot.storageTour .default).StopsWith (.seq ⟨.array, 0⟩) (.depthExceeded 10) ∧
      knot.LeadsIntoCycle (.seq ⟨.array, 0⟩) ∧
      ∀ limits, ∃ f, (knot.serialize limits (.seq ⟨.array, 0⟩)).result = .error f := by
  have decided := fun limits => serialize_decided knot limits (.seq ⟨.array, 0⟩)
  have cyclic : knot.LeadsIntoCycle (.seq ⟨.array, 0⟩) :=
    ⟨[], [1], .seq ⟨.array, 0⟩, rfl, List.cons_ne_nil 1 [], rfl⟩
  refine ⟨?_, ?_, ?_, cyclic, fun limits => (decided limits).2.2.2 cyclic⟩
  · exact ((decided _).2.1 _).1 rfl
  · exact ((decided _).2.1 _).1 rfl
  · exact ((decided _).2.1 _).1 rfl

end

end Heap

end StackItems
