/-
What renamed heaps have in common.

All that reads a heap reads the same in a heap that differs in the names of storage: what
it gives is the same if it gives no items, and otherwise gives related items.

* `Likewise` — results that are the same fault, or are related;
* `Renaming.compareAt_eq` — comparisons, with what they put on record;
* `Renaming.snapshotAt_alike` — **snapshots, which number storage in the order in which it
  is met and so do not show its name.**

Design notes: a comparison asks whether two handles are the same, and a snapshot whether
storage was shown before.  For both a renaming has to be one to one, which storing items
does not need.
-/
import StackItems.Equality
import StackItems.Proofs.Renaming
import StackItems.Snapshot

namespace StackItems

/-- Results that are the same fault, or are related. -/
inductive Likewise {ε α β : Type} (S : α → β → Prop) : Except ε α → Except ε β → Prop where
  | failed (cause : ε) : Likewise S (.error cause) (.error cause)
  | done {a : α} {b : β} (related : S a b) : Likewise S (.ok a) (.ok b)

theorem Likewise.of_eq {ε α : Type} {result result' : Except ε α} (same : result = result') :
    Likewise Eq result result' := by
  subst same
  cases result with
  | error cause => exact .failed cause
  | ok a => exact .done rfl

namespace Heap

section

variable {h g : Heap} {R : Item → Item → Prop} {x y x' y' : Item}

/-! ### Conversions -/

theorem Renaming.noConversion_eq (ρ : Renaming h g R) (hxy : R x y) (target : Target) :
    x.noConversion target = y.noConversion target := by
  rw [Item.noConversion, Item.noConversion, ρ.kind_eq hxy]

/-- Related items give the same primitives, or the same fault. -/
theorem Renaming.conversions_eq (ρ : Renaming h g R) (hxy : R x y) :
    x.toInteger = y.toInteger ∧ x.toBoolean = y.toBoolean ∧ x.toBytes = y.toBytes ∧
      x.toKey = y.toKey := by
  have fault := ρ.noConversion_eq hxy
  have kind := ρ.kind_eq hxy
  rcases ρ.cases hxy with ⟨p, rfl, rfl⟩ | ⟨r, s, rfl, rfl⟩ | ⟨r, s, rfl, rfl, -⟩ |
    ⟨r, s, rfl, rfl⟩
  · exact ⟨rfl, rfl, rfl, rfl⟩
  · exact ⟨rfl, rfl, rfl, rfl⟩
  · simp only [Item.toInteger, Item.toBoolean, Item.toBytes, Item.toKey, fault, kind, and_self]
  · exact ⟨rfl, rfl, rfl, rfl⟩

theorem Renaming.toKey_likewise (ρ : Renaming h g R) (hxy : R x y) :
    Likewise Eq x.toKey y.toKey := .of_eq (ρ.conversions_eq hxy).2.2.2

theorem Renaming.toHost_likewise (ρ : Renaming h g R) (hxy : R x y) :
    Likewise (fun r s => R (.host r) (.host s)) x.toHost y.toHost := by
  have fault := ρ.noConversion_eq hxy .interface
  rcases ρ.cases hxy with ⟨p, rfl, rfl⟩ | ⟨r, s, rfl, rfl⟩ | ⟨r, s, rfl, rfl, -⟩ |
    ⟨r, s, rfl, rfl⟩
  · exact .failed _
  · exact .done hxy
  · show Likewise _ (.error ((Item.seq r).noConversion .interface)) (.error _)
    rw [fault]
    exact .failed _
  · exact .failed _

theorem Renaming.toMap_likewise (ρ : Renaming h g R) (hxy : R x y) :
    Likewise (fun r s => R (.map r) (.map s)) x.toMap y.toMap := by
  have fault := ρ.noConversion_eq hxy .map
  rcases ρ.cases hxy with ⟨p, rfl, rfl⟩ | ⟨r, s, rfl, rfl⟩ | ⟨r, s, rfl, rfl, -⟩ |
    ⟨r, s, rfl, rfl⟩
  · exact .failed _
  · exact .failed _
  · show Likewise _ (.error ((Item.seq r).noConversion .map)) (.error _)
    rw [fault]
    exact .failed _
  · exact .done hxy

theorem Renaming.toAnySeq_likewise (ρ : Renaming h g R) (hxy : R x y) (asked : SeqKind) :
    Likewise (fun r s => R (.seq r) (.seq s)) (x.toAnySeq asked) (y.toAnySeq asked) := by
  rcases ρ.cases hxy with ⟨p, rfl, rfl⟩ | ⟨r, s, rfl, rfl⟩ | ⟨r, s, rfl, rfl, -⟩ |
    ⟨r, s, rfl, rfl⟩
  · exact .failed _
  · exact .failed _
  · exact .done hxy
  · exact .failed _

theorem Renaming.toSeq_likewise (ρ : Renaming h g R) (hxy : R x y) (kind : SeqKind) :
    Likewise (fun r s => R (.seq r) (.seq s)) (x.toSeq kind) (y.toSeq kind) := by
  have fault := ρ.noConversion_eq hxy kind.target
  rcases ρ.cases hxy with ⟨p, rfl, rfl⟩ | ⟨r, s, rfl, rfl⟩ | ⟨r, s, rfl, rfl, hkind⟩ |
    ⟨r, s, rfl, rfl⟩
  · exact .failed _
  · exact .failed _
  · rw [Item.toSeq, Item.toSeq, fault, hkind]
    split
    · exact .done hxy
    · exact .failed _
  · exact .failed _

theorem Renaming.hostValue_eq (ρ : Renaming h g R) (hxy : R x y) (type : String) :
    h.hostValue x type = g.hostValue y type := by
  have host := ρ.toHost_likewise hxy
  have fault := ρ.noConversion_eq hxy (.named type)
  rw [hostValue, hostValue]
  revert host
  generalize x.toHost = p
  generalize y.toHost = q
  rintro (cause | hrs)
  · rfl
  · simp only [ρ.object hrs, fault]

/-- A related sequence has as many elements, and a related map as many entries. -/
theorem Renaming.count_eq (ρ : Renaming h g R) (hxy : R x y) : h.count x = g.count y := by
  have size := length_contents_eq (ρ.node_eq hxy)
  rcases ρ.cases hxy with ⟨p, rfl, rfl⟩ | ⟨r, s, rfl, rfl⟩ | ⟨r, s, rfl, rfl, -⟩ |
    ⟨r, s, rfl, rfl⟩
  · rfl
  · rfl
  · simpa only [count, Heap.contents, Heap.items, Array.length_toList] using size
  · simpa only [count, Entries.size, Heap.contents, Entries.values, List.length_map] using size

theorem Renaming.describe_eq (ρ : Renaming h g R) (hxy : R x y) :
    h.describe x = g.describe y := by
  have count := ρ.count_eq hxy
  have kind := ρ.kind_eq hxy
  rcases ρ.cases hxy with ⟨p, rfl, rfl⟩ | ⟨r, s, rfl, rfl⟩ | ⟨r, s, rfl, rfl, -⟩ |
    ⟨r, s, rfl, rfl⟩
  · rw [describe.eq_def, describe.eq_def]
  · rw [describe.eq_def, describe.eq_def]
    simp only [ρ.object hxy]
  · rw [describe.eq_def, describe.eq_def]
    simp only [count, kind]
  · rw [describe.eq_def, describe.eq_def]
    simp only [count, kind]

/-! ### Look-ups -/

theorem lookup_related {κ : Type} [BEq κ] {es fs : List (κ × Item)}
    (related : List.Forall₂ (KeyedAlike R) es fs) (k : κ) :
    Option.Rel R (es.lookup k) (fs.lookup k) := by
  induction related with
  | nil => exact .none
  | @cons a b as bs first rest ih =>
    obtain ⟨key, value⟩ := a
    obtain ⟨key', value'⟩ := b
    obtain ⟨rfl, hvalue⟩ := first
    rw [List.lookup_cons, List.lookup_cons]
    cases k == key with
    | true => exact .some hvalue
    | false => exact ih

theorem Renaming.get?_related (ρ : Renaming h g R) {r s : MapRef} (hrs : R (.map r) (.map s))
    (k : Primitive) : Option.Rel R ((h.entries r).get? k) ((g.entries s).get? k) :=
  lookup_related (ρ.entries hrs) k

theorem Renaming.keys_eq (ρ : Renaming h g R) {r s : MapRef} (hrs : R (.map r) (.map s)) :
    (h.entries r).keys = (g.entries s).keys := Node.map.inj (ρ.node_eq hrs)

/-! ### Comparisons -/

/-- Lists of related pairs are compared alike if related pairs are. -/
theorem all_eq_of_related {α β : Type} (limits : Limits) {compare compare' : Item → Item → Nat → Comparison}
    {pair : α → Option (Item × Item)} {pair' : β → Option (Item × Item)} {as : List α}
    {bs : List β}
    (each : ∀ (x y x' y' : Item) (n : Nat), R x y → R x' y' → compare x x' n = compare' y y' n)
    (related : List.Forall₂
      (fun a b => Option.Rel (fun p q => R p.1 q.1 ∧ R p.2 q.2) (pair a) (pair' b)) as bs)
    (n : Nat) (log : Array LogRecord) :
    Comparison.all limits compare pair as n log
      = Comparison.all limits compare' pair' bs n log := by
  induction related generalizing n log with
  | nil => rfl
  | cons first rest ih =>
    cases n with
    | zero => rfl
    | succ n =>
      rw [Comparison.all, Comparison.all]
      revert first
      generalize pair _ = p
      generalize pair' _ = q
      rintro (⟨hfirst, hsecond⟩ | _)
      · simp only [each _ _ _ _ n hfirst hsecond, ih]
      · rfl

/-- Two handles are one handle exactly if the related ones are. -/
theorem Renaming.seq_eq_iff (ρ : Renaming h g R) {r s r' s' : SeqRef} (hrs : R (.seq r) (.seq s))
    (hrs' : R (.seq r') (.seq s')) : r = r' ↔ s = s' := by
  rw [← Item.seq.injEq, ρ.same hrs hrs', Item.seq.injEq]

theorem Renaming.map_eq_iff (ρ : Renaming h g R) {r s r' s' : MapRef} (hrs : R (.map r) (.map s))
    (hrs' : R (.map r') (.map s')) : r = r' ↔ s = s' := by
  rw [← Item.map.injEq, ρ.same hrs hrs', Item.map.injEq]

theorem Renaming.host_eq_iff (ρ : Renaming h g R) {r s r' s' : HostRef}
    (hrs : R (.host r) (.host s)) (hrs' : R (.host r') (.host s')) : r = r' ↔ s = s' := by
  rw [← Item.host.injEq, ρ.same hrs hrs', Item.host.injEq]

/-- The elements of two sequences are paired as those of the related ones. -/
theorem zip_related {as bs as' bs' : List Item} (first : List.Forall₂ R as bs)
    (second : List.Forall₂ R as' bs') :
    List.Forall₂ (fun a b => Option.Rel (fun p q => R p.1 q.1 ∧ R p.2 q.2) (some a) (some b))
      (as.zip as') (bs.zip bs') := by
  induction first generalizing as' bs' with
  | nil => exact .nil
  | cons hab rest ih =>
    cases second with
    | nil => exact .nil
    | cons hab' rest' => exact .cons (.some ⟨hab, hab'⟩) (ih rest')

/-- The values of two maps are paired as those of the related ones. -/
theorem Renaming.mapPairs_related (ρ : Renaming h g R) {r s r' s' : MapRef}
    (hrs : R (.map r) (.map s)) (hrs' : R (.map r') (.map s')) :
    List.Forall₂ (fun a b => Option.Rel (fun p q => R p.1 q.1 ∧ R p.2 q.2)
        (((h.entries r').get? a.1).map (a.2, ·)) (((g.entries s').get? b.1).map (b.2, ·)))
      (h.entries r).toList (g.entries s).toList := by
  apply (ρ.entries hrs).imp
  rintro ⟨key, value⟩ ⟨key', value'⟩ ⟨rfl, hvalue⟩
  have found := ρ.get?_related hrs' key
  revert found
  generalize (h.entries r').get? key = p
  generalize (g.entries s').get? key = q
  rintro (hpq | _)
  · exact .some ⟨hvalue, hpq⟩
  · exact .none

/-- Related items are compared alike: the comparison has the same outcome and the same
records. -/
theorem Renaming.compareAt_eq (ρ : Renaming h g R) (limits : Limits) (room depth : Nat)
    (hx : R x y) (hx' : R x' y') (n : Nat) :
    h.compareAt limits room depth x x' n = g.compareAt limits room depth y y' n := by
  induction room using Nat.strongRecOn generalizing depth x y x' y' n with
  | ind room ih =>
    have count := ρ.count_eq hx
    have count' := ρ.count_eq hx'
    have each : ∀ below, below < room → ∀ (x y x' y' : Item) (n : Nat), R x y → R x' y' →
        h.compareAt limits below (depth + 1) x x' n
          = g.compareAt limits below (depth + 1) y y' n :=
      fun below hbelow _ _ _ _ n hx hx' => ih below hbelow (depth + 1) hx hx' n
    rcases ρ.cases hx with ⟨p, rfl, rfl⟩ | ⟨r, s, rfl, rfl⟩ | ⟨r, s, rfl, rfl, hkind⟩ |
      ⟨r, s, rfl, rfl⟩
    · rcases ρ.cases hx' with ⟨q, rfl, rfl⟩ | ⟨r', s', rfl, rfl⟩ | ⟨r', s', rfl, rfl, -⟩ |
        ⟨r', s', rfl, rfl⟩ <;> simp only [compareAt]
    · rcases ρ.cases hx' with ⟨q, rfl, rfl⟩ | ⟨r', s', rfl, rfl⟩ | ⟨r', s', rfl, rfl, -⟩ |
        ⟨r', s', rfl, rfl⟩
      · simp only [compareAt]
      · simp only [compareAt, beq_eq_decide, ρ.host_eq_iff hx hx']
      · simp only [compareAt]
      · simp only [compareAt]
    · rcases ρ.cases hx' with ⟨q, rfl, rfl⟩ | ⟨r', s', rfl, rfl⟩ | ⟨r', s', rfl, rfl, hkind'⟩ |
        ⟨r', s', rfl, rfl⟩
      · simp only [compareAt]
      · simp only [compareAt]
      · have size : (h.elements r).size = (g.elements s).size := count
        have size' : (h.elements r').size = (g.elements s').size := count'
        rw [compareAt.eq_def, compareAt.eq_def]
        simp only [hkind, hkind', size, size', beq_eq_decide, ρ.seq_eq_iff hx hx']
        cases room with
        | zero => rfl
        | succ room =>
          have inside := all_eq_of_related limits (each room (Nat.lt_succ_self room))
            (zip_related (ρ.items hx) (ρ.items hx')) n #[]
          simp only [inside]
      · simp only [compareAt]
    · rcases ρ.cases hx' with ⟨q, rfl, rfl⟩ | ⟨r', s', rfl, rfl⟩ | ⟨r', s', rfl, rfl, -⟩ |
        ⟨r', s', rfl, rfl⟩
      · simp only [compareAt]
      · simp only [compareAt]
      · simp only [compareAt]
      · have size : (h.entries r).size = (g.entries s).size := count
        have size' : (h.entries r').size = (g.entries s').size := count'
        rw [compareAt.eq_def, compareAt.eq_def]
        simp only [size, size', ρ.map_eq_iff hx hx']
        cases room with
        | zero => rfl
        | succ room =>
          have inside := all_eq_of_related limits (each room (Nat.lt_succ_self room))
            (ρ.mapPairs_related hx hx') n #[]
          simp only [inside]

theorem Renaming.compare_eq (ρ : Renaming h g R) (limits : Limits) (hx : R x y)
    (hx' : R x' y') : h.compare limits x x' = g.compare limits y y' := by
  rw [compare, compare, ρ.compareAt_eq limits _ 0 hx hx']

theorem Renaming.equals_eq (ρ : Renaming h g R) (hx : R x y) (hx' : R x' y') :
    h.equals x x' = g.equals y y' := by
  rw [equals, equals, ρ.compare_eq .default hx hx']

end

/-! ### Snapshots -/

section

variable {h g : Heap} {R : Item → Item → Prop} {α β γ : Type}

/-- Two numberings in progress have shown the same, and have numbered related storage. -/
def Abreast (R : Item → Item → Prop) (shown shown' : γ × Array Item) : Prop :=
  shown.1 = shown'.1 ∧ PairedItems R shown.2 shown'.2

/-- Related things are shown alike, if the storage numbered before was related. -/
def ShownAlike (R : Item → Item → Prop) (S : α → β → Prop) (f : α → Numbered γ)
    (f' : β → Numbered γ) : Prop :=
  ∀ (a : α) (b : β) (seen seen' : Array Item), S a b → PairedItems R seen seen' →
    Abreast R (f a seen) (f' b seen')

/-- Lists are shown alike if their elements are, one after the other. -/
theorem ShownAlike.mapM {S : α → β → Prop} {f : α → Numbered γ} {f' : β → Numbered γ}
    (each : ShownAlike R S f f') :
    ShownAlike R (List.Forall₂ S) (List.mapM f) (List.mapM f') := by
  intro as bs seen seen' related numbered
  induction related generalizing seen seen' with
  | nil => exact ⟨rfl, numbered⟩
  | @cons a b as bs first rest ih =>
    obtain ⟨shown, numbered⟩ := each a b seen seen' first numbered
    obtain ⟨others, numbered⟩ := ih _ _ numbered
    rw [List.mapM_cons, List.mapM_cons]
    exact ⟨congrArg₂ List.cons shown others, numbered⟩

/-- Storage was shown before exactly if the related storage was, and under the same
number. -/
theorem Renaming.idxOf?_eq (ρ : Renaming h g R) {x y : Item} (hxy : R x y)
    {seen seen' : Array Item} (numbered : PairedItems R seen seen') :
    seen.idxOf? x = seen'.idxOf? y := by
  obtain ⟨before⟩ := seen
  obtain ⟨before'⟩ := seen'
  rw [List.idxOf?_toArray, List.idxOf?_toArray]
  replace numbered : List.Forall₂ R before before' := numbered
  induction numbered with
  | nil => rfl
  | cons hab rest ih =>
    rw [List.idxOf?_cons, List.idxOf?_cons, ih]
    simp only [beq_iff_eq, ρ.same hab hxy]

/-- Shows an item under its name: the key of its entry, or a register. -/
def underName {κ : Type} (view : Item → Numbered Snapshot) (entry : κ × Item) :
    Numbered (κ × Snapshot) := do
  return (entry.1, ← view entry.2)

theorem ShownAlike.underName {κ : Type} {f f' : Item → Numbered Snapshot}
    (each : ShownAlike R R f f') :
    ShownAlike R (KeyedAlike R) (underName (κ := κ) f) (underName f') := by
  intro a b seen seen' hab numbered
  obtain ⟨shown, numbered⟩ := each a.2 b.2 seen seen' hab.2 numbered
  exact ⟨Prod.ext hab.1 shown, numbered⟩

theorem snapshotAt_prim (h : Heap) (levels : Nat) (p : Primitive) (seen : Array Item) :
    h.snapshotAt levels (.prim p) seen = (.prim p, seen) := by
  rw [snapshotAt.eq_def]
  dsimp only [bind, StateT.bind, get, getThe, MonadStateOf.get, StateT.get, pure]
  cases seen.idxOf? (.prim p) <;> rfl

theorem snapshotAt_host (h : Heap) (levels : Nat) (r : HostRef) (seen : Array Item) :
    h.snapshotAt levels (.host r) seen = match seen.idxOf? (.host r) with
      | some id => (.seen id, seen)
      | none => (.host seen.size (h.object r).interface, seen.push (.host r)) := by
  rw [snapshotAt.eq_def]
  dsimp only [bind, StateT.bind, get, getThe, MonadStateOf.get, StateT.get, pure]
  cases seen.idxOf? (.host r) <;> rfl

theorem snapshotAt_seq (h : Heap) (levels : Nat) (r : SeqRef) (seen : Array Item) :
    h.snapshotAt levels (.seq r) seen = match seen.idxOf? (.seq r) with
      | some id => (.seen id, seen)
      | none => match levels with
        | 0 => (.deep r.kind.kind (h.count (.seq r)), seen)
        | levels + 1 =>
          let inside := ((h.items r).take Snapshot.breadth).mapM (h.snapshotAt levels)
            (seen.push (.seq r))
          (.seq r.kind seen.size inside.1 (h.count (.seq r) - Snapshot.breadth), inside.2) := by
  rw [snapshotAt.eq_def]
  dsimp only [bind, StateT.bind, get, getThe, MonadStateOf.get, StateT.get, pure]
  cases seen.idxOf? (.seq r) with
  | some id => rfl
  | none => cases levels <;> rfl

theorem snapshotAt_map (h : Heap) (levels : Nat) (r : MapRef) (seen : Array Item) :
    h.snapshotAt levels (.map r) seen = match seen.idxOf? (.map r) with
      | some id => (.seen id, seen)
      | none => match levels with
        | 0 => (.deep .map (h.count (.map r)), seen)
        | levels + 1 =>
          let inside := ((h.entries r).toList.take Snapshot.breadth).mapM
            (underName (h.snapshotAt levels)) (seen.push (.map r))
          (.map seen.size inside.1 (h.count (.map r) - Snapshot.breadth), inside.2) := by
  rw [snapshotAt.eq_def]
  dsimp only [bind, StateT.bind, get, getThe, MonadStateOf.get, StateT.get, pure]
  cases seen.idxOf? (.map r) with
  | some id => rfl
  | none => cases levels <;> rfl

/-- Related items are shown alike. -/
theorem Renaming.snapshotAt_alike (ρ : Renaming h g R) (levels : Nat) :
    ShownAlike R R (h.snapshotAt levels) (g.snapshotAt levels) := by
  induction levels using Nat.strongRecOn with
  | ind levels ih =>
    intro x y seen seen' hxy numbered
    have found := ρ.idxOf?_eq hxy numbered
    have count := ρ.count_eq hxy
    have next : seen.size = seen'.size := numbered.length_eq
    rcases ρ.cases hxy with ⟨p, rfl, rfl⟩ | ⟨r, s, rfl, rfl⟩ | ⟨r, s, rfl, rfl, hkind⟩ |
      ⟨r, s, rfl, rfl⟩
    · rw [snapshotAt_prim, snapshotAt_prim]
      exact ⟨rfl, numbered⟩
    · rw [snapshotAt_host, snapshotAt_host, found, next, ρ.object hxy]
      cases seen'.idxOf? (.host s) with
      | some id => exact ⟨rfl, numbered⟩
      | none => exact ⟨rfl, numbered.push hxy⟩
    · rw [snapshotAt_seq, snapshotAt_seq, found, next, count, hkind]
      cases seen'.idxOf? (.seq s) with
      | some id => exact ⟨rfl, numbered⟩
      | none =>
        cases levels with
        | zero => exact ⟨rfl, numbered⟩
        | succ levels =>
          obtain ⟨shown, numbered⟩ := (ih levels (Nat.lt_succ_self levels)).mapM _ _ _ _
            (List.forall₂_take Snapshot.breadth (ρ.items hxy)) (numbered.push hxy)
          exact ⟨by simp only [shown], numbered⟩
    · rw [snapshotAt_map, snapshotAt_map, found, next, count]
      cases seen'.idxOf? (.map s) with
      | some id => exact ⟨rfl, numbered⟩
      | none =>
        cases levels with
        | zero => exact ⟨rfl, numbered⟩
        | succ levels =>
          obtain ⟨shown, numbered⟩ := (ih levels (Nat.lt_succ_self levels)).underName.mapM _ _ _ _
            (List.forall₂_take Snapshot.breadth (ρ.entries hxy)) (numbered.push hxy)
          exact ⟨by simp only [shown], numbered⟩

theorem Renaming.snapshot_eq (ρ : Renaming h g R) {x y : Item} (hxy : R x y) :
    h.snapshot x = g.snapshot y := (ρ.snapshotAt_alike Snapshot.levels x y #[] #[] hxy .nil).1

theorem Renaming.listing_eq (ρ : Renaming h g R) {xs ys : List Item}
    (related : List.Forall₂ R xs ys) : h.listing xs = g.listing ys := by
  have shown := (ρ.snapshotAt_alike (Snapshot.levels - 1)).mapM _ _ #[] #[]
    (List.forall₂_take Snapshot.breadth related) .nil
  exact Prod.ext shown.1 (congrArg (· - Snapshot.breadth) related.length_eq)

theorem Renaming.entryListing_eq (ρ : Renaming h g R) {es fs : List (Primitive × Item)}
    (related : List.Forall₂ (KeyedAlike R) es fs) : h.entryListing es = g.entryListing fs := by
  have shown := (ρ.snapshotAt_alike (Snapshot.levels - 1)).underName.mapM _ _ #[] #[]
    (List.forall₂_take Snapshot.breadth related) .nil
  exact Prod.ext shown.1 (congrArg (· - Snapshot.breadth) related.length_eq)

end

end Heap

end StackItems
