/-
Operations that make their storage as they go along.

`deserialize` and `cloneStruct` find out whether they succeed before they make any storage,
so they leave nothing behind when they fail.  Here are the same operations in place: they
make a container as soon as what it holds is there, and if they stop, all that they have
made so far stays in the heap.

* `Loading`, `loadAt` — reading stored data in place;
* `load`, `copy` — the two operations, with the heap that they leave behind even if they
  fail;
* `InPlace` — what an operation in place has in common with the one that makes its storage
  at the end;
* `inPlace_load`, `inPlace_copy` — **the two have one result, and what stays behind after a
  failure changes nothing that was there before.**

Design notes: `loadWith` follows `readWith` line by line; where the one gives a tree, the
other makes an item.
-/
import StackItems.Proofs.StepwiseCopy

namespace StackItems

/-- A computation that reads stored data and makes storage for it, which stays even if the
computation stops. -/
abbrev Loading := StateT Cursor (ExceptT Halt (StateM Heap))

namespace Loading

variable {α : Type}

/-- Reads without making anything. -/
def read (r : Reader α) : Loading α := fun c h => (r c, h)

/-- A new sequence. -/
def newSeq (kind : SeqKind) (xs : Array Item) : Loading Item := fun c h =>
  let (r, h) := h.newSeq kind xs
  (.ok (.seq r, c), h)

/-- A new map. -/
def newMap (es : Entries Item) : Loading Item := fun c h =>
  let (r, h) := h.newMap es
  (.ok (.map r, c), h)

/-- An item as a key of a map. -/
def asKey (x : Item) : Loading Primitive := fun c h =>
  match x.toKey with
  | .ok k => (.ok (k, c), h)
  | .error cause => (.error (.fault cause), h)

/-- Makes `n` items behind those already made. -/
def times (load : Loading Item) : Nat → Array Item → Loading (Array Item)
  | 0, xs => return xs
  | n + 1, xs => do times load n (xs.push (← load))

/-- Makes `n` entries behind those already made. -/
def entries (load : Loading Item) : Nat → Entries Item → Loading (Entries Item)
  | 0, es => return es
  | n + 1, es => do
    let k ← asKey (← load)
    let x ← load
    if es.contains k then read (Reader.fail (.format .duplicateKey))
    else entries load n (es.insert k x)

/-- Makes a sequence. -/
def loadSeq (limits : Limits) (kind : SeqKind) (element : Loading Item) : Loading Item := do
  let n ← read (Reader.count limits 1)
  newSeq kind (← times element n #[])

/-- Makes a map. -/
def loadMap (limits : Limits) (item : Loading Item) : Loading Item := do
  let n ← read (Reader.count limits 2)
  newMap (← entries item n .empty)

/-- Makes an item at a depth, whose contents are made by `inner`; at the limit of nesting
there is no such computation. -/
def loadWith (limits : Limits) (depth : Nat) (inner : Option (Loading Item)) : Loading Item := do
  let nested (load : Loading Item → Loading Item) : Loading Item :=
    match inner with
    | none => read (Reader.stop (.depth depth))
    | some inner => load inner
  read Reader.spend
  let tag ← read Reader.byte
  match Kind.ofTag? tag with
  | none => read (Reader.fail (.format (.unknownTag tag)))
  | some .boolean => return .prim (← read Tree.readBoolean)
  | some .integer => return .prim (← read Tree.readInteger)
  | some .bytes => return .prim (.bytes (← read (Reader.sized limits.maxItemSize)))
  | some .array => nested (loadSeq limits .array)
  | some .struct => nested (loadSeq limits .struct)
  | some .map => nested (loadMap limits)
  | some .interop => read (Reader.fail (.unsupported .interop))

/-- Makes an item at a depth, with room for so many levels of containers. -/
def loadAt (limits : Limits) : (room depth : Nat) → Loading Item
  | 0, depth => loadWith limits depth none
  | room + 1, depth => loadWith limits depth (some (loadAt limits room (depth + 1)))

end Loading

namespace Heap

/-- A new item from its stored form, made in place. -/
def load (h : Heap) (limits : Limits) (input : List UInt8) : Report Item × Heap :=
  match Loading.loadAt limits limits.maxStructDepth.toNat 0 ⟨input, limits.maxItems.toNat⟩ h with
  | (.error halt, g) => (storageReport limits (.error halt), g)
  | (.ok (x, rest), g) =>
    if rest.input.isEmpty then (.quiet (.ok x), g)
    else (storageReport limits (.error (.fault (.format (.trailingBytes rest.input.length)))), g)

/-- A copy of a struct, made in place: that of `copyStruct`, with what it puts on record. -/
def copy (h : Heap) (limits : Limits) (r : SeqRef) : Report Item × Heap :=
  match copyAt limits.maxStructDepth.toNat 0 r limits.maxCloneLength.toNat h with
  | (.error cause, g) => (⟨.error (cloneFault limits cause), #[cloneRecord limits cause]⟩, g)
  | (.ok (x, _), g) => (.quiet (.ok x), g)

/-- What an operation in place has in common with the one that makes its storage at the
end: the same result, the same records and the same heap, or the same fault, the same
records and a heap that still holds all that it held. -/
inductive InPlace (h : Heap) : Report (Item × Heap) → Report Item × Heap → Prop where
  | failed {fault : Fault} {log : Array LogRecord} {g : Heap} (grown : h.Extends g) :
      InPlace h ⟨.error fault, log⟩ (⟨.error fault, log⟩, g)
  | done {x : Item} {g : Heap} {log : Array LogRecord} (grown : h.Extends g) :
      InPlace h ⟨.ok (x, g), log⟩ (⟨.ok x, log⟩, g)

end Heap

/-! ### Reading first, and reading in place -/

/-- A run in place, beside one that reads first: both stop for the same cause, or what is
made in place is what is made of what was read. -/
inductive LoadedAs {α β : Type} (h : Heap) (B : α → β × Heap → Prop) :
    Except Halt (α × Cursor) → Except Halt (β × Cursor) × Heap → Prop where
  | stopped (halt : Halt) {g : Heap} (grown : h.Extends g) :
      LoadedAs h B (.error halt) (.error halt, g)
  | done {a : α} {b : β} {c : Cursor} {g : Heap} (grown : h.Extends g) (made : B a (b, g)) :
      LoadedAs h B (.ok (a, c)) (.ok (b, c), g)

/-- A computation in place makes what is built of what the reader gives. -/
def Loads (read : Reader Tree) (load : Loading Item) : Prop :=
  ∀ (c : Cursor) (h : Heap), LoadedAs h (fun t made => made = t.build h) (read c) (load c h)

section

variable {α β γ δ : Type} {h g : Heap} {c : Cursor} {t : Tree}

theorem loading_bind_apply {load : Loading β} {next : β → Loading δ} :
    (load >>= next) c h = match load c h with
      | (.error halt, g) => (.error halt, g)
      | (.ok (b, c), g) => next b c g := by
  simp only [bind, StateT.bind, ExceptT.bind, ExceptT.mk, ExceptT.bindCont]
  rcases load c h with ⟨⟨halt⟩ | ⟨b, c⟩, g⟩
  · rfl
  · rfl

theorem LoadedAs.bind {B : α → β × Heap → Prop} {B' : γ → δ × Heap → Prop} {read : Reader α}
    {load : Loading β} {next : α → Reader γ} {next' : β → Loading δ}
    (first : LoadedAs h B (read c) (load c h))
    (others : ∀ a b c g, h.Extends g → B a (b, g) → LoadedAs g B' (next a c) (next' b c g)) :
    LoadedAs h B' ((read >>= next) c) ((load >>= next') c h) := by
  rw [bind_apply, loading_bind_apply]
  generalize read c = done, load c h = done' at first
  cases first with
  | stopped halt grown => exact .stopped halt grown
  | @done a b c g grown made =>
    have rest := others a b c g grown made
    show LoadedAs h B' (next a c) (next' b c g)
    generalize next a c = done, next' b c g = done' at rest
    cases rest with
    | stopped halt grown' => exact .stopped halt (grown.trans grown')
    | done grown' made => exact .done (grown.trans grown') made

theorem LoadedAs.imp {B B' : α → β × Heap → Prop} {done : Except Halt (α × Cursor)}
    {done' : Except Halt (β × Cursor) × Heap} (loaded : LoadedAs h B done done')
    (weaker : ∀ a made, B a made → B' a made) : LoadedAs h B' done done' := by
  cases loaded with
  | stopped halt grown => exact .stopped halt grown
  | done grown made => exact .done grown (weaker _ _ made)

/-- Reading alone makes nothing. -/
theorem loadedAs_read (r : Reader α) (c : Cursor) (h : Heap) :
    LoadedAs h (fun a made => made = (a, h)) (r c) (Loading.read r c h) := by
  rw [Loading.read]
  rcases r c with halt | ⟨a, c'⟩
  · exact .stopped halt (.refl h)
  · exact .done (.refl h) rfl

/-- What is read without a container makes nothing either. -/
theorem loadedAs_prim (r : Reader α) (f : α → Primitive) (c : Cursor) (h : Heap) :
    LoadedAs h (fun t made => made = t.build h) ((do return Tree.prim (f (← r))) c)
      ((do return .prim (f (← Loading.read r)) : Loading Item) c h) := by
  apply (loadedAs_read r c h).bind
  intro a b c g _ made
  injection made with hb hg
  subst hb hg
  exact .done (.refl g) rfl

/-- The key of an entry is the primitive that was read, or no key at all. -/
theorem loadedAs_key (t : Tree) (c : Cursor) (h : Heap) :
    LoadedAs (t.build h).2 (fun k made => made = (k, h)) (Reader.asKey t c)
      (Loading.asKey (t.build h).1 c (t.build h).2) := by
  cases t with
  | prim p => exact .done (.refl h) rfl
  | seq kind ts => exact .stopped _ (.refl _)
  | map es => exact .stopped _ (.refl _)

variable {read : Reader Tree} {load : Loading Item}

theorem Loads.times (each : Loads read load) (n : Nat) (done : List Tree) (xs : Array Item)
    (c : Cursor) (h : Heap) :
    LoadedAs h (fun ts made => ∃ new, ts = done.reverse ++ new ∧ made = Tree.buildAll new xs h)
      (Reader.times read n done c) (Loading.times load n xs c h) := by
  induction n generalizing done xs c h with
  | zero => exact .done (.refl h) ⟨[], (List.append_nil _).symm, rfl⟩
  | succ n ih =>
    rw [Reader.times, Loading.times]
    apply (each c h).bind
    intro t x c g _ made
    refine (ih (t :: done) (xs.push x) c g).imp ?_
    rintro ts built ⟨new, rfl, rfl⟩
    refine ⟨t :: new, by simp, ?_⟩
    rw [Tree.buildAll, ← made]

/-- A key is among the entries made so far exactly if it is among those read so far. -/
theorem contains_eq_any {done : List (Primitive × Tree)} {es : Entries Item}
    (keys : es.keys = done.reverse.map Prod.fst) (k : Primitive) :
    es.contains k = done.any (·.1 == k) := by
  rw [Bool.eq_iff_iff, Entries.contains_eq_true_iff, keys, List.map_reverse, List.mem_reverse]
  simp only [List.mem_map, List.any_eq_true, beq_iff_eq]

theorem Loads.entries (each : Loads read load) (n : Nat) (done : List (Primitive × Tree))
    (es : Entries Item) (keys : es.keys = done.reverse.map Prod.fst) (c : Cursor) (h : Heap) :
    LoadedAs h
      (fun ts made => ∃ new, ts = done.reverse ++ new ∧ made = Tree.buildEntries new es h)
      (Reader.entries read n done c) (Loading.entries load n es c h) := by
  induction n generalizing done es c h with
  | zero => exact .done (.refl h) ⟨[], (List.append_nil _).symm, rfl⟩
  | succ n ih =>
    rw [Reader.entries, Loading.entries]
    apply (each c h).bind
    intro kt kx c g _ made
    have hkey := loadedAs_key kt c h
    rw [← made] at hkey
    apply hkey.bind
    rintro k _ c _ _ ⟨⟩
    apply (each c h).bind
    intro t x c g _ made
    rw [contains_eq_any keys]
    split
    · exact .stopped _ (.refl g)
    · next fresh =>
      have hk : k ∉ es.keys := by
        rwa [← Entries.contains_eq_true_iff, contains_eq_any keys]
      refine (ih ((k, t) :: done) (es.insert k x) ?_ c g).imp ?_
      · rw [Entries.keys_insert, if_neg hk, keys, List.reverse_cons, List.map_append]
        rfl
      · rintro ts built ⟨new, rfl, rfl⟩
        refine ⟨(k, t) :: new, by simp, ?_⟩
        rw [Tree.buildEntries, ← made]

theorem Loads.loadSeq (each : Loads read load) (limits : Limits) (kind : SeqKind) :
    Loads (Tree.readSeq limits kind read) (Loading.loadSeq limits kind load) := by
  intro c h
  apply (loadedAs_read (Reader.count limits 1) c h).bind
  rintro n _ c g _ ⟨⟩
  apply (each.times n [] #[] c h).bind
  rintro ts xs c g _ ⟨new, rfl, made⟩
  refine .done (g.extends_newSeq kind xs) ?_
  rw [Tree.build, ← made]
  rfl

theorem Loads.loadMap (each : Loads read load) (limits : Limits) :
    Loads (Tree.readMap limits read) (Loading.loadMap limits load) := by
  intro c h
  apply (loadedAs_read (Reader.count limits 2) c h).bind
  rintro n _ c g _ ⟨⟩
  apply (each.entries n [] .empty rfl c h).bind
  rintro ts es c g _ ⟨new, rfl, made⟩
  refine .done (g.extends_newMap es) ?_
  rw [Tree.build, ← made]
  rfl

/-- At one depth, a computation in place follows the reader if their contents do. -/
theorem loads_loadWith (limits : Limits) (depth : Nat) {inner : Option (Reader Tree)}
    {inner' : Option (Loading Item)} (below : Option.Rel Loads inner inner') :
    Loads (Tree.readWith limits depth inner) (Loading.loadWith limits depth inner') := by
  intro c h
  rw [Tree.readWith, Loading.loadWith]
  apply (loadedAs_read Reader.spend c h).bind
  rintro _ _ c _ _ ⟨⟩
  apply (loadedAs_read Reader.byte c h).bind
  rintro tag _ c _ _ ⟨⟩
  have stops : ∀ (stop : Reader Tree) (stop' : Reader Item), (∃ halt, stop c = .error halt ∧
      stop' c = .error halt) → LoadedAs h (fun t made => made = t.build h) (stop c)
        (Loading.read stop' c h) := by
    rintro stop stop' ⟨halt, hstop, hstop'⟩
    rw [Loading.read, hstop, hstop']
    exact .stopped halt (.refl h)
  cases Kind.ofTag? tag with
  | none => exact stops _ _ ⟨_, rfl, rfl⟩
  | some kind =>
    cases kind with
    | boolean => exact loadedAs_prim Tree.readBoolean id c h
    | integer => exact loadedAs_prim Tree.readInteger id c h
    | bytes => exact loadedAs_prim (Reader.sized limits.maxItemSize) .bytes c h
    | interop => exact stops _ _ ⟨_, rfl, rfl⟩
    | array =>
      cases below with
      | none => exact stops _ _ ⟨_, rfl, rfl⟩
      | some each => exact each.loadSeq limits .array c h
    | struct =>
      cases below with
      | none => exact stops _ _ ⟨_, rfl, rfl⟩
      | some each => exact each.loadSeq limits .struct c h
    | map =>
      cases below with
      | none => exact stops _ _ ⟨_, rfl, rfl⟩
      | some each => exact each.loadMap limits c h

theorem loads_loadAt (limits : Limits) (room depth : Nat) :
    Loads (Tree.readAt limits room depth) (Loading.loadAt limits room depth) := by
  induction room generalizing depth with
  | zero => exact loads_loadWith limits depth .none
  | succ room ih => exact loads_loadWith limits depth (.some (ih (depth + 1)))

end

namespace Heap

variable {h : Heap} {P : Item → Prop}

/-- Deserializing in place has the result of deserializing, and leaves all older storage as
it was. -/
theorem inPlace_load (h : Heap) (limits : Limits) (input : List UInt8) :
    InPlace h (h.deserialize limits input) (h.load limits input) := by
  have loads := loads_loadAt limits limits.maxStructDepth.toNat 0 ⟨input, limits.maxItems.toNat⟩ h
  rw [deserialize_eq, load, Tree.decode]
  generalize Tree.readAt limits limits.maxStructDepth.toNat 0 ⟨input, limits.maxItems.toNat⟩ = done,
    Loading.loadAt limits limits.maxStructDepth.toNat 0 ⟨input, limits.maxItems.toNat⟩ h = done'
    at loads
  cases loads with
  | stopped halt grown => exact .failed grown
  | @done t x rest g grown made =>
    dsimp only
    split
    · rw [Except.map, ← made]
      exact .done grown
    · exact .failed grown

/-- Copying a struct in place has the result of copying it, and leaves all older storage as
it was. -/
theorem ClosedOn.inPlace_copy (closed : h.ClosedOn P) (limits : Limits) {r : SeqRef}
    (hP : P (.seq r)) : InPlace h (h.cloneStruct limits r) (h.copy limits r) := by
  have agrees := closed.copyAt_agrees limits.maxStructDepth.toNat 0 r limits.maxCloneLength.toNat
    h hP (.refl h)
  have grown := extends_copyAt limits.maxStructDepth.toNat 0 r limits.maxCloneLength.toNat h
  rw [cloneStruct_eq, copy]
  generalize copyAt limits.maxStructDepth.toNat 0 r limits.maxCloneLength.toNat h
    = copied at agrees grown
  obtain ⟨result, g⟩ := copied
  cases hspine : h.spineAt limits.maxStructDepth.toNat 0 r limits.maxCloneLength.toNat with
  | error cause =>
    rw [hspine] at agrees
    obtain rfl : result = .error cause := agrees
    exact .failed grown
  | ok done =>
    obtain ⟨children, left⟩ := done
    rw [hspine] at agrees
    obtain ⟨rfl, rfl⟩ := Prod.mk.inj (show (result, g) = (_, _) from agrees)
    exact .done grown

end Heap

end StackItems
