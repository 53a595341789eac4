/-
Walks that keep no records.

A walk under limits puts on record that it stops, where it stops.  Here are the same walks
without a log.  What they give and why they stop is what the theory is about, and what they
would have said follows from the cause.

* `Heap.spineAt`, `Heap.treeAt`, `Tree.readAt` — the walks of copying, of storing and of reading
  without records; `Heap.tree`, `Tree.decode` — the last two within the limits;
* `Retraces` — a walk that keeps records follows one that keeps none: the two come to one end, and
  the log grows by the records of the cause if there is one, and by nothing else;
* `retraces_spineAt`, `retraces_treeAt`, `retraces_readAt` — the walks do so, stop at the limit of
  nesting if they stop for their depth, and take no fault for a limit;
* `cloneStruct_eq`, `serialize_eq`, `deserialize_eq` — **an operation reports what its silent walk
  gives, and with it the records of the cause, once each.**

Design notes: the depth of a walk and the room that it has left add up to the limit of nesting,
so without room the depth is the limit.
-/
import StackItems.Proofs.Causes
import StackItems.StructClone

namespace StackItems

/-! ### The walks -/

namespace Heap

/-- The children of a struct at a depth, with room for so many levels of structs.
Every child costs one unit of the budget before it is looked into. -/
def spineAt (h : Heap) : (room depth : Nat) → SeqRef → Budgeted Cutoff (List Spine)
  | 0, depth, _ => Budgeted.stop (.depth depth)
  | room + 1, depth, r => (h.items r).mapM fun x => do
    Budgeted.spend .budget
    match x with
    | .seq ⟨.struct, slot⟩ => return .struct (← spineAt h room (depth + 1) ⟨.struct, slot⟩)
    | x => return .leaf x

/-- The tree of an item at a depth, with room for so many levels of containers.
Every item costs one unit of the budget, keys of maps included. -/
def treeAt (h : Heap) (limits : Limits) (room depth : Nat) (x : Item) : Budgeted Halt Tree :=
  match x with
  | .prim p => do
    visitPrimitive limits p
    return .prim p
  | .host _ => do
    Budgeted.spend (.cutoff .budget)
    Budgeted.stop (.fault (.unsupported .interop))
  | .seq r => do
    Budgeted.spend (.cutoff .budget)
    match room with
    | 0 => Budgeted.stop (.cutoff (.depth depth))
    | room + 1 => return .seq r.kind (← (h.items r).mapM (treeAt h limits room (depth + 1)))
  | .map r => do
    Budgeted.spend (.cutoff .budget)
    match room with
    | 0 => Budgeted.stop (.cutoff (.depth depth))
    | room + 1 => return .map (← (h.entries r).toList.mapM fun entry => do
        visitPrimitive limits entry.1
        return (entry.1, ← treeAt h limits room (depth + 1) entry.2))

/-- The tree of an item, if the limits allow to store it. -/
def tree (h : Heap) (limits : Limits) (x : Item) : Except Halt Tree :=
  (h.treeAt limits limits.maxStructDepth.toNat 0 x).runFrom limits.maxItems

end Heap

/-- Reads `n` entries behind those already read, which are given last first. -/
def Reader.entries (read : Reader Tree) :
    Nat → List (Primitive × Tree) → Reader (List (Primitive × Tree))
  | 0, done => return done.reverse
  | n + 1, done => do
    let k ← asKey (← read)
    let t ← read
    if done.any (·.1 == k) then fail (.format .duplicateKey)
    else entries read n ((k, t) :: done)

namespace Tree

/-- Reads a count and so many elements. -/
def readSeq (limits : Limits) (kind : SeqKind) (element : Reader Tree) : Reader Tree := do
  let n ← Reader.count limits 1
  return .seq kind (← Reader.times element n [])

/-- Reads a count and so many entries. -/
def readMap (limits : Limits) (item : Reader Tree) : Reader Tree := do
  let n ← Reader.count limits 2
  return .map (← Reader.entries item n [])

/-- Reads a tree at a depth whose containers read their contents by `inner`; at
the limit of nesting there is no such reader. -/
def readWith (limits : Limits) (depth : Nat) (inner : Option (Reader Tree)) : Reader Tree := do
  let nested (read : Reader Tree → Reader Tree) : Reader Tree :=
    match inner with
    | none => Reader.stop (.depth depth)
    | some inner => read inner
  Reader.spend
  let tag ← Reader.byte
  match Kind.ofTag? tag with
  | none => Reader.fail (.format (.unknownTag tag))
  | some .boolean => return .prim (← readBoolean)
  | some .integer => return .prim (← readInteger)
  | some .bytes => return .prim (.bytes (← Reader.sized limits.maxItemSize))
  | some .array => nested (readSeq limits .array)
  | some .struct => nested (readSeq limits .struct)
  | some .map => nested (readMap limits)
  | some .interop => Reader.fail (.unsupported .interop)

/-- Reads a tree at a depth, with room for so many levels of containers. -/
def readAt (limits : Limits) : (room depth : Nat) → Reader Tree
  | 0, depth => readWith limits depth none
  | room + 1, depth => readWith limits depth (some (readAt limits room (depth + 1)))

/-- The tree whose stored form is exactly the input, and what is left of the
budget. -/
def decode (limits : Limits) (input : List UInt8) : Except Halt Tree :=
  match readAt limits limits.maxStructDepth.toNat 0 ⟨input, limits.maxItems.toNat⟩ with
  | .error halt => .error halt
  | .ok (t, rest) =>
    if rest.input.isEmpty then .ok t
    else .error (.fault (.format (.trailingBytes rest.input.length)))

end Tree

/-! ### A walk that retraces another -/

section

variable {ε σ α β : Type} {P : ε → Prop} {records : ε → Array LogRecord}

/-- One end of a walk that keeps no records and of a walk that keeps them, behind a log.  If the
two stop, it is for such a cause, and the records of the cause are put behind the log. -/
inductive EndsAlike (P : ε → Prop) (records : ε → Array LogRecord) (log : Array LogRecord) :
    Except ε (α × σ) → Except ε α × Trail σ → Prop where
  | done (a : α) (rest : σ) : EndsAlike P records log (.ok (a, rest)) (.ok a, ⟨rest, log⟩)
  | stopped {cause : ε} (due : P cause) (rest : σ) :
      EndsAlike P records log (.error cause) (.error cause, ⟨rest, log ++ records cause⟩)

section

variable {log : Array LogRecord} {cause : ε}

theorem EndsAlike.untold (due : P cause) (none : records cause = #[]) (rest : σ) :
    EndsAlike P records log (.error cause : Except ε (α × σ)) (.error cause, ⟨rest, log⟩) := by
  have stopped : EndsAlike P records log (.error cause : Except ε (α × σ))
      (.error cause, ⟨rest, log ++ records cause⟩) := .stopped due rest
  rwa [none, Array.append_empty] at stopped

theorem EndsAlike.told {r : LogRecord} (due : P cause) (one : records cause = #[r]) (rest : σ) :
    EndsAlike P records log (.error cause : Except ε (α × σ))
      (.error cause, ⟨rest, log.push r⟩) := by
  have stopped : EndsAlike P records log (.error cause : Except ε (α × σ))
      (.error cause, ⟨rest, log ++ records cause⟩) := .stopped due rest
  rwa [one, Array.append_singleton] at stopped

end

/-- From everywhere and behind every log the two walks come to one end. -/
def Retraces (P : ε → Prop) (records : ε → Array LogRecord) (walk : Recording ε σ α)
    (silent : StateT σ (Except ε) α) : Prop :=
  ∀ s log, EndsAlike P records log (silent s) (walk ⟨s, log⟩)

theorem retraces_pure (a : α) :
    Retraces P records (pure a : Recording ε σ α) (pure a) := fun s _ => .done a s

theorem Retraces.bind {walk : Recording ε σ α} {silent : StateT σ (Except ε) α}
    {next : α → Recording ε σ β} {silentNext : α → StateT σ (Except ε) β}
    (first : Retraces P records walk silent)
    (rest : ∀ a, Retraces P records (next a) (silentNext a)) :
    Retraces P records (walk >>= next) (silent >>= silentNext) := by
  intro s log
  have ends := first s log
  rw [exceptT_bind_apply, bind_apply]
  generalize silent s = ended, walk ⟨s, log⟩ = ended' at ends
  cases ends with
  -- A step that has not stopped has said nothing, so the rest starts behind the same log.
  | done a s' => exact rest a s' log
  | stopped due s' => exact .stopped due s'

theorem Retraces.mapM {visit : α → Recording ε σ β} {silent : α → StateT σ (Except ε) β}
    (each : ∀ a, Retraces P records (visit a) (silent a)) (as : List α) :
    Retraces P records (as.mapM visit) (as.mapM silent) := by
  induction as with
  | nil => exact retraces_pure []
  | cons a as ih =>
    rw [List.mapM_cons, List.mapM_cons]
    exact (each a).bind fun b => ih.bind fun bs => retraces_pure (b :: bs)

/-- A step is taken over as it is if nothing is to be said of its causes. -/
theorem retraces_silently {Q : ε → Prop} {step : StateT σ (Except ε) α} (stops : StopsFor Q step)
    (nothing : ∀ cause, Q cause → P cause ∧ records cause = #[]) :
    Retraces P records (Recording.silently step) step := by
  intro s log
  rw [Recording.silently]
  cases hstep : step s with
  | ok done => exact .done done.1 done.2
  | error cause =>
    obtain ⟨due, none⟩ := nothing cause (stops s cause hstep)
    exact .untold due none s

theorem retraces_throw {cause : ε} {silent : StateT σ (Except ε) α}
    (stops : ∀ s, silent s = .error cause) (due : P cause) (none : records cause = #[]) :
    Retraces P records (throw cause) silent := by
  intro s log
  rw [stops]
  exact .untold due none s

theorem retraces_abort {cause : ε} {r : LogRecord} {silent : StateT σ (Except ε) α}
    (stops : ∀ s, silent s = .error cause) (due : P cause) (one : records cause = #[r]) :
    Retraces P records (Recording.abort r cause) silent := by
  intro s log
  rw [stops]
  exact .told due one s

theorem retraces_draw {cause : ε} {r : LogRecord} (due : P cause) (one : records cause = #[r]) :
    Retraces P records (Recording.draw r cause) (Budgeted.spend cause) := by
  intro n log
  cases n with
  | zero => exact retraces_abort (fun _ => rfl) due one 0 log
  | succ n => exact .done () n

/-- What is reported of a walk is what the silent one gives, with the records of the cause. -/
theorem Retraces.report_eq {walk : Recording ε σ α} {silent : StateT σ (Except ε) α}
    (retraces : Retraces P records walk silent) (fault : ε → Fault) (start : σ) :
    walk.report fault start = match silent start with
      | .ok (a, _) => .quiet (.ok a)
      | .error cause => ⟨.error (fault cause), records cause⟩ := by
  have ends := retraces start #[]
  show Report.mk ((walk ⟨start, #[]⟩).1.mapError fault) (walk ⟨start, #[]⟩).2.log = _
  generalize silent start = ended, walk ⟨start, #[]⟩ = ended' at ends
  cases ends with
  | done a rest => rfl
  | stopped due rest =>
    rw [Array.empty_append]
    rfl

/-- A silent walk stops for such causes only. -/
theorem Retraces.stopsFor {walk : Recording ε σ α} {silent : StateT σ (Except ε) α}
    (retraces : Retraces P records walk silent) : StopsFor P silent := by
  intro s cause hrun
  have ends := retraces s #[]
  rw [hrun] at ends
  generalize walk ⟨s, #[]⟩ = ended at ends
  cases ends with
  | stopped due rest => exact due

end

/-! ### Copies -/

/-- A walk that stops for its depth stops at the limit of nesting. -/
def Cutoff.Regular (limit : Nat) : Cutoff → Prop
  | .depth reached => reached = limit
  | .budget => True

namespace Heap

/-- What a copy that stops puts on record. -/
def cloneRecord (limits : Limits) : Cutoff → LogRecord
  | .depth reached => .abortedAt .clone reached
  | .budget => .abortedAfter .clone limits.maxCloneLength

theorem retraces_spineAt (h : Heap) (limits : Limits) {limit room depth : Nat}
    (hd : depth + room = limit) (r : SeqRef) :
    Retraces (Cutoff.Regular limit) (fun cause => #[cloneRecord limits cause])
      (h.walkSpine limits room depth r) (h.spineAt room depth r) := by
  induction room generalizing depth r with
  | zero => exact retraces_abort (fun _ => rfl) hd rfl
  | succ room ih =>
    rw [walkSpine, spineAt]
    have drawn : Retraces (Cutoff.Regular limit) (fun cause => #[cloneRecord limits cause])
        (Recording.draw (.abortedAfter .clone limits.maxCloneLength) .budget)
        (Budgeted.spend .budget) := retraces_draw trivial rfl
    refine .mapM (fun x => drawn.bind fun _ => ?_) _
    -- Only a struct is walked into.
    match x with
    | .seq ⟨.struct, slot⟩ =>
      exact (ih (by omega) ⟨.struct, slot⟩).bind fun _ => retraces_pure _
    | .prim _ | .host _ | .map _ | .seq ⟨.array, _⟩ => exact retraces_pure _

/-- A copy is new storage for the spine of the struct. -/
theorem cloneStruct_eq (h : Heap) (limits : Limits) (r : SeqRef) :
    h.cloneStruct limits r
      = match h.spineAt limits.maxStructDepth.toNat 0 r limits.maxCloneLength.toNat with
        | .ok (children, _) => .quiet (.ok (Spine.build (.struct children) h))
        | .error cause => ⟨.error (cloneFault limits cause), #[cloneRecord limits cause]⟩ := by
  rw [cloneStruct, (retraces_spineAt h limits (Nat.zero_add _) r).report_eq]
  cases h.spineAt limits.maxStructDepth.toNat 0 r limits.maxCloneLength.toNat with
  | ok done => rfl
  | error cause => rfl

end Heap

/-! ### Walks to and from storage -/

/-- A walk that may meet faults stops like one that meets none, or for a fault that comes from
no limit. -/
def Halt.Regular (limit : Nat) : Halt → Prop
  | .cutoff cause => cause.Regular limit
  | .fault cause => cause.isLimit = false

/-- What a walk to or from storage that stops puts on record. -/
def storageLog : Halt → Array LogRecord
  | .cutoff (.depth reached) => #[.abortedAt .serialization reached]
  | _ => #[]

/-- The report of a walk to or from storage. -/
def storageReport {α : Type} (limits : Limits) : Except Halt α → Report α
  | .ok a => .quiet (.ok a)
  | .error halt => ⟨.error (storageFault limits halt), storageLog halt⟩

section

variable {σ α : Type} {limit depth : Nat}

theorem Halt.Silent.regular {cause : Halt} (silent : cause.Silent) :
    cause.Regular limit ∧ storageLog cause = #[] := by
  match cause with
  | .cutoff (.depth reached) => exact silent.elim
  | .cutoff .budget => exact ⟨trivial, rfl⟩
  | .fault wrong => exact ⟨silent, rfl⟩

/-- A walk to or from storage takes over the steps that have nothing to say. -/
theorem retraces_step {step : StateT σ (Except Halt) α} (stops : StopsFor Halt.Silent step) :
    Retraces (Halt.Regular limit) storageLog (Recording.silently step) step :=
  retraces_silently stops fun _ silent => silent.regular

theorem retraces_tooDeep {silent : StateT σ (Except Halt) α}
    (stops : ∀ s, silent s = .error (.cutoff (.depth depth))) (hd : depth = limit) :
    Retraces (Halt.Regular limit) storageLog (tooDeep depth) silent :=
  retraces_abort stops hd rfl

/-- A fault that comes from no limit is none of the walk's own. -/
theorem retraces_fault {fault : Fault} {silent : StateT σ (Except Halt) α}
    (stops : ∀ s, silent s = .error (.fault fault)) (h : fault.isLimit = false) :
    Retraces (Halt.Regular limit) storageLog (throw (.fault fault)) silent :=
  retraces_throw stops h rfl

end

namespace Heap

theorem retraces_treeAt (h : Heap) (limits : Limits) {limit room depth : Nat}
    (hd : depth + room = limit) (x : Item) :
    Retraces (Halt.Regular limit) storageLog (h.walkTree limits room depth x)
      (h.treeAt limits room depth x) := by
  have spent : Retraces (Halt.Regular limit) storageLog
      (Recording.silently (Budgeted.spend (Halt.cutoff .budget)))
      (Budgeted.spend (.cutoff .budget)) := retraces_step (stopsFor_spend trivial)
  -- A key costs what a primitive costs, and neither needs room.
  have primitive : ∀ p, Retraces (Halt.Regular limit) storageLog
      (Recording.silently (visitPrimitive limits p)) (visitPrimitive limits p) :=
    fun p => retraces_step (silent_visitPrimitive limits p)
  induction room generalizing depth x with
  | zero =>
    rw [walkTree.eq_def, treeAt.eq_def]
    cases x with
    | prim p => exact (primitive p).bind fun _ => retraces_pure _
    | host r => exact spent.bind fun _ => retraces_fault (fun _ => rfl) rfl
    | seq r => exact spent.bind fun _ => retraces_tooDeep (fun _ => rfl) hd
    | map r => exact spent.bind fun _ => retraces_tooDeep (fun _ => rfl) hd
  | succ room ih =>
    have inner : ∀ y, Retraces (Halt.Regular limit) storageLog
        (h.walkTree limits room (depth + 1) y) (h.treeAt limits room (depth + 1) y) :=
      ih (by omega)
    rw [walkTree.eq_def, treeAt.eq_def]
    cases x with
    | prim p => exact (primitive p).bind fun _ => retraces_pure _
    | host r => exact spent.bind fun _ => retraces_fault (fun _ => rfl) rfl
    | seq r =>
      exact spent.bind fun _ => (Retraces.mapM inner _).bind fun _ => retraces_pure _
    | map r =>
      refine spent.bind fun _ => (Retraces.mapM (fun entry => ?_) _).bind fun _ => retraces_pure _
      exact (primitive entry.1).bind fun _ => (inner entry.2).bind fun _ => retraces_pure _

/-- What is stored is the encoding of the tree. -/
theorem serialize_eq (h : Heap) (limits : Limits) (x : Item) :
    h.serialize limits x = storageReport limits ((h.tree limits x).map Tree.encode) := by
  have retraces := retraces_treeAt h limits (Nat.zero_add limits.maxStructDepth.toNat) x
  rw [serialize, retraces.report_eq, tree, Budgeted.runFrom]
  cases h.treeAt limits limits.maxStructDepth.toNat 0 x limits.maxItems.toNat with
  | ok done =>
    simp only [Report.map, Report.quiet, Except.map, storageReport, Tree.toList_write]
    rfl
  | error halt => rfl

end Heap

/-! ### Reading -/

section

variable {limit depth room : Nat}

theorem Retraces.times {α : Type} {walk : Recording Halt Cursor α} {read : Reader α}
    (each : Retraces (Halt.Regular limit) storageLog walk read) (n : Nat) (done : List α) :
    Retraces (Halt.Regular limit) storageLog (Reader.times walk n done)
      (Reader.times read n done) := by
  induction n generalizing done with
  | zero => exact retraces_pure _
  | succ n ih => exact each.bind fun a => ih (a :: done)

variable {item : Recording Halt Cursor Tree} {read : Reader Tree}

theorem Retraces.walkEntries (each : Retraces (Halt.Regular limit) storageLog item read) (n : Nat)
    (done : List (Primitive × Tree)) :
    Retraces (Halt.Regular limit) storageLog (Tree.walkEntries item n done)
      (Reader.entries read n done) := by
  induction n generalizing done with
  | zero => exact retraces_pure _
  | succ n ih =>
    refine each.bind fun key => (retraces_step (Reader.silent_asKey key)).bind fun k => ?_
    refine each.bind fun t => ?_
    by_cases repeated : done.any (·.1 == k) = true
    · rw [if_pos repeated, if_pos repeated]
      exact retraces_fault (fun _ => rfl) rfl
    · rw [if_neg repeated, if_neg repeated]
      exact ih ((k, t) :: done)

theorem Retraces.walkSeq (each : Retraces (Halt.Regular limit) storageLog item read)
    (limits : Limits) (kind : SeqKind) :
    Retraces (Halt.Regular limit) storageLog (Tree.walkSeq limits kind item)
      (Tree.readSeq limits kind read) :=
  (retraces_step (Reader.silent_count limits 1)).bind fun n =>
    (each.times n []).bind fun _ => retraces_pure _

theorem Retraces.walkMap (each : Retraces (Halt.Regular limit) storageLog item read)
    (limits : Limits) :
    Retraces (Halt.Regular limit) storageLog (Tree.walkMap limits item)
      (Tree.readMap limits read) :=
  (retraces_step (Reader.silent_count limits 2)).bind fun n =>
    (each.walkEntries n []).bind fun _ => retraces_pure _

/-- What reads the contents of a container at a depth follows what reads them without records;
at the limit of nesting there is neither. -/
inductive RetracesWithin (limit depth : Nat) :
    Option (Recording Halt Cursor Tree) → Option (Reader Tree) → Prop where
  | none (hd : depth = limit) : RetracesWithin limit depth none none
  | some {item : Recording Halt Cursor Tree} {read : Reader Tree}
      (each : Retraces (Halt.Regular limit) storageLog item read) :
      RetracesWithin limit depth (some item) (some read)

/-- A container is at the limit of nesting, or its contents are read. -/
theorem retraces_nested {inner : Option (Recording Halt Cursor Tree)}
    {silent : Option (Reader Tree)} {walk : Recording Halt Cursor Tree → Recording Halt Cursor Tree}
    {body : Reader Tree → Reader Tree}
    (contents : ∀ {item read}, Retraces (Halt.Regular limit) storageLog item read →
      Retraces (Halt.Regular limit) storageLog (walk item) (body read)) :
    RetracesWithin limit depth inner silent →
      Retraces (Halt.Regular limit) storageLog
        (match inner with
          | none => tooDeep depth
          | some inner => walk inner)
        (match silent with
          | none => Reader.stop (.depth depth)
          | some inner => body inner)
  | .none hd => retraces_tooDeep (fun _ => rfl) hd
  | .some each => contents each

theorem RetracesWithin.walkWith {inner : Option (Recording Halt Cursor Tree)}
    {silent : Option (Reader Tree)} (within : RetracesWithin limit depth inner silent)
    (limits : Limits) :
    Retraces (Halt.Regular limit) storageLog (Tree.walkWith limits depth inner)
      (Tree.readWith limits depth silent) := by
  refine (retraces_step Reader.silent_spend).bind fun _ => ?_
  refine (retraces_step (Reader.silent_front _)).bind fun tag => ?_
  cases Kind.ofTag? tag with
  | none => exact retraces_fault (fun _ => rfl) rfl
  | some kind =>
    cases kind with
    | boolean => exact (retraces_step Tree.silent_readBoolean).bind fun _ => retraces_pure _
    | integer => exact (retraces_step Tree.silent_readInteger).bind fun _ => retraces_pure _
    | bytes => exact (retraces_step (Reader.silent_sized _)).bind fun _ => retraces_pure _
    | interop => exact retraces_fault (fun _ => rfl) rfl
    | array => exact retraces_nested (fun each => each.walkSeq limits .array) within
    | struct => exact retraces_nested (fun each => each.walkSeq limits .struct) within
    | map => exact retraces_nested (fun each => each.walkMap limits) within

theorem retraces_readAt (limits : Limits) (hd : depth + room = limit) :
    Retraces (Halt.Regular limit) storageLog (Tree.walkAt limits room depth)
      (Tree.readAt limits room depth) := by
  induction room generalizing depth with
  | zero => exact (RetracesWithin.none hd).walkWith limits
  | succ room ih => exact (RetracesWithin.some (ih (by omega))).walkWith limits

end

namespace Heap

/-- What is read is new storage for the tree that is decoded. -/
theorem deserialize_eq (h : Heap) (limits : Limits) (input : List UInt8) :
    h.deserialize limits input
      = storageReport limits ((Tree.decode limits input).map fun t => t.build h) := by
  have retraces : Retraces (Halt.Regular limits.maxStructDepth.toNat) storageLog
      (Tree.walkWhole limits) (do
        let t ← Tree.readAt limits limits.maxStructDepth.toNat 0
        Reader.ended
        return t) :=
    (retraces_readAt limits (Nat.zero_add _)).bind fun t =>
      (retraces_step Reader.silent_ended).bind fun _ => retraces_pure t
  rw [deserialize, retraces.report_eq, bind_apply, Tree.decode]
  cases Tree.readAt limits limits.maxStructDepth.toNat 0 ⟨input, limits.maxItems.toNat⟩ with
  | error halt => rfl
  | ok done =>
    obtain ⟨t, rest⟩ := done
    dsimp only
    rw [bind_apply, Reader.ended]
    by_cases empty : rest.input.isEmpty
    · rw [if_pos empty, if_pos empty]
      rfl
    · rw [if_neg empty, if_neg empty]
      rfl

end Heap

end StackItems
