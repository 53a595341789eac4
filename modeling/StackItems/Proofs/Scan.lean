/-
Reading by position.

The reader of trees takes its input off the front of a list.  A machine leaves the data where
they are: it keeps a position, cuts slices out of the data, calculates in machine words, and
sets storage aside for what a count announces before it has seen any of it.

* `Scan`, `scanAt` — reading by position; a number that is no machine word and a slice that does
  not lie in the data are a crash, and everything that is done is noted down;
* `Beside` — a run by position and a run of the reader that come to the same end, the first
  without a crash and with nothing but sound deeds;
* `follows_scanAt` — reading trees by position goes beside the reader of trees.

Design notes: a run that stops keeps its stand, so what it has done until then can be asked
for.  `scanWith` follows `readWith` line by line.
-/
import StackItems.Proofs.Readers

namespace StackItems

/-! ### What a machine does -/

/-- Something that a scan does, besides calculating. -/
inductive Deed where
  /-- It takes the bytes from one position up to another. -/
  | slice (start stop : Nat)
  /-- It goes from one position to another. -/
  | move (source target : Nat)
  /-- With so much left of the budget, it sets storage aside for so many things, each of which
  takes `share` items of the budget. -/
  | reserve (count share budget : Nat)

/-- Slices lie in data of the given size, no move goes back or beyond the data, and storage is
set aside only for what the budget can still pay for. -/
def Deed.Sound (size : Nat) : Deed → Prop
  | slice start stop => start ≤ stop ∧ stop ≤ size
  | move source target => source ≤ target ∧ target ≤ size
  | reserve count share budget => count ≤ budget / share

/-- Where a scan stands, and what it has done so far. -/
structure Stand where
  position : Nat
  budget : Nat
  deeds : List Deed := []

/-- What a stand leaves to read. -/
def Stand.cursor (data : List UInt8) (m : Stand) : Cursor := ⟨data.drop m.position, m.budget⟩

/-- Why a scan ends before it has read what it was to read. -/
inductive Abort where
  | halt (cause : Halt)
  /-- A number is no machine word, or a slice does not lie in the data. -/
  | crash

/-- A computation that reads by position; it keeps its stand even if it ends early. -/
abbrev Scan := ExceptT Abort (StateM Stand)

namespace Scan

variable {α : Type} (data : List UInt8) (limits : Limits)

/-- Stops as a reader does. -/
def stop (cause : Halt) : Scan α := throw (.halt cause)

/-- Refuses malformed data. -/
def refuse (cause : FormatFault) : Scan α := stop (.fault (.format cause))

/-- Notes a deed down. -/
def note (deed : Deed) : Scan Unit := modify fun m => { m with deeds := m.deeds ++ [deed] }

/-- The result of a calculation as a machine word. -/
def word (n : Int) : Scan Nat :=
  if 0 ≤ n ∧ n < UInt64.size then return n.toNat else throw .crash

/-- The bytes between two positions. -/
def slice (start stop : Nat) : Scan (List UInt8) := do
  note (.slice start stop)
  if start ≤ stop ∧ stop ≤ data.length then return (data.drop start).take (stop - start)
  else throw .crash

/-- Goes to a position. -/
def moveTo (target : Nat) : Scan Unit := do
  note (.move (← get).position target)
  modify fun m => { m with position := target }

/-- Draws one item from the budget. -/
def spend : Scan Unit := do
  match (← get).budget with
  | 0 => stop (.cutoff .budget)
  | n + 1 => modify fun m => { m with budget := n }

/-- Reads so many bytes. -/
def bytes (n : Nat) : Scan (List UInt8) := do
  let left ← word (data.length - (← get).position)
  if n > left then refuse .unexpectedEnd
  else
    let target ← word ((← get).position + n)
    let taken ← slice data (← get).position target
    moveTo target
    return taken

/-- Reads a single byte. -/
def byte : Scan UInt8 := do
  match ← bytes data 1 with
  | [] => throw .crash
  | b :: _ => return b

/-- A length that was read, if it is not larger than `max`. -/
def bounded (max : UInt64) (value : Nat) : Scan Nat :=
  if value ≤ max.toNat then return value else refuse (.lengthTooLarge value max)

/-- Reads a length of at most `max`. -/
def length (max : UInt64) : Scan Nat := do
  let marker ← byte data
  match VarInt.announced? marker with
  | none => bounded max marker.toNat
  | some (width, least) => do
    let payload ← bytes data width
    if valueLE payload < least then refuse .nonCanonicalLength
    else bounded max (valueLE payload)

/-- Reads a length and as many bytes. -/
def sized (max : UInt64) : Scan (List UInt8) := do
  let n ← length data max
  bytes data n

/-- Reads a count of things of which each takes `share` items of the budget, and sets storage
aside for them. -/
def count (share : Nat) : Scan Nat := do
  let n ← length data limits.maxItems
  let budget := (← get).budget
  if n > budget / share then stop (.cutoff .budget)
  else
    note (.reserve n share budget)
    return n

/-- Reads `n` things behind those already read, which are given last first. -/
def times (scan : Scan α) : Nat → List α → Scan (List α)
  | 0, done => return done.reverse
  | n + 1, done => do times scan n ((← scan) :: done)

/-- A tree as a key of a map. -/
def asKey : Tree → Scan Primitive
  | .prim p => return p
  | .seq kind _ => stop (.fault (.invalidKey kind.kind))
  | .map _ => stop (.fault (.invalidKey .map))

/-- Reads `n` entries behind those already read, which are given last first. -/
def entries (scan : Scan Tree) :
    Nat → List (Primitive × Tree) → Scan (List (Primitive × Tree))
  | 0, done => return done.reverse
  | n + 1, done => do
    let k ← asKey (← scan)
    let t ← scan
    if done.any (·.1 == k) then refuse .duplicateKey
    else entries scan n ((k, t) :: done)

/-! ### Trees by position -/

/-- Reads a truth value. -/
def scanBoolean : Scan Primitive := do
  let b ← byte data
  if b = 0 then return .boolean false
  else if b = 1 then return .boolean true
  else refuse (.invalidBoolean b)

/-- Reads an integer. -/
def scanInteger : Scan Primitive := do
  return .integer (TwosComplement.decode (← sized data (UInt64.ofNat maxIntegerSize)))

/-- Reads a count and so many elements. -/
def scanSeq (kind : SeqKind) (element : Scan Tree) : Scan Tree := do
  let n ← count data limits 1
  return .seq kind (← times element n [])

/-- Reads a count and so many entries. -/
def scanMap (item : Scan Tree) : Scan Tree := do
  let n ← count data limits 2
  return .map (← entries item n [])

/-- Reads a tree at a depth whose containers read their contents by `inner`; at the limit of
nesting there is no such computation. -/
def scanWith (depth : Nat) (inner : Option (Scan Tree)) : Scan Tree := do
  let nested (scan : Scan Tree → Scan Tree) : Scan Tree :=
    match inner with
    | none => stop (.cutoff (.depth depth))
    | some inner => scan inner
  spend
  let tag ← byte data
  match Kind.ofTag? tag with
  | none => refuse (.unknownTag tag)
  | some .boolean => return .prim (← scanBoolean data)
  | some .integer => return .prim (← scanInteger data)
  | some .bytes => return .prim (.bytes (← sized data limits.maxItemSize))
  | some .array => nested (scanSeq data limits .array)
  | some .struct => nested (scanSeq data limits .struct)
  | some .map => nested (scanMap data limits)
  | some .interop => stop (.fault (.unsupported .interop))

/-- Reads a tree at a depth, with room for so many levels of containers.  The depth of what a
container holds is calculated too. -/
def scanAt : (room depth : Nat) → Scan Tree
  | 0, depth => scanWith data limits depth none
  | room + 1, depth =>
    scanWith data limits depth (some do
      let inner ← word (depth + 1)
      scanAt room inner)

/-- Reads a tree at a depth.  Up to the limit of nesting there is room. -/
def tree (depth : Nat) : Scan Tree :=
  scanAt data limits (limits.maxStructDepth.toNat - depth) depth

end Scan

/-! ### Going beside the reader -/

/-- From one stand to another a scan has gone forward, within data of the given size, and all
that it has done was sound. -/
structure Moves (size : Nat) (m m' : Stand) : Prop where
  forward : m.position ≤ m'.position
  inside : m'.position ≤ size
  deeds : ∃ new, m'.deeds = m.deeds ++ new ∧ ∀ deed ∈ new, deed.Sound size

/-- A run of a reader, and a run by position from a stand: both stop for one cause, or both give
the same and leave the same to read. -/
inductive Beside {α : Type} (data : List UInt8) (m : Stand) :
    Except Halt (α × Cursor) → Except Abort α × Stand → Prop where
  | stopped (halt : Halt) {s : Stand} (moves : Moves data.length m s) :
      Beside data m (.error halt) (.error (.halt halt), s)
  | done (a : α) {s : Stand} (moves : Moves data.length m s) :
      Beside data m (.ok (a, s.cursor data)) (.ok a, s)

/-- From every stand in the data, the scan goes beside the reader. -/
def Follows {α : Type} (data : List UInt8) (scan : Scan α) (read : Reader α) : Prop :=
  ∀ m : Stand, m.position ≤ data.length → Beside data m (read (m.cursor data)) (scan m)

section

variable {α β : Type} {data : List UInt8} {m m' : Stand}

theorem Moves.refl {size : Nat} (h : m.position ≤ size) : Moves size m m :=
  ⟨Nat.le_refl _, h, [], by simp, by simp⟩

theorem Moves.trans {size : Nat} {m'' : Stand} (a : Moves size m m') (b : Moves size m' m'') :
    Moves size m m'' := by
  obtain ⟨new, hnew, sound⟩ := a.deeds
  obtain ⟨new', hnew', sound'⟩ := b.deeds
  refine ⟨Nat.le_trans a.forward b.forward, b.inside, new ++ new', ?_, ?_⟩
  · rw [hnew', hnew, List.append_assoc]
  · intro deed hd
    rcases List.mem_append.1 hd with hd | hd
    · exact sound deed hd
    · exact sound' deed hd

theorem Follows.bind {scan : Scan α} {read : Reader α} {next : α → Scan β}
    {next' : α → Reader β} (first : Follows data scan read)
    (others : ∀ a, Follows data (next a) (next' a)) :
    Follows data (scan >>= next) (read >>= next') := by
  intro m hm
  have hfirst := first m hm
  rw [bind_apply, exceptT_bind_apply]
  generalize read (m.cursor data) = run, scan m = run' at hfirst
  cases hfirst with
  | stopped halt moves => exact .stopped halt moves
  | @done a m' moves =>
    have rest := others a m' moves.inside
    show Beside data m (next' a (m'.cursor data)) (next a m')
    generalize next' a (m'.cursor data) = run, next a m' = run' at rest
    cases rest with
    | stopped halt moves' => exact .stopped halt (moves.trans moves')
    | done b moves' => exact .done b (moves.trans moves')

theorem scan_get_bind {next : Stand → Scan β} : ((get : Scan Stand) >>= next) m = next m m := rfl

theorem follows_pure (a : α) : Follows data (pure a) (pure a) :=
  fun _ hm => .done a (.refl hm)

theorem follows_stop (cause : Halt) :
    Follows data (Scan.stop cause : Scan α) (fun _ => .error cause) :=
  fun _ hm => .stopped cause (.refl hm)

/-! ### The small steps -/

theorem word_of_lt {n : Nat} (h : n < UInt64.size) : Scan.word n = pure n := by
  rw [Scan.word, if_pos ⟨Int.natCast_nonneg n, Int.ofNat_lt.2 h⟩, Int.toNat_natCast]

theorem follows_spend : Follows data Scan.spend Reader.spend := by
  rintro ⟨position, budget, deeds⟩ hm
  cases budget with
  | zero => exact .stopped _ (.refl hm)
  | succ n => exact .done (s := ⟨position, n, deeds⟩) () ⟨Nat.le_refl _, hm, [], by simp, by simp⟩

/-- The stand behind so many bytes that were taken. -/
def Stand.behind (m : Stand) (n : Nat) : Stand where
  position := m.position + n
  budget := m.budget
  deeds := m.deeds ++ [.slice m.position (m.position + n)] ++ [.move m.position (m.position + n)]

theorem Moves.behind {size n : Nat} (h : m.position + n ≤ size) : Moves size m (m.behind n) := by
  refine ⟨Nat.le_add_right .., h, _, List.append_assoc .., ?_⟩
  intro deed hd
  rcases List.mem_append.1 hd with hd | hd
  · obtain rfl := List.mem_singleton.1 hd
    exact ⟨Nat.le_add_right .., h⟩
  · obtain rfl := List.mem_singleton.1 hd
    exact ⟨Nat.le_add_right .., h⟩

/-- Bytes that are there are cut out of the data, and the position moves behind them. -/
theorem bytes_eq (size : data.length < UInt64.size) (hm : m.position ≤ data.length) (n : Nat) :
    Scan.bytes data n m =
      if n ≤ data.length - m.position then (.ok ((data.drop m.position).take n), m.behind n)
      else (.error (.halt (.fault (.format .unexpectedEnd))), m) := by
  have hleft : (data.length - m.position : Int) = (data.length - m.position : Nat) := by omega
  rw [Scan.bytes, scan_get_bind, hleft, word_of_lt (by omega), pure_bind]
  split
  · next hn =>
    rw [if_neg (Nat.not_le.2 hn)]
    rfl
  · next hn =>
    have htarget : (m.position + n : Int) = (m.position + n : Nat) := by omega
    rw [if_pos (Nat.not_lt.1 hn), scan_get_bind, htarget, word_of_lt (by omega), pure_bind,
      scan_get_bind, Scan.slice]
    rw [if_pos ⟨Nat.le_add_right .., by omega⟩, Nat.add_sub_cancel_left]
    rfl

theorem takeBytes_drop (data : List UInt8) (p n : Nat) :
    takeBytes n (data.drop p) =
      if n ≤ data.length - p then .ok ((data.drop p).take n, data.drop (p + n))
      else .error .unexpectedEnd := by
  simp only [takeBytes, List.splitAt_eq, List.length_take, List.length_drop, List.drop_drop,
    inf_eq_left]

theorem follows_bytes (size : data.length < UInt64.size) (n : Nat) :
    Follows data (Scan.bytes data n) (Reader.front (takeBytes n)) := by
  intro m hm
  rw [bytes_eq size hm, Reader.front, Stand.cursor, takeBytes_drop]
  by_cases hn : n ≤ data.length - m.position
  · simp only [if_pos hn]
    exact .done _ (.behind (by omega))
  · simp only [if_neg hn]
    exact .stopped _ (.refl hm)

theorem follows_byte (size : data.length < UInt64.size) :
    Follows data (Scan.byte data) Reader.byte := by
  intro m hm
  rw [Scan.byte, exceptT_bind_apply, bytes_eq size hm, Reader.byte, Reader.front, Stand.cursor]
  by_cases hn : m.position < data.length
  · rw [if_pos (by omega), List.drop_eq_getElem_cons hn]
    exact .done _ (.behind (n := 1) hn)
  · rw [if_neg (by omega), List.drop_of_length_le (Nat.not_lt.1 hn)]
    exact .stopped _ (.refl hm)

theorem follows_bounded (max : UInt64) (value : Nat) :
    Follows data (Scan.bounded max value)
      (Reader.front fun input => VarInt.bounded max value input) := by
  intro m hm
  rw [Scan.bounded, Reader.front, VarInt.bounded]
  by_cases h : value ≤ max.toNat
  · simp only [if_pos h]
    exact .done _ (.refl hm)
  · simp only [if_neg h]
    exact .stopped _ (.refl hm)

/-- A length is a marker and, if the marker says so, a payload. -/
theorem front_decode_eq (max : UInt64) :
    Reader.front (VarInt.decode max) = (do
      let marker ← Reader.byte
      match VarInt.announced? marker with
      | none => Reader.front fun input => VarInt.bounded max marker.toNat input
      | some (width, least) => do
        let payload ← Reader.front (takeBytes width)
        if valueLE payload < least then Reader.fail (.format .nonCanonicalLength)
        else Reader.front fun input => VarInt.bounded max (valueLE payload) input) := by
  funext c
  obtain ⟨input, budget⟩ := c
  cases input with
  | nil => rfl
  | cons marker input =>
    have hbyte : Reader.byte ⟨marker :: input, budget⟩ = .ok (marker, ⟨input, budget⟩) := rfl
    rw [bind_of_ok hbyte, Reader.front]
    simp only [VarInt.decode]
    cases VarInt.announced? marker with
    | none => rfl
    | some announced =>
      obtain ⟨width, least⟩ := announced
      dsimp only
      rw [bind_apply, Reader.front]
      cases takeBytes width input with
      | error cause => rfl
      | ok taken =>
        obtain ⟨payload, rest⟩ := taken
        dsimp only
        by_cases h : valueLE payload < least
        · rw [if_pos h, if_pos h]
          rfl
        · rw [if_neg h, if_neg h]
          rfl

theorem follows_length (size : data.length < UInt64.size) (max : UInt64) :
    Follows data (Scan.length data max) (Reader.front (VarInt.decode max)) := by
  rw [front_decode_eq, Scan.length]
  refine (follows_byte size).bind fun marker => ?_
  cases VarInt.announced? marker with
  | none => exact follows_bounded max marker.toNat
  | some announced =>
    refine (follows_bytes size announced.1).bind fun payload => ?_
    split
    · exact follows_stop _
    · exact follows_bounded max (valueLE payload)

theorem follows_sized (size : data.length < UInt64.size) (max : UInt64) :
    Follows data (Scan.sized data max) (Reader.sized max) :=
  (follows_length size max).bind fun n => follows_bytes size n

/-- What storage is set aside for has just been compared with the budget. -/
theorem follows_count (size : data.length < UInt64.size) (limits : Limits) (share : Nat) :
    Follows data (Scan.count data limits share) (Reader.count limits share) := by
  refine (follows_length size limits.maxItems).bind fun n m hm => ?_
  rw [get_bind_eq, scan_get_bind, Stand.cursor]
  split
  · exact .stopped _ (.refl hm)
  · next hn =>
    refine .done (s := { m with deeds := m.deeds ++ [.reserve n share m.budget] }) n
      ⟨Nat.le_refl _, hm, _, rfl, ?_⟩
    intro deed hd
    obtain rfl := List.mem_singleton.1 hd
    exact Nat.not_lt.1 hn

theorem follows_asKey (t : Tree) : Follows data (Scan.asKey t) (Reader.asKey t) := by
  cases t with
  | prim p => exact follows_pure p
  | seq kind children => exact follows_stop _
  | map entries => exact follows_stop _

theorem Follows.times {scan : Scan α} {read : Reader α} (each : Follows data scan read) (n : Nat)
    (done : List α) : Follows data (Scan.times scan n done) (Reader.times read n done) := by
  induction n generalizing done with
  | zero => exact follows_pure _
  | succ n ih => exact each.bind fun a => ih (a :: done)

theorem Follows.entries {scan : Scan Tree} {read : Reader Tree} (each : Follows data scan read)
    (n : Nat) (done : List (Primitive × Tree)) :
    Follows data (Scan.entries scan n done) (Reader.entries read n done) := by
  induction n generalizing done with
  | zero => exact follows_pure _
  | succ n ih =>
    refine each.bind fun key => (follows_asKey key).bind fun k => each.bind fun t => ?_
    split
    · exact follows_stop _
    · exact ih ((k, t) :: done)

/-! ### Trees -/

theorem follows_scanBoolean (size : data.length < UInt64.size) :
    Follows data (Scan.scanBoolean data) Tree.readBoolean := by
  refine (follows_byte size).bind fun b => ?_
  split
  · exact follows_pure _
  · split
    · exact follows_pure _
    · exact follows_stop _

theorem follows_scanInteger (size : data.length < UInt64.size) :
    Follows data (Scan.scanInteger data) Tree.readInteger :=
  (follows_sized size _).bind fun _ => follows_pure _

variable {scan : Scan Tree} {read : Reader Tree}

theorem Follows.scanSeq (size : data.length < UInt64.size) (each : Follows data scan read)
    (limits : Limits) (kind : SeqKind) :
    Follows data (Scan.scanSeq data limits kind scan) (Tree.readSeq limits kind read) :=
  (follows_count size limits 1).bind fun n => (each.times n []).bind fun _ => follows_pure _

theorem Follows.scanMap (size : data.length < UInt64.size) (each : Follows data scan read)
    (limits : Limits) : Follows data (Scan.scanMap data limits scan) (Tree.readMap limits read) :=
  (follows_count size limits 2).bind fun n => (each.entries n []).bind fun _ => follows_pure _

/-- At one depth, the scan goes beside the reader if what reads the contents does. -/
theorem follows_scanWith (size : data.length < UInt64.size) (limits : Limits) (depth : Nat)
    {inner : Option (Scan Tree)} {inner' : Option (Reader Tree)}
    (below : Option.Rel (Follows data) inner inner') :
    Follows data (Scan.scanWith data limits depth inner) (Tree.readWith limits depth inner') := by
  refine follows_spend.bind fun _ => (follows_byte size).bind fun tag => ?_
  cases Kind.ofTag? tag with
  | none => exact follows_stop _
  | some kind =>
    cases kind with
    | boolean => exact (follows_scanBoolean size).bind fun _ => follows_pure _
    | integer => exact (follows_scanInteger size).bind fun _ => follows_pure _
    | bytes => exact (follows_sized size limits.maxItemSize).bind fun _ => follows_pure _
    | interop => exact follows_stop _
    | array =>
      cases below with
      | none => exact follows_stop _
      | some each => exact each.scanSeq size limits .array
    | struct =>
      cases below with
      | none => exact follows_stop _
      | some each => exact each.scanSeq size limits .struct
    | map =>
      cases below with
      | none => exact follows_stop _
      | some each => exact each.scanMap size limits

/-- Above the limit of nesting the next depth is a machine word, because the limit is one. -/
theorem follows_scanAt (size : data.length < UInt64.size) (limits : Limits) {room depth : Nat}
    (h : room = limits.maxStructDepth.toNat - depth) :
    Follows data (Scan.scanAt data limits room depth) (Tree.readAt limits room depth) := by
  induction room generalizing depth with
  | zero => exact follows_scanWith size limits depth .none
  | succ room ih =>
    refine follows_scanWith size limits depth (.some ?_)
    have hlimit : limits.maxStructDepth.toNat < UInt64.size := limits.maxStructDepth.toNat_lt
    have hinner : ((depth : Int) + 1) = (depth + 1 : Nat) := by omega
    rw [hinner, word_of_lt (by omega), pure_bind]
    exact ih (by omega)

end

end StackItems
