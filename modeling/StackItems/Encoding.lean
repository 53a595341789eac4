/-
The stored form of trees.

A tag byte opens every item.  A truth value is one byte; an integer and a byte
string are a length and as many bytes; a sequence is a count and its elements; a
map is a count and, for every entry, the key and the value as items.

* `Tree.encode` — the bytes of a tree;
* `Tree.write` — the same bytes at the end of a buffer, for speed;
  `toList_write` says that the two agree;
* `Tree.walkWhole` — the walk that reads the tree whose bytes are given, within
  the limits.

Design notes: the limits decide whether a tree is written or read at all and
never how, so `encode` does not take them.
-/
import StackItems.Tree
import StackItems.VarInt

namespace StackItems

/-! ### Writing -/

/-- A length and as many bytes. -/
def encodeSized (bs : List UInt8) : List UInt8 := VarInt.encode bs.length ++ bs

/-- The stored form of a primitive. -/
def Primitive.encode (p : Primitive) : List UInt8 :=
  p.kind.tag :: match p with
    | .boolean _ => p.toBytes
    | .integer _ | .bytes _ => encodeSized p.toBytes

mutual

/-- The stored form of a tree. -/
def Tree.encode : Tree → List UInt8
  | .prim p => p.encode
  | .seq kind children =>
    kind.kind.tag :: (VarInt.encode children.length ++ Tree.encodeAll children)
  | .map entries => Kind.map.tag :: (VarInt.encode entries.length ++ Tree.encodeEntries entries)

/-- The stored forms of trees, one after the other. -/
def Tree.encodeAll : List Tree → List UInt8
  | [] => []
  | t :: rest => Tree.encode t ++ Tree.encodeAll rest

/-- The stored forms of entries, one after the other. -/
def Tree.encodeEntries : List (Primitive × Tree) → List UInt8
  | [] => []
  | (k, t) :: rest => k.encode ++ (Tree.encode t ++ Tree.encodeEntries rest)

end

mutual

/-- A buffer with the stored form of a tree behind it. -/
def Tree.write : Tree → Array UInt8 → Array UInt8
  | .prim p, out => out.appendList p.encode
  | .seq kind children, out =>
    Tree.writeAll children ((out.push kind.kind.tag).appendList (VarInt.encode children.length))
  | .map entries, out =>
    Tree.writeEntries entries
      ((out.push Kind.map.tag).appendList (VarInt.encode entries.length))

/-- A buffer with the stored forms of trees behind it. -/
def Tree.writeAll : List Tree → Array UInt8 → Array UInt8
  | [], out => out
  | t :: rest, out => Tree.writeAll rest (Tree.write t out)

/-- A buffer with the stored forms of entries behind it. -/
def Tree.writeEntries : List (Primitive × Tree) → Array UInt8 → Array UInt8
  | [], out => out
  | (k, t) :: rest, out => Tree.writeEntries rest (Tree.write t (out.appendList k.encode))

end

mutual

theorem Tree.toList_write (t : Tree) (out : Array UInt8) :
    (t.write out).toList = out.toList ++ t.encode := by
  cases t with
  | prim p => simp [Tree.write, Tree.encode]
  | seq kind children => simp [Tree.write, Tree.encode, Tree.toList_writeAll children]
  | map entries => simp [Tree.write, Tree.encode, Tree.toList_writeEntries entries]

theorem Tree.toList_writeAll (ts : List Tree) (out : Array UInt8) :
    (Tree.writeAll ts out).toList = out.toList ++ Tree.encodeAll ts := by
  cases ts with
  | nil => simp [Tree.writeAll, Tree.encodeAll]
  | cons t rest =>
    simp [Tree.writeAll, Tree.encodeAll, Tree.toList_writeAll rest, Tree.toList_write t]

theorem Tree.toList_writeEntries (es : List (Primitive × Tree)) (out : Array UInt8) :
    (Tree.writeEntries es out).toList = out.toList ++ Tree.encodeEntries es := by
  match es with
  | [] => simp [Tree.writeEntries, Tree.encodeEntries]
  | (k, t) :: rest =>
    simp [Tree.writeEntries, Tree.encodeEntries, Tree.toList_writeEntries rest,
      Tree.toList_write t]

end

/-! ### Reading -/

/-- What is left to read and what is left of the budget of items. -/
structure Cursor where
  input : List UInt8
  budget : Nat

/-- A computation that reads stored data and puts nothing on record. -/
abbrev Reader := StateT Cursor (Except Halt)

namespace Reader

variable {α : Type}

/-- Stops with a fault. -/
def fail (fault : Fault) : Reader α := fun _ => .error (.fault fault)

/-- Stops at a limit. -/
def stop (cause : Cutoff) : Reader α := fun _ => .error (.cutoff cause)

/-- Draws one item from the budget. -/
def spend : Reader Unit := fun c =>
  match c.budget with
  | 0 => .error (.cutoff .budget)
  | n + 1 => .ok ((), { c with budget := n })

/-- Reads from the front of the input. -/
def front (read : List UInt8 → Except FormatFault (α × List UInt8)) : Reader α := fun c =>
  match read c.input with
  | .ok (a, rest) => .ok (a, { c with input := rest })
  | .error cause => .error (.fault (.format cause))

/-- Reads a single byte. -/
def byte : Reader UInt8 := front fun
  | [] => .error .unexpectedEnd
  | b :: rest => .ok (b, rest)

/-- Reads a length and as many bytes. -/
def sized (max : UInt64) : Reader (List UInt8) := do
  let n ← front (VarInt.decode max)
  front (takeBytes n)

/-- Reads a count of things of which each takes `share` items of the budget. -/
def count (limits : Limits) (share : Nat) : Reader Nat := do
  let n ← front (VarInt.decode limits.maxItems)
  if n > (← get).budget / share then stop .budget else return n

/-- Reads `n` things behind those already read, which are given last first. -/
def times {m : Type → Type} [Monad m] (read : m α) : Nat → List α → m (List α)
  | 0, done => return done.reverse
  | n + 1, done => do times read n ((← read) :: done)

/-- A tree as a key of a map. -/
def asKey : Tree → Reader Primitive
  | .prim p => return p
  | .seq kind _ => fail (.invalidKey kind.kind)
  | .map _ => fail (.invalidKey .map)

/-- Makes sure that there is nothing left to read. -/
def ended : Reader Unit := fun c =>
  if c.input.isEmpty then .ok ((), c)
  else .error (.fault (.format (.trailingBytes c.input.length)))

end Reader

namespace Tree

/-- Reads a truth value. -/
def readBoolean : Reader Primitive := do
  let b ← Reader.byte
  if b = 0 then return .boolean false
  else if b = 1 then return .boolean true
  else Reader.fail (.format (.invalidBoolean b))

/-- Reads an integer; it may be longer than its shortest form. -/
def readInteger : Reader Primitive := do
  return .integer (TwosComplement.decode (← Reader.sized (UInt64.ofNat maxIntegerSize)))

/-- Reads a count and so many elements. -/
def walkSeq (limits : Limits) (kind : SeqKind) (element : Recording Halt Cursor Tree) :
    Recording Halt Cursor Tree := do
  let n ← Reader.count limits 1
  return .seq kind (← Reader.times element n [])

/-- Reads `n` entries behind those already read, which are given last first. -/
def walkEntries (item : Recording Halt Cursor Tree) :
    Nat → List (Primitive × Tree) → Recording Halt Cursor (List (Primitive × Tree))
  | 0, done => return done.reverse
  | n + 1, done => do
    let k ← Reader.asKey (← item)
    let t ← item
    if done.any (·.1 == k) then throw (.fault (.format .duplicateKey))
    else walkEntries item n ((k, t) :: done)

/-- Reads a count and so many entries. -/
def walkMap (limits : Limits) (item : Recording Halt Cursor Tree) :
    Recording Halt Cursor Tree := do
  let n ← Reader.count limits 2
  return .map (← walkEntries item n [])

/-- Reads a tree at a depth whose containers read their contents by `inner`; at
the limit of nesting there is no such walk. -/
def walkWith (limits : Limits) (depth : Nat) (inner : Option (Recording Halt Cursor Tree)) :
    Recording Halt Cursor Tree := do
  let nested (walk : Recording Halt Cursor Tree → Recording Halt Cursor Tree) :
      Recording Halt Cursor Tree :=
    match inner with
    | none => tooDeep depth
    | some inner => walk inner
  Reader.spend
  let tag ← Reader.byte
  match Kind.ofTag? tag with
  | none => throw (.fault (.format (.unknownTag tag)))
  | some .boolean => return .prim (← readBoolean)
  | some .integer => return .prim (← readInteger)
  | some .bytes => return .prim (.bytes (← Reader.sized limits.maxItemSize))
  | some .array => nested (walkSeq limits .array)
  | some .struct => nested (walkSeq limits .struct)
  | some .map => nested (walkMap limits)
  | some .interop => throw (.fault (.unsupported .interop))

/-- Reads a tree at a depth, with room for so many levels of containers. -/
def walkAt (limits : Limits) : (room depth : Nat) → Recording Halt Cursor Tree
  | 0, depth => walkWith limits depth none
  | room + 1, depth => walkWith limits depth (some (walkAt limits room (depth + 1)))

/-- Reads a tree whose stored form is all of the input. -/
def walkWhole (limits : Limits) : Recording Halt Cursor Tree := do
  let t ← walkAt limits limits.maxStructDepth.toNat 0
  Reader.ended
  return t

end Tree

end StackItems
