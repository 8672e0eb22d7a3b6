/-
**The hash function BLAKE3.**

Bytes are hashed into a digest of thirty-two bytes.  The input is cut into chunks of 1024 bytes and
each chunk into blocks of 64, which are compressed one after the other.  The chunks are the leaves
of a binary tree, paired level by level from the left; the last compression at its root gives the
digest.

What is said about keys elsewhere uses the hash as a function of bytes and nothing of what is in this
module.  Where digests have to tell bytes apart, it is asked that no two of the strings at hand have
one digest, or the two that have are named; any other function to digests would do in its place.

Main definitions:

* `PhotoPipeline.Blake3.compress` — the compression function;
* `PhotoPipeline.Blake3.Node` — a compression that has not been carried out yet;
* `PhotoPipeline.Blake3.hash` — the digest of a list of bytes.
-/

set_option relaxedAutoImplicit false
set_option autoImplicit false

namespace PhotoPipeline

/-- A digest. -/
abbrev Digest := Vector UInt8 32

namespace Blake3

/-! ### Compression -/

/-- The eight words that link one compression to the next. -/
abbrev Chain := Vector UInt32 8

/-- Sixteen words: a block of input, or the state of a compression. -/
abbrev Block := Vector UInt32 16

/-- The first chain. -/
def initial : Chain := #v[
  0x6A09E667, 0xBB67AE85, 0x3C6EF372, 0xA54FF53A, 0x510E527F, 0x9B05688C, 0x1F83D9AB, 0x5BE0CD19]

/-- Where each word of the next round's block comes from. -/
def order : Vector (Fin 16) 16 := #v[2, 6, 3, 10, 7, 0, 4, 13, 1, 11, 12, 5, 9, 14, 15, 8]

/-- A word turned to the right. -/
def rotate (x : UInt32) (n : UInt32) : UInt32 := (x >>> n) ||| (x <<< (32 - n))

/-- Mixes two words of input into four words of the state. -/
def mix (v : Block) (a b c d : Fin 16) (x y : UInt32) : Block :=
  let va := v[a] + v[b] + x
  let vd := rotate (v[d] ^^^ va) 16
  let vc := v[c] + vd
  let vb := rotate (v[b] ^^^ vc) 12
  let va := va + vb + y
  let vd := rotate (vd ^^^ va) 8
  let vc := vc + vd
  let vb := rotate (vb ^^^ vc) 7
  (((v.set a va).set b vb).set c vc).set d vd

/-- One round: the columns of the state, then its diagonals. -/
def round (v m : Block) : Block :=
  let v := mix v 0 4 8 12 m[0] m[1]
  let v := mix v 1 5 9 13 m[2] m[3]
  let v := mix v 2 6 10 14 m[4] m[5]
  let v := mix v 3 7 11 15 m[6] m[7]
  let v := mix v 0 5 10 15 m[8] m[9]
  let v := mix v 1 6 11 12 m[10] m[11]
  let v := mix v 2 7 8 13 m[12] m[13]
  mix v 3 4 9 14 m[14] m[15]

/-- The block of the next round. -/
def permute (m : Block) : Block := order.map fun i => m[i]

/-- The given number of rounds. -/
def rounds : Nat → Block → Block → Block
  | 0, v, _ => v
  | n + 1, v, m => rounds n (round v m) (permute m)

/-- The chain after a block. -/
def compress (chain : Chain) (block : Block) (counter : UInt64) (length flags : UInt32) : Chain :=
  let v : Block := #v[
    chain[0], chain[1], chain[2], chain[3], chain[4], chain[5], chain[6], chain[7],
    initial[0], initial[1], initial[2], initial[3],
    counter.toUInt32, (counter >>> 32).toUInt32, length, flags]
  let v := rounds 7 v block
  #v[v[0] ^^^ v[8], v[1] ^^^ v[9], v[2] ^^^ v[10], v[3] ^^^ v[11],
    v[4] ^^^ v[12], v[5] ^^^ v[13], v[6] ^^^ v[14], v[7] ^^^ v[15]]

/-! ### Cutting the input -/

/-- The input in pieces of the given size; only the last may be shorter, and there is always a
last one. -/
def pieces (size : Nat) (h : 0 < size) (bytes : List UInt8) : List (List UInt8) :=
  if _last : (bytes.drop size).isEmpty then [bytes]
  else bytes.take size :: pieces size h (bytes.drop size)
termination_by bytes.length
decreasing_by
  have : size < bytes.length := by
    simpa using _last
  simp only [List.length_drop]
  omega

/-- The words of a block, the least significant byte first; what is missing is zero. -/
def blockOf (bytes : List UInt8) : Block :=
  let a := bytes.toArray
  Vector.ofFn fun i : Fin 16 =>
    let byte (k : Nat) : UInt32 := (a.getD (4 * i.val + k) 0).toUInt32
    byte 0 ||| (byte 1 <<< 8) ||| (byte 2 <<< 16) ||| (byte 3 <<< 24)

/-! ### The tree -/

/-- Marks the first block of a chunk. -/
def chunkStart : UInt32 := 1

/-- Marks the last block of a chunk. -/
def chunkEnd : UInt32 := 2

/-- Marks a block made of two chains. -/
def parentFlag : UInt32 := 4

/-- Marks the last compression of all. -/
def rootFlag : UInt32 := 8

/-- A compression that has not been carried out yet: whether it is the last is not known. -/
structure Node where
  chain : Chain
  block : Block
  counter : UInt64
  length : UInt32
  flags : UInt32

namespace Node

/-- The chain of a node that is not the root. -/
def result (n : Node) : Chain := compress n.chain n.block n.counter n.length n.flags

/-- The chain of the root. -/
def root (n : Node) : Chain := compress n.chain n.block n.counter n.length (n.flags ||| rootFlag)

end Node

/-- The last block of a chunk, after the blocks before it have been compressed. -/
def chunkNode (counter : UInt64) (chain : Chain) (flags : UInt32) : List (List UInt8) → Node
  | [] => ⟨chain, blockOf [], counter, 0, flags ||| chunkEnd⟩
  | [last] => ⟨chain, blockOf last, counter, UInt32.ofNat last.length, flags ||| chunkEnd⟩
  | block :: rest =>
    chunkNode counter (compress chain (blockOf block) counter 64 flags) 0 rest

/-- The leaf of a chunk. -/
def leaf (counter : Nat) (chunk : List UInt8) : Node :=
  chunkNode (UInt64.ofNat counter) initial chunkStart (pieces 64 (by decide) chunk)

/-- The node above two others. -/
def parent (l r : Node) : Node :=
  ⟨initial, l.result ++ r.result, 0, 64, parentFlag⟩

/-- The level above a list of nodes; an odd one at the end is left alone. -/
def pairUp : List Node → List Node
  | l :: r :: rest => parent l r :: pairUp rest
  | rest => rest

/-- The node above all others, after at most the given number of levels. -/
def collapse : Nat → List Node → Node
  | _, [] => leaf 0 []
  | _, [n] => n
  | 0, n :: _ => n
  | fuel + 1, nodes => collapse fuel (pairUp nodes)

/-- The digest of a list of bytes. -/
def hash (bytes : List UInt8) : Digest :=
  let chunks := pieces 1024 (by decide) bytes
  let leaves := chunks.mapIdx leaf
  let chain := (collapse leaves.length leaves).root
  Vector.ofFn fun i : Fin 32 => (chain[i.val / 4] >>> UInt32.ofNat (8 * (i.val % 4))).toUInt8

end Blake3

end PhotoPipeline
