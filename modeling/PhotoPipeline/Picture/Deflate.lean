/-
**Deflated data.**

Deflated data is a row of blocks of bits, the least significant bit of a byte first.  A block
holds bytes as they are, or symbols in a prefix code; a symbol is a byte, the end of the block, or
the length of a stretch that is repeated from further back.  The prefix code of a block is fixed
or is given at its beginning, by the length of the code of every symbol.

Main definitions:

* `PhotoPipeline.PrefixCode` — a prefix code by the lengths of its words;
* `PhotoPipeline.inflate` — the bytes of deflated data;
* `PhotoPipeline.storedBlocks` — bytes as blocks that hold them as they are.
-/

set_option relaxedAutoImplicit false
set_option autoImplicit false

namespace PhotoPipeline

/-! ### Prefix codes -/

/-- A prefix code.  Words of one length are consecutive numbers in the order of their symbols,
and longer words follow shorter ones. -/
structure PrefixCode where
  /-- The number of words of each length. -/
  counts : Array Nat
  /-- The symbols in the order of their words. -/
  symbols : Array Nat

namespace PrefixCode

/-- The greatest length of a word. -/
def maxLength : Nat := 15

/-- The symbols whose words have a given length. -/
def symbolsOf (lengths : Array Nat) (length : Nat) : Array Nat :=
  (Array.range lengths.size).filter fun s => lengths.getD s 0 == length

/-- The prefix code of the lengths of the words of all symbols; length zero is no word. -/
def ofLengths (lengths : Array Nat) : PrefixCode where
  counts := (Array.range (maxLength + 1)).map fun n =>
    if n = 0 then 0 else (symbolsOf lengths n).size
  symbols := (Array.range maxLength).flatMap fun n => symbolsOf lengths (n + 1)

end PrefixCode

/-! ### Bits -/

/-- How far deflated data has been read, and the bytes that have come out. -/
structure Inflation where
  data : Array UInt8
  /-- The number of bits that have been read. -/
  position : Nat
  out : Array UInt8

/-- A step of reading deflated data. -/
abbrev Inflating (α : Type) := StateT Inflation Option α

namespace Inflating

/-- Reads a bit. -/
def bit : Inflating Nat := fun s =>
  match s.data[s.position / 8]? with
  | none => none
  | some b => some ((b.toNat >>> (s.position % 8)) % 2, { s with position := s.position + 1 })

/-- Reads a number of the given number of bits, the least significant first. -/
def bits : Nat → Inflating Nat
  | 0 => return 0
  | n + 1 => do
    let low ← bit
    return low + 2 * (← bits n)

/-- Goes on to the beginning of a byte. -/
def align : Inflating Unit := modify fun s => { s with position := (s.position + 7) / 8 * 8 }

/-- Puts a byte out. -/
def emit (b : UInt8) : Inflating Unit := modify fun s => { s with out := s.out.push b }

/-- Puts out again a byte from so far back. -/
def emitAgain (distance : Nat) : Inflating Unit := do
  let s ← get
  if distance ≤ s.out.size then
    match s.out[s.out.size - distance]? with
    | some b => emit b
    | none => failure
  else failure

/-- Puts out again a stretch from so far back. -/
def emitStretch (distance : Nat) : Nat → Inflating Unit
  | 0 => return ()
  | n + 1 => do
    -- one byte at a time, since a stretch may reach into what it puts out itself
    emitAgain distance
    emitStretch distance n

/-- Reads the rest of a word: its length so far is given, its number so far, the least number of
a word of that length, and the number of shorter words. -/
def wordFrom (code : PrefixCode) : Nat → Nat → Nat → Nat → Nat → Inflating Nat
  | 0, _, _, _, _ => failure
  | fuel + 1, length, number, first, before => do
    let number := 2 * number + (← bit)
    let first := 2 * first
    -- the words of one length are consecutive numbers
    let count := code.counts.getD (length + 1) 0
    if number < first + count then
      match code.symbols[before + (number - first)]? with
      | some s => return s
      | none => failure
    else wordFrom code fuel (length + 1) number (first + count) (before + count)

/-- Reads a word of a prefix code. -/
def symbol (code : PrefixCode) : Inflating Nat := wordFrom code PrefixCode.maxLength 0 0 0 0

/-! ### Blocks -/

/-- Puts out bytes as they are. -/
def copyBytes : Nat → Inflating Unit
  | 0 => return ()
  | n + 1 => do
    emit (UInt8.ofNat (← bits 8))
    copyBytes n

/-- Reads a block that holds bytes as they are. -/
def storedBlock : Inflating Unit := do
  align
  let size ← bits 16
  let check ← bits 16
  if size + check = 65535 then copyBytes size else failure

/-- The least value of a symbol and the number of bits that are added, for values that grow in
steps of doubling width. -/
def widening (group start : Nat) (k : Nat) : Nat × Nat :=
  if k < 2 * group then (start + k, 0)
  else
    let extra := k / group - 1
    (start + (group + k % group) <<< extra, extra)

/-- The length of a stretch. -/
def stretchLength (s : Nat) : Inflating Nat := do
  if s = 285 then return 258
  else if 285 < s then failure
  else
    let w := widening 4 3 (s - 257)
    return w.1 + (← bits w.2)

/-- How far back a stretch is. -/
def stretchDistance (s : Nat) : Inflating Nat := do
  if 29 < s then failure
  let w := widening 2 1 s
  return w.1 + (← bits w.2)

/-- Reads symbols up to the end of a block; the fuel bounds their number. -/
def codedBlock (letters distances : PrefixCode) : Nat → Inflating Unit
  | 0 => failure
  | fuel + 1 => do
    let s ← symbol letters
    if s = 256 then return ()
    if s < 256 then emit (UInt8.ofNat s)
    else
      let length ← stretchLength s
      let distance ← stretchDistance (← symbol distances)
      emitStretch distance length
    codedBlock letters distances fuel

/-- The fixed prefix code of bytes and lengths. -/
def fixedLetters : PrefixCode :=
  .ofLengths ((Array.range 288).map fun s =>
    if s < 144 then 8 else if s < 256 then 9 else if s < 280 then 7 else 8)

/-- The fixed prefix code of distances. -/
def fixedDistances : PrefixCode := .ofLengths (Array.replicate 30 5)

/-- The order in which the lengths of the words for lengths are given. -/
def lengthOrder : List Nat := [16, 17, 18, 0, 8, 7, 9, 6, 10, 5, 11, 4, 12, 3, 13, 2, 14, 1, 15]

/-- Reads the lengths of the words for lengths. -/
def lengthLengths : List Nat → Array Nat → Inflating (Array Nat)
  | [], acc => return acc
  | s :: rest, acc => do
    let length ← bits 3
    lengthLengths rest (acc.setIfInBounds s length)

/-- Reads lengths of words until there are enough; a symbol is a length or repeats one. -/
def wordLengths (code : PrefixCode) (enough : Nat) : Nat → Array Nat → Inflating (Array Nat)
  | 0, _ => failure
  | fuel + 1, acc => do
    if enough ≤ acc.size then return acc
    match ← symbol code with
    | 16 =>
      match acc.back? with
      | none => failure
      | some last => wordLengths code enough fuel (acc ++ Array.replicate (3 + (← bits 2)) last)
    | 17 => wordLengths code enough fuel (acc ++ Array.replicate (3 + (← bits 3)) 0)
    | 18 => wordLengths code enough fuel (acc ++ Array.replicate (11 + (← bits 7)) 0)
    | length => wordLengths code enough fuel (acc.push length)

/-- Reads the prefix codes of a block. -/
def codes : Inflating (PrefixCode × PrefixCode) := do
  let letters := 257 + (← bits 5)
  let distances := 1 + (← bits 5)
  let given := 4 + (← bits 4)
  let lengths ← lengthLengths (lengthOrder.take given) (Array.replicate 19 0)
  let total := letters + distances
  let all ← wordLengths (.ofLengths lengths) total (total + 1) #[]
  if all.size ≠ total then failure
  return (.ofLengths (all.take letters), .ofLengths (all.drop letters))

/-- Reads a block; tells whether it is the last one. -/
def block (fuel : Nat) : Inflating Bool := do
  let last ← bit
  match ← bits 2 with
  | 0 => storedBlock
  | 1 => codedBlock fixedLetters fixedDistances fuel
  | 2 => do
    let (letters, distances) ← codes
    codedBlock letters distances fuel
  | _ => failure
  return last = 1

/-- Reads blocks up to the last one. -/
def blocks (fuel : Nat) : Nat → Inflating Unit
  | 0 => failure
  | n + 1 => do
    if ← block fuel then return ()
    blocks fuel n

end Inflating

/-- The bytes of deflated data.  Each block and each symbol takes a bit at least. -/
def inflate (data : Array UInt8) : Option (Array UInt8) :=
  let fuel := 8 * data.size + 1
  match Inflating.blocks fuel fuel ⟨data, 0, #[]⟩ with
  | some (_, s) => some s.out
  | none => none

/-! ### Storing -/

/-- The number of bytes that one block can hold as they are. -/
def blockLimit : Nat := 65535

/-- A block that holds bytes as they are. -/
def storedBlock (last : Bool) (bytes : List UInt8) : List UInt8 :=
  let n := bytes.length
  let pair (k : Nat) : List UInt8 := [UInt8.ofNat (k % 256), UInt8.ofNat (k / 256)]
  (if last then 1 else 0) :: pair n ++ pair (blockLimit - n) ++ bytes

/-- Bytes as blocks that hold them as they are; the fuel bounds the number of blocks. -/
def storedBlocksWith : Nat → List UInt8 → List UInt8
  | 0, bytes => storedBlock true bytes
  | fuel + 1, bytes =>
    if bytes.length ≤ blockLimit then storedBlock true bytes
    else storedBlock false (bytes.take blockLimit) ++ storedBlocksWith fuel (bytes.drop blockLimit)

/-- Bytes as blocks that hold them as they are. -/
def storedBlocks (bytes : List UInt8) : List UInt8 :=
  storedBlocksWith (bytes.length / blockLimit) bytes

end PhotoPipeline
