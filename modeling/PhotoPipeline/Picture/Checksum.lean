/-
**Checksums.**

Two sums over bytes that tell whether data has been damaged: the remainder of a division of
polynomials over the field of two elements, and a pair of running sums modulo a prime.

Main definitions:

* `PhotoPipeline.crc32` — the cyclic sum of bytes;
* `PhotoPipeline.adler32` — the pair of running sums as one number;
* `PhotoPipeline.bigEndian` — a word as four bytes, the most significant first.
-/

set_option relaxedAutoImplicit false
set_option autoImplicit false

namespace PhotoPipeline

/-- The divisor, its coefficients from the least significant bit down. -/
def crcDivisor : UInt32 := 0xEDB88320

/-- Divides one bit. -/
def crcBit (c : UInt32) : UInt32 := if c &&& 1 = 1 then crcDivisor ^^^ (c >>> 1) else c >>> 1

/-- Takes one byte into a cyclic sum. -/
def crcByte (c : UInt32) (b : UInt8) : UInt32 := Nat.repeat crcBit 8 (c ^^^ b.toUInt32)

/-- Takes bytes into a cyclic sum. -/
def crcFeed (c : UInt32) (bytes : List UInt8) : UInt32 := bytes.foldl crcByte c

/-- The cyclic sum of bytes. -/
def crc32 (bytes : List UInt8) : UInt32 := ~~~(crcFeed 0xFFFFFFFF bytes)

/-- The modulus of the running sums. -/
def adlerModulus : Nat := 65521

/-- Takes one byte into the running sums. -/
def adlerByte (s : Nat × Nat) (b : UInt8) : Nat × Nat :=
  let low := (s.1 + b.toNat) % adlerModulus
  (low, (s.2 + low) % adlerModulus)

/-- The running sums of bytes as one number. -/
def adler32 (bytes : List UInt8) : UInt32 :=
  let s := bytes.foldl adlerByte (1, 0)
  UInt32.ofNat (65536 * s.2 + s.1)

/-- A word as four bytes, the most significant first. -/
def bigEndian (x : UInt32) : List UInt8 :=
  [(x >>> 24).toUInt8, (x >>> 16).toUInt8, (x >>> 8).toUInt8, x.toUInt8]

/-- The word of bytes, the most significant first. -/
def ofBigEndian (bytes : List UInt8) : Nat := bytes.foldl (fun n b => 256 * n + b.toNat) 0

end PhotoPipeline
