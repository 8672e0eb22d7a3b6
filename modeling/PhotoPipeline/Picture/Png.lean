/-
**PNG.**

The file format of pictures.  A file is a signature and chunks; a chunk has a length, a kind, data
and a checksum.  The pixels stand row by row in deflated data, and each row starts with the way
its bytes are given: as they are, or as differences from bytes before and above them.

Main definitions:

* `PhotoPipeline.Png.encode` — an image as the bytes of a file;
* `PhotoPipeline.Png.decode?` — the image of the bytes of a file.
-/
import PhotoPipeline.Image.Basic
import PhotoPipeline.Picture.Checksum
import PhotoPipeline.Picture.Deflate

set_option relaxedAutoImplicit false
set_option autoImplicit false

namespace PhotoPipeline

namespace Png

/-- The bytes that a file starts with. -/
def signature : List UInt8 := [0x89, 0x50, 0x4E, 0x47, 0x0D, 0x0A, 0x1A, 0x0A]

/-- The bytes of the name of a chunk. -/
def kindBytes (kind : String) : List UInt8 := kind.toList.map fun c => UInt8.ofNat c.toNat

/-! ### Formats -/

/-- The bits of a sample. -/
def depthCode : Depth → UInt8
  | .byte => 8
  | .word => 16
  | .single => 32

/-- The number for the kind of pixels. -/
def colourCode (f : Format) : UInt8 :=
  match f with
  | .l8 | .l16 => 0
  | .la8 | .la16 => 4
  | .rgb8 | .rgb16 | .rgb32f => 2
  | .rgba8 | .rgba16 | .rgba32f => 6

/-- The formats that a file can hold. -/
def formats : List Format := [.l8, .la8, .rgb8, .rgba8, .l16, .la16, .rgb16, .rgba16]

/-- The format of the bits of a sample and the number for the kind of pixels. -/
def format? (depth colour : UInt8) : Option Format :=
  formats.find? fun f => depthCode f.depth == depth && colourCode f == colour

theorem format?_code {f : Format} (h : f ∈ formats) :
    format? (depthCode f.depth) (colourCode f) = some f := by
  simp only [formats, List.mem_cons, List.not_mem_nil, or_false] at h
  rcases h with rfl | rfl | rfl | rfl | rfl | rfl | rfl | rfl <;> rfl

/-- Turns the bytes of every sample round: files have the most significant byte first. -/
def turnSamples (f : Format) (bytes : List UInt8) : List UInt8 :=
  if f.depth = .word then turn bytes else bytes
where
  turn : List UInt8 → List UInt8
    | a :: b :: rest => b :: a :: turn rest
    | rest => rest

/-! ### Writing -/

/-- A chunk. -/
def chunk (kind : String) (data : List UInt8) : List UInt8 :=
  let body := kindBytes kind ++ data
  bigEndian (UInt32.ofNat data.length) ++ body ++ bigEndian (crc32 body)

/-- The data of the first chunk. -/
def header (i : Image) : List UInt8 :=
  bigEndian i.width ++ bigEndian i.height ++
    [depthCode i.format.depth, colourCode i.format, 0, 0, 0]

/-- The rows of bytes, each of the given size; the fuel is the number of rows. -/
def rowsOf (size : Nat) : Nat → List UInt8 → List (List UInt8)
  | 0, _ => []
  | fuel + 1, bytes => bytes.take size :: rowsOf size fuel (bytes.drop size)

/-- The bytes in a row of an image. -/
def rowBytes (width : UInt32) (f : Format) : Nat := width.toNat * f.pixelBytes

/-- The rows of an image, each given as it is. -/
def plainRows (i : Image) : List UInt8 :=
  let bytes := turnSamples i.format i.bytes.toList
  (rowsOf (rowBytes i.width i.format) i.height.toNat bytes).flatMap fun row => 0 :: row

/-- Bytes as deflated data with its own header and checksum. -/
def wrapped (bytes : List UInt8) : List UInt8 :=
  [0x78, 0x01] ++ storedBlocks bytes ++ bigEndian (adler32 bytes)

/-- An image as the bytes of a file. -/
def encode (i : Image) : List UInt8 :=
  signature ++ chunk "IHDR" (header i) ++ chunk "IDAT" (wrapped (plainRows i)) ++ chunk "IEND" []

/-! ### Reading -/

/-- The bytes after the signature. -/
def afterSignature? (bytes : List UInt8) : Option (List UInt8) :=
  if bytes.take signature.length = signature then some (bytes.drop signature.length) else none

/-- The data of the chunks of a kind, joined; the fuel bounds the number of chunks. -/
def dataOf (kind : List UInt8) : Nat → List UInt8 → List UInt8
  | 0, _ => []
  | fuel + 1, bytes =>
    if bytes.length < 12 then []
    else
      let size := ofBigEndian (bytes.take 4)
      let body := bytes.drop 8
      let rest := dataOf kind fuel (body.drop (size + 4))
      if (bytes.drop 4).take 4 = kind then body.take size ++ rest else rest

/-- The byte among three that is nearest to what continues them. -/
def nearest (left above corner : Int) : Int :=
  let p := left + above - corner
  let a := (p - left).natAbs
  let b := (p - above).natAbs
  let c := (p - corner).natAbs
  if a ≤ b ∧ a ≤ c then left else if b ≤ c then above else corner

/-- What a byte is added to, given the way of its row. -/
def prediction (way left above corner : UInt8) : UInt8 :=
  match way.toNat with
  | 0 => 0
  | 1 => left
  | 2 => above
  | 3 => UInt8.ofNat ((left.toNat + above.toNat) / 2)
  | _ => UInt8.ofInt (nearest left.toNat above.toNat corner.toNat)

/-- The bytes of a row: the row above it is given, and the bytes in a pixel. -/
def restoreRow (pixel : Nat) (above : Array UInt8) (way : UInt8) (row : List UInt8) :
    Array UInt8 :=
  row.foldl (fun done b =>
    let k := done.size
    let before (r : Array UInt8) : UInt8 := if k < pixel then 0 else r.getD (k - pixel) 0
    done.push (b + prediction way (before done) (above.getD k 0) (before above))) #[]

/-- The bytes of all rows. -/
def restoreRows (pixel : Nat) (above : Array UInt8) : List (List UInt8) → Option (List UInt8)
  | [] => some []
  | [] :: _ => none
  | (way :: row) :: rest =>
    if 4 < way then none
    else
      let done := restoreRow pixel above way row
      (restoreRows pixel done rest).map (done.toList ++ ·)

/-- The image of the data of the chunks of a file. -/
def imageOf? (head data : List UInt8) : Option Image := do
  let [w0, w1, w2, w3, h0, h1, h2, h3, depth, colour, 0, 0, 0] := head | none
  let width := UInt32.ofNat (ofBigEndian [w0, w1, w2, w3])
  let height := UInt32.ofNat (ofBigEndian [h0, h1, h2, h3])
  let format ← format? depth colour
  let bytes ← inflate (data.drop 2).toArray
  let rows := rowsOf (rowBytes width format + 1) height.toNat bytes.toList
  let bytes ← restoreRows format.pixelBytes #[] rows
  Image.ofBytes? width height format (turnSamples format bytes).toArray

/-- The image of the bytes of a file. -/
def decode? (bytes : List UInt8) : Option Image := do
  let chunks ← afterSignature? bytes
  let fuel := chunks.length
  imageOf? (dataOf (kindBytes "IHDR") fuel chunks) (dataOf (kindBytes "IDAT") fuel chunks)

end Png

end PhotoPipeline
