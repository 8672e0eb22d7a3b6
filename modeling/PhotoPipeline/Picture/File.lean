/-
**Files as bytes.**

What is in a file is known from its bytes: a picture, if the name of the file says so and the
bytes are one; else a text, if the bytes are one; else only the bytes.

Main definitions:

* `PhotoPipeline.FileNode.ofBytes`, `PhotoPipeline.FileNode.bytes?` — from bytes and to bytes;
* `PhotoPipeline.FileTree.changes` — what is new in a tree.
-/
import PhotoPipeline.Files.Tree
import PhotoPipeline.Picture.Png

set_option relaxedAutoImplicit false
set_option autoImplicit false

namespace PhotoPipeline

namespace FileNode

/-- What bytes that are no picture are. -/
def ofPlainBytes (b : ByteArray) : FileNode :=
  match String.fromUTF8? b with
  | some s => .text s.toList
  | none => .bytes b.toList

/-- What is in a file of the given path. -/
def ofBytes (path : Text) (b : ByteArray) : FileNode :=
  match FileTree.isPicturePath path, Png.decode? b.toList with
  | true, some image => .picture image
  | _, _ => ofPlainBytes b

/-- The bytes of a file; a directory has none. -/
def bytes? : FileNode → Option (List UInt8)
  | directory => none
  | text t => some t.utf8
  | picture image => some (Png.encode image)
  | bytes b => some b

end FileNode

namespace FileTree

/-- What is in a tree, the oldest first, and was not the same before. -/
def changes (before after : FileTree) : FileTree :=
  after.reverse.filter fun e => !(before.contains e)

end FileTree

end PhotoPipeline
