/-
**File trees.**

The files that scripts, configurations and images are read from and written to, as a value: a
list of places and what is there.  Pictures are kept as images; only the extension `png` stands
for a picture.

Main definitions:

* `PhotoPipeline.FileTree` — files and directories by place;
* `PhotoPipeline.FileTree.locate` — the place that a path leads to;
* `PhotoPipeline.FileTree.readText`, `PhotoPipeline.FileTree.readImage?`;
* `PhotoPipeline.FileTree.writeText`, `PhotoPipeline.FileTree.writeImage`;
* `PhotoPipeline.FileTree.filesBelow` — the files under a directory, sorted.

Main results:

* `PhotoPipeline.FileTree.find?_put` — what was put at a place is found there.
-/
import PhotoPipeline.Error
import PhotoPipeline.Files.Path
import PhotoPipeline.Image.Sample

set_option relaxedAutoImplicit false
set_option autoImplicit false

namespace PhotoPipeline

/-- What is at a place. -/
inductive FileNode where
  | directory
  | text (content : Text)
  | picture (image : Image)
  /-- Bytes that are neither a text nor a picture. -/
  | bytes (content : List UInt8)
  deriving DecidableEq

/-- The picture of an image, in which samples are whole numbers. -/
def FileNode.ofImage (image : Image) : FileNode := .picture image.whole

/-- The names on the way to a place from the working directory. -/
abbrev Place := List Text

/-- Files and directories. -/
abbrev FileTree := List (Place × FileNode)

namespace FileTree

/-- Whether a place is outside the tree: the working directory itself, a directory above it, or
the root.  Such places are taken to be directories. -/
def isOutside (p : Place) : Bool := p.all fun name => name == ['.', '.'] || name == ['/']

/-- Whether a place is below the working directory. -/
def isInside (p : Place) : Bool := p.head? != some ['.', '.'] && p.head? != some ['/']

/-- What is at a place. -/
def find? (t : FileTree) (p : Place) : Option FileNode :=
  if isOutside p then some .directory else t.lookup p

/-- Puts something at a place. -/
def put (t : FileTree) (p : Place) (n : FileNode) : FileTree :=
  (p, n) :: t.filter fun e => !(e.1 == p)

theorem find?_put {t : FileTree} {p : Place} (h : isOutside p = false) (n : FileNode) :
    (t.put p n).find? p = some n := by
  simp [find?, put, h]

/-- Makes a place a directory, if nothing is there. -/
def ensureDirectory (t : FileTree) (p : Place) : FileTree :=
  if (t.find? p).isSome then t else t.put p .directory

/-- Puts something at a place, and makes the directories above it. -/
def plant (t : FileTree) (p : Place) (n : FileNode) : FileTree :=
  (((List.range p.length).map p.take).foldl ensureDirectory t).put p n

/-! ### From paths to places -/

/-- The pieces of a path between slashes. -/
def piecesOf : Text → List Text
  | [] => [[]]
  | '/' :: t => [] :: piecesOf t
  | c :: t =>
    match piecesOf t with
    | [] => [[c]]
    | p :: ps => (c :: p) :: ps

/-- The place that the names on a path spell, whatever is there. -/
def placeOf (path : Text) : Place :=
  let names := (piecesOf path).filter fun name => name ≠ [] ∧ name ≠ ['.']
  if Path.isAbsolute path then ['/'] :: names else names

/-- The place one name up. -/
def above (p : Place) : Place :=
  if isOutside p then if p = [['/']] then p else ['.', '.'] :: p else p.dropLast

/-- The length of the longest name, in bytes. -/
def maxName : Nat := 255

/-- The length of the longest path, in bytes. -/
def maxPath : Nat := 4095

/-- Follows names from a place; every name but the last must lead to a directory. -/
def follow (t : FileTree) : Place → List Text → Except FileFault Place
  | p, [] => .ok p
  | p, name :: names =>
    match t.find? p with
    | none => .error .notFound
    | some .directory =>
      if name = [] ∨ name = ['.'] then follow t p names
      else if name = ['.', '.'] then follow t (above p) names
      else if maxName < name.utf8.length then .error .nameTooLong
      else follow t (p ++ [name]) names
    | some _ => .error .notDirectory

/-- The place that a path leads to. -/
def locate (t : FileTree) (path : Text) : Except FileFault Place :=
  if path.contains '\x00' then .error .zeroInPath
  else if maxPath < path.utf8.length then .error .nameTooLong
  else
    match path with
    | [] => .error .notFound
    | '/' :: rest => follow t [['/']] (piecesOf rest)
    | _ => follow t [] (piecesOf path)

/-- What a path leads to. -/
def lookupPath (t : FileTree) (path : Text) : Except FileFault FileNode :=
  match t.locate path with
  | .error e => .error e
  | .ok p =>
    match t.find? p with
    | none => .error .notFound
    | some n => .ok n

/-- Whether a path leads to a file. -/
def isFile (t : FileTree) (path : Text) : Bool :=
  match t.lookupPath path with
  | .error _ | .ok .directory => false
  | .ok _ => true

/-! ### Texts -/

/-- The text in a file. -/
def readText (t : FileTree) (path : Text) : Except FileFault Text :=
  match t.lookupPath path with
  | .error e => .error e
  | .ok (.text content) => .ok content
  | .ok .directory => .error .isDirectory
  | .ok _ => .error .notText

/-- Writes a text into a file, which may be new. -/
def writeText (t : FileTree) (path content : Text) : Except FileFault FileTree :=
  match t.locate path with
  | .error e => .error e
  | .ok p =>
    match t.find? p with
    | some .directory => .error .isDirectory
    | _ => .ok (t.put p (.text content))

/-! ### Pictures -/

/-- Whether a path has the extension of a picture, in either case. -/
def isPicturePath (path : Text) : Bool :=
  (Path.extension? path).map (fun e => e.map Char.toLower) == some "png".toList

/-- The image in a file. -/
def readImage? (t : FileTree) (path : Text) : Option Image :=
  if isPicturePath path then
    match t.lookupPath path with
    | .ok (.picture i) => some i
    | _ => none
  else none

/-- Makes a directory, unless it is there. -/
def makeDirectory (t : FileTree) (path : Text) : Except FileFault Unit × FileTree :=
  match t.locate path with
  | .error e => (.error e, t)
  | .ok p =>
    match t.find? p with
    | some .directory => (.ok (), t)
    | some _ => (.error .exists, t)
    | none => (.ok (), t.put p .directory)

/-- Makes a directory and those above it; the fuel is the number of names on the path. -/
def makeDirectories (t : FileTree) : Nat → Text → Except FileFault Unit × FileTree
  | 0, _ => (.ok (), t)
  | fuel + 1, path =>
    if path = [] then (.ok (), t)
    else
      match t.makeDirectory path with
      | (.error .notFound, t) =>
        match makeDirectories t fuel ((Path.parent? path).getD []) with
        | (.ok (), t) => t.makeDirectory path
        | failed => failed
      | done => done

/-- Whether a picture can hold an image: it has pixels. -/
def isPicture (image : Image) : Bool := image.width != 0 && image.height != 0

/-- Puts an image where a path leads to, unless that is a directory; tells whether it is there.
An image that a picture cannot hold leaves an empty file. -/
def placeImage (t : FileTree) (path : Text) (image : Image) : Bool × FileTree :=
  match isPicturePath path, t.locate path with
  | true, .ok p =>
    if t.find? p = some .directory then (false, t)
    else if isPicture image then (true, t.put p (.ofImage image))
    else (false, t.put p (.text []))
  | _, _ => (false, t)

/-- Writes an image into a file.  The directories above it are made first, and stay even if the
file cannot be written. -/
def writeImage (t : FileTree) (path : Text) (image : Image) : Except Error Unit × FileTree :=
  let parent := (Path.parent? path).getD []
  match t.makeDirectories (parent.length + 1) parent with
  | (.error e, t) => (.error (.file parent (.createDirectory e)), t)
  | (.ok (), t) =>
    match t.placeImage path image with
    | (true, t) => (.ok (), t)
    | (false, t) => (.error (.file path .writeImage), t)

/-! ### Listing -/

/-- Whether a text comes before another or is equal to it, character by character. -/
def textLe : Text → Text → Bool
  | [], _ => true
  | _ :: _, [] => false
  | a :: as, b :: bs => if a = b then textLe as bs else a.toNat < b.toNat

/-- Whether a place comes before another or is equal to it, name by name. -/
def placeLe : Place → Place → Bool
  | [], _ => true
  | _ :: _, [] => false
  | a :: as, b :: bs => if a = b then placeLe as bs else textLe a b

/-- What is left of a place below another. -/
def below? : Place → Place → Option Place
  | [], p => some p
  | _ :: _, [] => none
  | a :: as, b :: bs => if a = b then below? as bs else none

/-- The places of the files under a place, relative to it and sorted. -/
def placesBelow (t : FileTree) (p : Place) : List Place :=
  let files := t.filterMap fun e =>
    match e.2 with
    | .directory => none
    | _ => below? p e.1
  files.mergeSort placeLe

/-- The names of a place as a path. -/
def placePath (p : Place) : Text := List.intercalate ['/'] p

/-- The paths of the files under a directory, sorted; of a file, its own path. -/
def filesBelow (t : FileTree) (directory : Text) : Except FileFault (List Text) :=
  match t.locate directory with
  | .error e => .error e
  | .ok p =>
    match t.find? p with
    | none => .error .notFound
    | some .directory => .ok ((t.placesBelow p).map fun q => Path.join directory (placePath q))
    | some _ => .ok [directory]

end FileTree

end PhotoPipeline
