/-
**The built-in kinds.**

The kinds of elements that every script may use, in the order in which they are listed, each with
its help and with the arguments it reads.

Main definitions:

* `PhotoPipeline.builtinKinds` — the built-in kinds;
* `PhotoPipeline.Catalogue.builtin` — the catalogue of the built-in kinds, with one image store.
-/
import PhotoPipeline.Kind.Basic

set_option relaxedAutoImplicit false
set_option autoImplicit false

namespace PhotoPipeline

/-- A line of help. -/
def helpLine (usage description : String) : HelpLine := ⟨usage.toList, description.toList⟩

namespace Kind

variable {ε : Type}

/-- A kind with one line of help. -/
def documented (name usage description : String) (read : Reader ε (Element ε)) :
    ElementKind ε :=
  ⟨name.toList, [helpLine usage description], read⟩

/-- Reads an adjustment as an element. -/
def adjusting (read : Reader ε Adjustment) : Reader ε (Element ε) := do
  return .step (.adjust (← read))

/-- Reads the elements of a group. -/
def grouping (kind : Group) : Reader ε (Element ε) := do
  return .group kind (← Reader.elements)

/-- Runs its elements. -/
def pipeline : ElementKind ε :=
  ⟨anonymousHead,
    [helpLine "pipeline(element...)" "Runs its elements in order",
      helpLine "(element...)" "Shorthand for pipeline(...)"],
    grouping .anonymous⟩

/-- Reads an image from a file. -/
def load : ElementKind ε :=
  documented "load" "load(path)" "Reads an image file (PNG, JPEG, ...)" do
    return .step (.load (← Reader.string))

/-- Writes the image to a file. -/
def save : ElementKind ε :=
  documented "save" "save(path)" "Writes the image; the format follows the extension" do
    return .step (.save (← Reader.string))

/-- Makes an image of one colour. -/
def canvas : ElementKind ε :=
  documented "canvas" "canvas(width height colour=#00000000)"
    "Creates a solid image, transparent by default" <|
    adjusting do
      let width ← Reader.value
      let height ← Reader.value
      let colour ← Reader.colourD .transparent
      return .canvas width height colour

/-- Changes the contrast. -/
def contrast : ElementKind ε :=
  documented "contrast" "contrast(amount)" "Adjusts contrast; negative values flatten" <|
    adjusting do return .contrast (← Reader.value)

/-- Changes the brightness. -/
def brightness : ElementKind ε :=
  documented "brightness" "brightness(amount)" "Adds amount to every colour channel" <|
    adjusting do return .brightness (← Reader.value)

/-- Turns the image. -/
def rotate : ElementKind ε :=
  documented "rotate" "rotate(quarter_turns)" "Rotates clockwise in 90 degree steps" <|
    adjusting do return .rotate (← Reader.int)

/-- Changes the size. -/
def resize : ElementKind ε :=
  documented "resize" "resize(width height)"
    "Resizes to exactly width x height (Lanczos3); accepts \x60w / 2\x60 style expressions" <|
    adjusting do
      let width ← Reader.value
      let height ← Reader.value
      return .resize width height

/-- Cuts a rectangle out. -/
def crop : ElementKind ε :=
  documented "crop" "crop(x y width height)" "Crops to a rectangle, clamped to the image" <|
    adjusting do
      let x ← Reader.value
      let y ← Reader.value
      let width ← Reader.value
      let height ← Reader.value
      return .crop x y width height

/-- Softens the image. -/
def blur : ElementKind ε :=
  documented "blur" "blur(sigma)" "Gaussian blur with the given standard deviation" <|
    adjusting do return .blur (← Reader.value)

/-- Takes the colour away. -/
def grayscale : ElementKind ε :=
  documented "grayscale" "grayscale()" "Converts to luma, keeping alpha" <|
    adjusting (return .grayscale)

/-- Makes the negative. -/
def invert : ElementKind ε :=
  documented "invert" "invert()" "Inverts every colour channel" <|
    adjusting (return .invert)

/-- Changes the saturation. -/
def saturate : ElementKind ε :=
  documented "saturate" "saturate(percent)"
    "Shifts saturation by percent of the remaining range (-100 to 100)" <|
    adjusting do return .saturate (← Reader.value)

/-- Mixes a colour in. -/
def tint : ElementKind ε :=
  documented "tint" "tint(colour amount=0.5)" "Mixes every pixel toward a colour" <|
    adjusting do
      let colour ← Reader.colour
      let amount ← Reader.valueD (.number 0.5)
      return .tint colour amount

/-- Runs its elements in one mode. -/
def only : ElementKind ε :=
  documented "only" "only(mode element...)"
    "Runs its elements only in convert, script or edit mode" do
    let mode ← Reader.mode
    let elements ← Reader.elements
    return .group (.only mode) elements

/-- Puts the image aside. -/
def stash : ElementKind ε :=
  documented "stash" "stash(slot)" "Saves a copy of the image for recall(slot)" do
    return .step (.stash (← Reader.string))

/-- Takes the image up again. -/
def retrieve : ElementKind ε :=
  documented "recall" "recall(slot)" "Replaces the image with the one saved by stash(slot)" do
    return .step (.retrieve (← Reader.string))

/-- Runs its elements once for each image. -/
def cache : ElementKind ε :=
  documented "cache" "cache(element...)"
    "Runs its elements once per distinct input image and reuses the result" (grouping .cache)

/-- Runs its elements once. -/
def once : ElementKind ε :=
  documented "once" "once(element...)"
    "Runs its elements the first time only, ignoring the input image" (grouping .once)

end Kind

variable {ε : Type}

/-- The built-in kinds in the order in which they are listed. -/
def builtinKinds : List (ElementKind ε) :=
  [Kind.pipeline, Kind.load, Kind.save, Kind.canvas, Kind.contrast, Kind.brightness, Kind.rotate,
    Kind.resize, Kind.crop, Kind.blur, Kind.grayscale, Kind.invert, Kind.saturate, Kind.tint,
    Kind.only, Kind.stash, Kind.retrieve, Kind.cache, Kind.once]

/-- The catalogue of the built-in kinds, with one image store for all contexts. -/
def Catalogue.builtin (budget : UInt64) : Catalogue ε :=
  (⟨builtinKinds, [], []⟩ : Catalogue ε).installCache budget

end PhotoPipeline
