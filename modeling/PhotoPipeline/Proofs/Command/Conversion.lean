/-
**Images that are converted in turn.**

A conversion runs one pipeline on image after image.  Every image has a fresh context, but the image
store is one for all of them.  So an image could get what was kept for an earlier one.  It does not
where the groups that keep results do nothing but turn one image into another: the result of each
image is then the one it has on its own, with a new store.  Where a group also reads what the
context of an image holds, its key does not tell, and an image can get the result of another.

Main definitions:

* `PhotoPipeline.Conversion.developAll` — the results of images in turn;
* `PhotoPipeline.Conversion.hashesAll` — the strings that are hashed for keys meanwhile.

Main results:

* `PhotoPipeline.Conversion.developAll_eq_alone` — the results in turn, without a store;
* `PhotoPipeline.Conversion.developAll_eq_map` — **images are converted independently**;
* `PhotoPipeline.Conversion.developAll_ne_map_of_recalled` — **but not where a group reads what an
  image has put aside**.
-/
import PhotoPipeline.Command.Convert
import PhotoPipeline.Proofs.Cache.Modes
import PhotoPipeline.Proofs.Engine.Session

set_option relaxedAutoImplicit false
set_option autoImplicit false

namespace PhotoPipeline

open Element (nodesAll alikeIn_self AllStateless)

namespace Conversion

/-! ### Images in turn -/

/-- The results of images, one after another, from what they share. -/
def developAll (c : Conversion) : List Image → Shared → List (Except Halted (Option Image))
  | [], _ => []
  | image :: images, shared =>
    (c.develop image shared).1 :: c.developAll images (c.develop image shared).2.shared

/-- The strings that are hashed for keys while images are developed in turn. -/
def hashesAll (c : Conversion) : List Image → Shared → List (List UInt8)
  | [], _ => []
  | image :: images, shared =>
    c.recipe.hashes c.label (some image) ⟨c.settings.context .convert, shared⟩ ++
      c.hashesAll images (c.develop image shared).2.shared

/-- What the images of a conversion share at the beginning. -/
def fresh (c : Conversion) (files : FileTree) : Shared := c.settings.catalogue.shared files

/-- The result of an image without a store. -/
def developAlone (c : Conversion) (image : Image) : Except Halted (Option Image) :=
  (c.recipe.run c.label (some image) (c.settings.context .convert).alone).1

section

variable {hashed : List (List UInt8)} {p : Digest → Image → Prop} {G : List (Element Empty) → Prop}
  {c : Conversion}

/-- One image: the result is the one without a store, and the stores stay in order. -/
theorem develop_eq_alone (hG : Keepable hashed p .convert G)
    (hr : ∀ x ∈ nodesAll c.recipe.topElements, x.KeepsOnly G) {image : Image} {shared : Shared}
    (hshared : ∀ store ∈ shared.stores, store.All p)
    (hhashes : ∀ b ∈ c.recipe.hashes c.label (some image) ⟨c.settings.context .convert, shared⟩,
      b ∈ hashed) :
    (c.develop image shared).1 = c.developAlone image ∧
      ∀ store ∈ (c.develop image shared).2.shared.stores, store.All p := by
  have hresembles : Resembles p .convert ⟨c.settings.context .convert, shared⟩
      (c.settings.context .convert).alone :=
    resembles_alone (s := ⟨c.settings.context .convert, shared⟩) hshared
  have htallies := c.recipe.run_tallies hG hr c.label (some image) hresembles hhashes
  exact ⟨htallies.1, htallies.2.holds⟩

/-- The results of images in turn are those without a store. -/
theorem developAll_eq_alone (hG : Keepable hashed p .convert G)
    (hr : ∀ x ∈ nodesAll c.recipe.topElements, x.KeepsOnly G) {images : List Image}
    {shared : Shared} (hshared : ∀ store ∈ shared.stores, store.All p)
    (hhashes : ∀ b ∈ c.hashesAll images shared, b ∈ hashed) :
    c.developAll images shared = images.map c.developAlone := by
  induction images generalizing shared with
  | nil => rfl
  | cons image images ih =>
      obtain ⟨hfirst, hrest⟩ := List.forall_mem_append.1 hhashes
      obtain ⟨hresult, hstores⟩ := develop_eq_alone hG hr hshared hfirst
      rw [developAll, List.map_cons, hresult, ih hstores hrest]

end

/-- The results of images in turn, from new stores. -/
theorem developAll_fresh {c : Conversion}
    (hkeeps : ∀ x ∈ nodesAll c.recipe.topElements, x.KeepsOnly AllStateless)
    (htold : ToldApart c.recipe.topElements) (files : FileTree) {images : List Image}
    (hH : NoCollision (c.hashesAll images (c.fresh files))) :
    c.developAll images (c.fresh files) = images.map c.developAlone := by
  refine developAll_eq_alone
    (keepable_keptIn hkeeps htold (fun x _ => alikeIn_self .convert x) hH)
    (keepsOnly_keptIn hkeeps) ?_ fun _ hb => hb
  exact List.forall_mem_singleton.2 (ImageStore.all_empty _)

/-- **Images are converted independently.**  A script leaves files alone and runs nothing once, the
groups in it that keep their results consist of stateless elements, also inside what references
stand for, and no two of these groups are written alike.  Then every image that is developed in turn
has the result that it has alone, with a new store: the image, or the error with the image it left.
No two different strings that are hashed in turn, or for one image alone, may have one digest. -/
theorem developAll_eq_map (c : Conversion)
    (hkeeps : ∀ x ∈ nodesAll c.recipe.topElements, x.KeepsOnly AllStateless)
    (htold : ToldApart c.recipe.topElements) (files : FileTree) (images : List Image)
    (hH : NoCollision (c.hashesAll images (c.fresh files)))
    (halone : ∀ image ∈ images, NoCollision (c.hashesAll [image] (c.fresh files))) :
    c.developAll images (c.fresh files) =
      images.map fun image => (c.develop image (c.fresh files)).1 := by
  rw [developAll_fresh hkeeps htold files hH]
  refine List.map_congr_left fun image himage => ?_
  have hsingle := developAll_fresh hkeeps htold files (halone image himage)
  exact (List.singleton_inj.1 hsingle).symm

/-! ### A sample -/

/-- The conversion of a recipe with the settings that are usual. -/
def usual (r : Recipe Empty) : Conversion := ⟨⟨.default, [], []⟩, r, none, [], []⟩

/-- A recipe that puts the image aside and inverts it in a group that keeps its result. -/
def stashing : Recipe Empty :=
  ⟨[.anonymous 1 [.step (.stash "a".toList), .group .cache [.step (.adjust .invert)]]]⟩

theorem ofText_stashing :
    Recipe.ofText (.builtin defaultBudget) "stash(a) cache(invert())".toList [] = .ok stashing :=
  Recipe.ofText_eq_ok_iff.2
    ⟨[⟨"stash".toList, [.leaf "a".toList ⟨6, 1, 7⟩], ⟨0, 1, 1⟩⟩,
      ⟨"cache".toList, [.leaf "invert".toList ⟨15, 1, 16⟩], ⟨9, 1, 10⟩⟩], rfl, rfl⟩

/-- Two black pixels become white in turn, the second from the store, as each does alone. -/
theorem developAll_eq_map_stashing :
    (usual stashing).developAll [blackPixel, blackPixel] ((usual stashing).fresh []) =
      [.ok (some ⟨1, 1, .l8, #[255], rfl⟩), .ok (some ⟨1, 1, .l8, #[255], rfl⟩)] := by
  have hkey : NoCollision (keyHashes [.step (.adjust .invert)] (some blackPixel)) :=
    noCollision_pair (by decide +kernel)
  have hturn : ∀ b ∈ (usual stashing).hashesAll [blackPixel, blackPixel]
      ((usual stashing).fresh []), b ∈ keyHashes [.step (.adjust .invert)] (some blackPixel) := by
    decide +kernel
  have halone : ∀ b ∈ (usual stashing).hashesAll [blackPixel] ((usual stashing).fresh []),
      b ∈ keyHashes [.step (.adjust .invert)] (some blackPixel) := by
    decide +kernel
  rw [developAll_eq_map (usual stashing) (by decide)
    (Recipe.toldApart ofText_stashing (fun _ hx => hx) (by decide)) [] [blackPixel, blackPixel]
    (hkey.mono hturn)
    (List.forall_mem_cons.2 ⟨hkey.mono halone, List.forall_mem_singleton.2 (hkey.mono halone)⟩)]
  decide +kernel

/-! ### What an image has put aside -/

/-- A script that puts the image aside, makes it grey, and takes back what was put aside, in a group
that keeps its result. -/
def recalling : Recipe Empty :=
  ⟨[.anonymous 1 [.step (.stash "a".toList), .step (.adjust .grayscale),
    .group .cache [.step (.retrieve "a".toList)]]]⟩

theorem ofText_recalling :
    Recipe.ofText (.builtin defaultBudget) "stash(a) grayscale() cache(recall(a))".toList [] =
      .ok recalling :=
  Recipe.ofText_eq_ok_iff.2
    ⟨[⟨"stash".toList, [.leaf "a".toList ⟨6, 1, 7⟩], ⟨0, 1, 1⟩⟩,
      .leaf "grayscale".toList ⟨9, 1, 10⟩,
      ⟨"cache".toList, [⟨"recall".toList, [.leaf "a".toList ⟨34, 1, 35⟩], ⟨27, 1, 28⟩⟩],
        ⟨21, 1, 22⟩⟩], rfl, rfl⟩

/-- A black pixel with three channels. -/
def blackColour : Image := ⟨1, 1, .rgb8, #[0, 0, 0], rfl⟩

/-- A pixel that is black once it is grey. -/
def darkColour : Image := ⟨1, 1, .rgb8, #[1, 0, 0], rfl⟩

/-- **A group can answer with what another image has put aside**: the second image gets the first
one back.  Alone it is what it was. -/
theorem developAll_ne_map_of_recalled :
    Recipe.ofText (.builtin defaultBudget) "stash(a) grayscale() cache(recall(a))".toList [] =
        .ok recalling ∧
      (usual recalling).developAll [blackColour, darkColour] ((usual recalling).fresh []) =
        [.ok (some blackColour), .ok (some blackColour)] ∧
      ((usual recalling).develop darkColour ((usual recalling).fresh [])).1 =
        .ok (some darkColour) := by
  refine ⟨ofText_recalling, ?_, ?_⟩
  · decide +kernel
  · decide +kernel

end Conversion

end PhotoPipeline
