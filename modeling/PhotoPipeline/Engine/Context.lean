/-
**Contexts.**

A context is what the elements of one execution share: the mode, a request to stop, the extension
store, and the names of the pipelines that are being executed.  What outlives a context, the
shared image stores and the files, is kept apart from it.

Main definitions:

* `PhotoPipeline.Context` — the environment of one execution;
* `PhotoPipeline.Shared` — what contexts share;
* `PhotoPipeline.RunState` — both, as a run sees them.

Main results:

* `PhotoPipeline.Context.leave_enter` — leaving a pipeline restores the name before it.
-/
import PhotoPipeline.Cache.Store
import PhotoPipeline.Engine.Extensions

set_option relaxedAutoImplicit false
set_option autoImplicit false

namespace PhotoPipeline

/-- The environment of one execution. -/
structure Context where
  mode : Mode
  verbose : Bool
  /-- Whether the execution has been asked to stop. -/
  cancelled : Bool
  extensions : Extensions
  /-- The names of the pipelines being executed, the innermost first. -/
  announced : List Text
  deriving DecidableEq

namespace Context

/-- A context as it starts, with its store filled by the hooks in turn. -/
def new (mode : Mode) (hooks : List (Extensions → Extensions)) : Context where
  mode := mode
  verbose := false
  cancelled := false
  extensions := hooks.foldl (fun x hook => hook x) .empty
  announced := []

/-- The error of an execution that has been asked to stop. -/
def checkCancelled (c : Context) : Except Error Unit :=
  if c.cancelled then .error .cancelled else .ok ()

/-- Announces a pipeline. -/
def enter (c : Context) (name : Text) : Context := { c with announced := name :: c.announced }

/-- Takes back the last announcement. -/
def leave (c : Context) : Context := { c with announced := c.announced.tail }

/-- The innermost pipeline being executed. -/
def current? (c : Context) : Option Text := c.announced.head?

@[simp] theorem leave_enter (c : Context) (name : Text) : (c.enter name).leave = c := rfl

@[simp] theorem current?_enter (c : Context) (name : Text) :
    (c.enter name).current? = some name := rfl

end Context

/-- What outlives a context. -/
structure Shared where
  /-- The image stores, by number. -/
  stores : List ImageStore
  files : FileTree
  deriving DecidableEq

/-- What a run reads and changes. -/
structure RunState where
  context : Context
  shared : Shared
  deriving DecidableEq

/-- The name under which a context finds its image store. -/
def storeKey : Text := "darkroom.cache".toList

/-- The name under which a context keeps the images put aside. -/
def slotsKey : Text := "state".toList

namespace RunState

/-- The number of the image store of the context, if it has one. -/
def storeNumber? (s : RunState) : Option Nat := s.context.extensions.get? .store storeKey

/-- The image store of the context, if it has one. -/
def store? (s : RunState) : Option ImageStore := s.storeNumber?.bind fun n => s.shared.stores[n]?

/-- Replaces an image store. -/
def setStore (s : RunState) (number : Nat) (store : ImageStore) : RunState :=
  { s with shared := { s.shared with stores := s.shared.stores.set number store } }

/-- The images put aside, if there has been any. -/
def slots? (s : RunState) : Option Slots := s.context.extensions.get? .slots slotsKey

/-- Replaces the context. -/
def mapContext (s : RunState) (f : Context → Context) : RunState :=
  { s with context := f s.context }

end RunState

end PhotoPipeline
