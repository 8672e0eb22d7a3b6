/-
**Sessions.**

A session runs recipes in several contexts over one catalogue.  The contexts share the image
stores and the files; each has resources of its own, and a flag by which it can be asked to stop.
Two contexts may share a flag.

Main definitions:

* `PhotoPipeline.Session` — contexts by name, and what they share;
* `PhotoPipeline.Session.openContext` — starts a context;
* `PhotoPipeline.Session.run` — runs a recipe in a context;
* `PhotoPipeline.Session.setCancelled`, `PhotoPipeline.Session.clearCache`.

Main results:

* `PhotoPipeline.Session.find?_put_self` — the context that was put is found.
-/
import PhotoPipeline.Kind.Basic
import PhotoPipeline.Recipe.Basic

set_option relaxedAutoImplicit false
set_option autoImplicit false

namespace PhotoPipeline

/-- A context of a session. -/
structure SessionContext where
  /-- The number of the flag by which it can be asked to stop. -/
  flag : Nat
  context : Context
  deriving DecidableEq

/-- Contexts by name, and what they share. -/
structure Session where
  shared : Shared
  flags : List Bool
  contexts : List (Text × SessionContext)

namespace Session

/-- A session without contexts. -/
def start (shared : Shared) : Session := ⟨shared, [], []⟩

/-- The context of a name. -/
def find? (s : Session) (name : Text) : Option SessionContext := s.contexts.lookup name

/-- Puts a context under a name. -/
def put (s : Session) (name : Text) (c : SessionContext) : Session :=
  { s with contexts := (name, c) :: s.contexts.filter fun e => !(e.1 == name) }

/-- Whether a context has been asked to stop. -/
def isCancelled (s : Session) (c : SessionContext) : Bool := s.flags.getD c.flag false

/-- Raises or lowers the flag of a context. -/
def setCancelled (s : Session) (c : SessionContext) (b : Bool) : Session :=
  { s with flags := s.flags.set c.flag b }

/-- Starts a context with a flag of its own. -/
def openContext (s : Session) (name : Text) (context : Context) : Session :=
  ({ s with flags := s.flags ++ [context.cancelled] }).put name ⟨s.flags.length, context⟩

/-- Starts a context that shares the flag of another. -/
def openSharing (s : Session) (name : Text) (other : SessionContext) (context : Context) :
    Session :=
  s.put name ⟨other.flag, context⟩

/-- What a run in a context starts from. -/
def runState (s : Session) (c : SessionContext) : RunState :=
  ⟨{ c.context with cancelled := s.isCancelled c }, s.shared⟩

/-- What a run in a context leaves. -/
def absorb (s : Session) (name : Text) (c : SessionContext) (after : RunState) : Session :=
  let s := ({ s with shared := after.shared }).setCancelled c after.context.cancelled
  s.put name { c with context := after.context }

/-- Runs a recipe in a context. -/
def run {ε : Type} [Plugin ε] (s : Session) (name : Text) (c : SessionContext) (r : Recipe ε)
    (label : Option Text) (image : Option Image) : Except Halted (Option Image) × Session :=
  let out := r.run label image (s.runState c)
  (out.1, s.absorb name c out.2)

/-- Drops everything from the image store of a context; tells whether the store is empty then. -/
def clearCache (s : Session) (c : SessionContext) : Option Bool × Session :=
  let state := s.runState c
  match state.storeNumber?, state.store? with
  | some number, some store =>
    (some store.clear.isEmpty, { s with shared := (state.setStore number store.clear).shared })
  | _, _ => (none, s)

@[simp] theorem find?_put_self (s : Session) (name : Text) (c : SessionContext) :
    (s.put name c).find? name = some c := by
  simp [find?, put]

end Session

end PhotoPipeline
