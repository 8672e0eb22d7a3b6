/-
**The desk.**

A command works on files, writes results, and says what it is doing.  An error ends it, but what
it has done and said until then stays.

Main definitions:

* `PhotoPipeline.Desk` — the files, the results and the status lines;
* `PhotoPipeline.Work` — a step of a command;
* `PhotoPipeline.Settings` — what concerns all commands;
* `PhotoPipeline.Work.settings` — the settings of a command line.
-/
import PhotoPipeline.CommandLine.Basic
import PhotoPipeline.Config.Basic
import PhotoPipeline.Kind.Builtin
import PhotoPipeline.Recipe.Decode
import PhotoPipeline.Report.Status

set_option relaxedAutoImplicit false
set_option autoImplicit false

namespace PhotoPipeline

/-- What a command works on, and what has come of it. -/
structure Desk where
  files : FileTree
  /-- The results. -/
  results : Text
  /-- The status lines in the order in which they were said. -/
  status : List StatusLine
  deriving DecidableEq

/-- A step of a command. -/
abbrev Work (α : Type) := ExceptT Error (StateM Desk) α

/-- What concerns all commands. -/
structure Settings where
  config : Config
  vars : Vars
  /-- The working directory. -/
  here : Text
  deriving DecidableEq

namespace Settings

/-- The kinds of elements that scripts may use. -/
def catalogue (s : Settings) : Catalogue Empty := .builtin s.config.cacheBudget

/-- A fresh context. -/
def context (s : Settings) (mode : Mode) : Context :=
  { s.catalogue.context mode with verbose := s.config.verbose }

/-- A path as status lines show it. -/
def display (s : Settings) (path : Text) : Text := Path.display s.here path

end Settings

/-- The configuration file that is read if none is named. -/
def configPath : Text := "./darkroom.yaml".toList

namespace Work

/-- Says something. -/
def say (verb : String) (message : Text) : Work Unit :=
  modify fun d => { d with status := d.status ++ [⟨verb.toList, message, false⟩] }

/-- Says something, and how long the work has taken. -/
def sayTimed (verb : String) (message : Text) : Work Unit :=
  modify fun d => { d with status := d.status ++ [⟨verb.toList, message, true⟩] }

/-- Writes results. -/
def write (t : Text) : Work Unit := modify fun d => { d with results := d.results ++ t }

/-- Replaces the files. -/
def setFiles (files : FileTree) : Work Unit := modify fun d => { d with files := files }

/-- Reads a text, in whose place a fault is reported as the given problem. -/
def readText (path : Text) (problem : FileFault → FileProblem) : Work Text := do
  match (← get).files.readText path with
  | .ok t => return t
  | .error fault => throw (.file path (problem fault))

/-- Reads an image. -/
def readImage (path : Text) : Work Image := do
  match (← get).files.readImage? path with
  | some image => return image
  | none => throw (.file path .readImage)

/-- Writes an image. -/
def writeImage (path : Text) (image : Image) : Work Unit := do
  let out := (← get).files.writeImage path image
  setFiles out.2
  ofExcept out.1

/-- Reads a configuration file. -/
def readConfig (path : Text) : Work Config := do
  match Config.ofText? (← readText path .readConfig) with
  | some config => return config
  | none => throw .config

/-- The configuration: of the file that is named, or of the usual one if it exists. -/
def config (path : Option Text) : Work Config := do
  match path with
  | some path => readConfig path
  | none => if (← get).files.isFile configPath then readConfig configPath else return .default

/-- The settings of a command line. -/
def settings (here : Text) (c : CommandLine) : Work Settings := do
  let config ← config c.config
  return {
    config := { config with verbose := config.verbose || c.verbose }
    vars := config.mergedVars c.vars
    here := here
  }

/-- Reads a script, and makes a recipe of it. -/
def readRecipe (s : Settings) (script : Text) : Work (Text × Recipe Empty) := do
  let source ← readText script .readScript
  let recipe ← ofExcept (Recipe.ofText s.catalogue source s.vars)
  return (source, recipe)

end Work

end PhotoPipeline
