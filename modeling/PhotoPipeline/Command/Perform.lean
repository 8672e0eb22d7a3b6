/-
**Carrying out a command line.**

First the settings are read, then the command is carried out.

Main definitions:

* `PhotoPipeline.Work.perform` — carries out a command;
* `PhotoPipeline.CommandLine.perform` — carries out a command line on files.
-/
import PhotoPipeline.Command.Convert
import PhotoPipeline.Command.Format
import PhotoPipeline.Command.Listing
import PhotoPipeline.Command.Run

set_option relaxedAutoImplicit false
set_option autoImplicit false

namespace PhotoPipeline

/-- Carries out a command. -/
def Work.perform (s : Settings) : Command → Work Unit
  | .run script input output label => runScript s script input output label
  | .convert script directory output label => convert s script directory output label
  | .fmt script inPlace => format s script inPlace
  | .list json => list s json
  | .completions shell => write (completionScript shell)

namespace CommandLine

/-- The work of a command line. -/
def work (c : CommandLine) (here : Text) : Work Unit := do
  Work.perform (← Work.settings here c) c.command

/-- Carries out a command line on files, in the given working directory. -/
def perform (c : CommandLine) (here : Text) (files : FileTree) : Except Error Unit × Desk :=
  (c.work here).run.run ⟨files, [], []⟩

end CommandLine

end PhotoPipeline
