/-
**The command line.**

The paths of the files that a command may use are read from standard input, one a line.  The files
are loaded, the command is carried out on them, and what it has changed is written back.  Results
go to standard output, status lines and errors to standard error.
-/
import PhotoPipeline.Command.Perform
import PhotoPipeline.CommandLine.Usage
import PhotoPipeline.Picture.File

set_option relaxedAutoImplicit false
set_option autoImplicit false

namespace PhotoPipeline

/-- Reads the lines of a stream to its end. -/
partial def readLines (input : IO.FS.Stream) (lines : List String) : IO (List String) := do
  let line ← input.getLine
  if line.isEmpty then return lines.reverse
  readLines input (line.trimAsciiEnd.toString :: lines)

/-- Loads what is at a path; what cannot be read as a file is taken for a directory. -/
def loadNode (path : String) : IO FileNode := do
  try
    return .ofBytes path.toList (← IO.FS.readBinFile path)
  catch _ => return .directory

/-- Loads the files of the given paths. -/
def loadTree (paths : List String) : IO FileTree := do
  let mut tree : FileTree := []
  for path in paths do
    let place := FileTree.placeOf path.toList
    if !place.isEmpty then tree := tree.plant place (← loadNode path)
  return tree

/-- Writes what is at a place. -/
def storeNode (place : Place) (node : FileNode) : IO Unit := do
  let path := shown (FileTree.placePath place)
  match node.bytes? with
  | none => IO.FS.createDirAll path
  | some bytes => IO.FS.writeBinFile path ⟨bytes.toArray⟩

/-- Carries out a command line; the answer is the exit code. -/
def carryOut (c : CommandLine) : IO UInt32 := do
  let started ← IO.monoMsNow
  let here := ((← IO.getEnv "PWD").getD "/").toList
  let tree ← loadTree (← readLines (← IO.getStdin) [])
  let (out, desk) := c.perform here tree
  for (place, node) in tree.changes desk.files do storeNode place node
  let time := elapsedText (1000 * ((← IO.monoMsNow) - started))
  for line in desk.status do IO.eprintln (shown (line.text time))
  IO.print (shown desk.results)
  match out with
  | .ok () => return 0
  | .error e =>
    IO.eprintln ("Error: " ++ e.message)
    if let some help := e.help? then IO.eprintln ("  help: " ++ help)
    return 1

/-- Answers a command line that is not carried out; the answer is the exit code. -/
def refuse (problem : UsageProblem) : IO UInt32 := do
  match problem with
  | .help => IO.print usageText
  | .version => IO.print versionText
  | problem =>
    IO.eprintln ("error: " ++ problem.message)
    IO.eprint usageText
  return if problem.isAnswer then 0 else 2

end PhotoPipeline

/-- Reads the command line and carries it out. -/
def main (args : List String) : IO UInt32 := do
  match PhotoPipeline.CommandLine.ofWords (args.map String.toList) with
  | .ok c => PhotoPipeline.carryOut c
  | .error problem => PhotoPipeline.refuse problem
