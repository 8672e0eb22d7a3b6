/-
**Usage.**

What is said to someone who asks for help, or whose command line is not carried out.

Main definitions:

* `PhotoPipeline.usageText`, `PhotoPipeline.versionText` — the answers to those who ask;
* `PhotoPipeline.UsageProblem.message` — what is wrong with a command line.
-/
import PhotoPipeline.CommandLine.Flag

set_option relaxedAutoImplicit false
set_option autoImplicit false

namespace PhotoPipeline

/-- How the program is used. -/
def usageText : String :=
  "darkroom - declarative photo-editing pipelines\n\n" ++
  "Usage: find . | darkroom [FLAGS] COMMAND\n\n" ++
  "The paths of the files that a command may use are read from standard input.\n\n" ++
  "Commands:\n" ++
  "  run SCRIPT [-i IMAGE] [-o IMAGE] [-p NAME]      Run a script once\n" ++
  "  convert SCRIPT DIR [-o DIR] [-p NAME]           Run a script on every image in a directory\n" ++
  "  fmt SCRIPT [--write]                            Print a script in canonical form\n" ++
  "  list [--json]                                   List the available elements\n" ++
  "  completions bash|elvish|fish|powershell|zsh     Generate shell completions\n" ++
  "  help [COMMAND]                                  Print this text\n\n" ++
  "Flags:\n" ++
  "  --config FILE      Configuration file (default: ./darkroom.yaml when present)\n" ++
  "  --var NAME=VALUE   Script variable; repeatable\n" ++
  "  -v, --verbose      Log every pipeline step\n" ++
  "  -h, --help         Print help\n" ++
  "  -V, --version      Print version\n"

/-- The name and the version of the program. -/
def versionText : String := "darkroom 0.4.1\n"

namespace UsageProblem

/-- What is wrong with a command line. -/
def message : UsageProblem → String
  | unknownArgument => "unexpected argument"
  | unknownCommand => "unrecognized command"
  | missingOperand => "a required argument was not provided"
  | missingCommand => "a command is required"
  | badValue => "a value is missing or invalid"
  | badVariable => "a variable must be given as NAME=VALUE"
  | unneededValue => "a value was given to a flag that takes none"
  | repeatedFlag => "a flag was given more than once"
  | nothing => "nothing to do"
  | help => "help was asked for"
  | version => "the version was asked for"

/-- Whether the answer was asked for. -/
def isAnswer : UsageProblem → Bool
  | help | version => true
  | _ => false

end UsageProblem

end PhotoPipeline
