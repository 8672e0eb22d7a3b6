/-
**Listing the kinds of elements.**

The kinds of elements in the order of the catalogue, each with its lines of help: as status lines,
or as a result in JSON.

Main definitions:

* `PhotoPipeline.Catalogue.listing` — the catalogue as a value;
* `PhotoPipeline.Work.list` — lists the kinds of elements;
* `PhotoPipeline.completionScript` — what a shell needs to complete command lines.
-/
import PhotoPipeline.Command.Desk
import PhotoPipeline.Report.Json

set_option relaxedAutoImplicit false
set_option autoImplicit false

namespace PhotoPipeline

/-! ### Listing -/

/-- A line of help as a value. -/
def HelpLine.value (h : HelpLine) : JsonValue :=
  .record [("usage".toList, .text h.usage), ("description".toList, .text h.description)]

/-- A kind of element as a value. -/
def ElementKind.value {ε : Type} (k : ElementKind ε) : JsonValue :=
  .record [("name".toList, .text k.name), ("usage".toList, .list (k.help.map HelpLine.value))]

/-- The catalogue as a value. -/
def Catalogue.listing {ε : Type} (c : Catalogue ε) : JsonValue :=
  .list (c.kinds.map ElementKind.value)

/-- A line of help as a status line. -/
def HelpLine.line (name : Text) (h : HelpLine) : StatusLine :=
  ⟨name, h.usage ++ "  ".toList ++ h.description, false⟩

/-- The help of a kind of element as status lines. -/
def ElementKind.lines {ε : Type} (k : ElementKind ε) : List StatusLine :=
  k.help.map (HelpLine.line k.name)

/-! ### Completion -/

/-- The words that a command line may start with. -/
def commandWords : Text :=
  List.intercalate [' '] (CommandName.all.map CommandName.word ++ [helpWord])

/-- What a shell needs to complete the first word of a command line. -/
def completionScript (shell : Text) : Text :=
  let words := commandWords
  match shown shell with
  | "bash" => "complete -W '".toList ++ words ++ "' darkroom\n".toList
  | "zsh" =>
    "#compdef darkroom\n_arguments '1:command:(".toList ++ words ++ ")' '*:file:_files'\n".toList
  | "fish" => "complete -c darkroom -n __fish_use_subcommand -a '".toList ++ words ++ "'\n".toList
  | "elvish" =>
    "set edit:completion:arg-completer[darkroom] = \x7b|@words| put ".toList ++ words ++
      " \x7d\n".toList
  | _ =>
    "Register-ArgumentCompleter -Native -CommandName darkroom -ScriptBlock \x7b '".toList ++
      words ++ "' -split ' ' \x7d\n".toList

namespace Work

/-- Lists the kinds of elements. -/
def list (s : Settings) (json : Bool) : Work Unit := do
  let c := s.catalogue
  if json then write (c.listing.pretty ++ ['\n'])
  else
    modify fun d => { d with status := d.status ++ c.kinds.flatMap ElementKind.lines }
    say "Listed" (counted c.size "element".toList "elements".toList)

end Work

end PhotoPipeline
