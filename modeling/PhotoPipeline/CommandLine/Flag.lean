/-
**Commands and flags.**

The vocabulary of the command line: the commands, the operands each of them takes, and the flags
that are understood before a command and after it.  A flag has a long name, some have a letter
too; a flag either takes a value or is a switch.

Main definitions:

* `PhotoPipeline.Flag`, `PhotoPipeline.CommandName` — the flags and the commands;
* `PhotoPipeline.Level` — a command, or what comes before it;
* `PhotoPipeline.readVar` — the variable of `NAME=VALUE`;
* `PhotoPipeline.UsageProblem` — what can be wrong with a command line.

Main results:

* `PhotoPipeline.readVar_eq_ok_iff` — the name of a variable ends at the first equals sign.
-/
import PhotoPipeline.Text.Basic

set_option relaxedAutoImplicit false
set_option autoImplicit false

namespace PhotoPipeline

/-- Why a command line is not carried out. -/
inductive UsageProblem where
  /-- A flag or an operand that is not understood. -/
  | unknownArgument
  | unknownCommand
  | missingOperand
  | missingCommand
  /-- A value that is missing, empty, or none of those allowed. -/
  | badValue
  /-- A value that is no variable. -/
  | badVariable
  /-- A value given to a switch. -/
  | unneededValue
  /-- A flag that was given before. -/
  | repeatedFlag
  /-- Nothing was asked for. -/
  | nothing
  /-- Help was asked for. -/
  | help
  /-- The version was asked for. -/
  | version
  deriving DecidableEq, Repr

/-! ### Variables -/

/-- A text that sets no variable. -/
structure VarError where
  text : Text
  deriving DecidableEq, Repr

/-- The wording of the error. -/
def VarError.message (e : VarError) : String :=
  "expected NAME=VALUE, found '" ++ shown e.text ++ "'"

/-- Cuts a text at the first equals sign. -/
def cutAtEquals : Text → Option (Text × Text)
  | [] => none
  | c :: t =>
    if c = '=' then some ([], t) else (cutAtEquals t).map fun parts => (c :: parts.1, parts.2)

/-- The name and the value of a variable; the name must not be empty. -/
def readVar (t : Text) : Except VarError (Text × Text) :=
  match cutAtEquals t with
  | some (c :: name, value) => .ok (c :: name, value)
  | _ => .error ⟨t⟩

theorem cutAtEquals_eq_some_iff {t name value : Text} :
    cutAtEquals t = some (name, value) ↔ '=' ∉ name ∧ t = name ++ '=' :: value := by
  induction t generalizing name value with
  | nil => simp [cutAtEquals]
  | cons c t ih =>
    rw [cutAtEquals]
    by_cases hc : c = '='
    · subst hc
      rw [if_pos rfl]
      cases name with
      | nil => simp
      | cons d name =>
        simp only [Option.some.injEq, Prod.mk.injEq, reduceCtorEq, false_and, List.mem_cons,
          not_or, List.cons_append, List.cons.injEq, false_iff, not_and]
        exact fun h hd => absurd hd h.1
    · rw [if_neg hc]
      cases name with
      | nil => simp [hc]
      | cons d name =>
        simp only [Option.map_eq_some_iff, Prod.exists, Prod.mk.injEq, List.cons.injEq, ih,
          List.mem_cons, not_or, List.cons_append]
        constructor
        · rintro ⟨a, b, ⟨h, rfl⟩, ⟨rfl, rfl⟩, rfl⟩
          exact ⟨⟨Ne.symm hc, h⟩, rfl, rfl⟩
        · rintro ⟨⟨-, h⟩, rfl, rfl⟩
          exact ⟨_, _, ⟨h, rfl⟩, ⟨rfl, rfl⟩, rfl⟩

theorem readVar_eq_ok_iff {t name value : Text} :
    readVar t = .ok (name, value) ↔ name ≠ [] ∧ '=' ∉ name ∧ t = name ++ '=' :: value := by
  rw [← cutAtEquals_eq_some_iff, readVar]
  cases h : cutAtEquals t with
  | none => simp
  | some parts =>
    obtain ⟨n, v⟩ := parts
    cases n with
    | nil =>
      simp only [Option.some.injEq, Prod.mk.injEq, reduceCtorEq, false_iff, not_and]
      exact fun hn h => absurd h.symm hn
    | cons c n =>
      simp only [Except.ok.injEq, Prod.mk.injEq, Option.some.injEq, ne_eq]
      exact ⟨fun h => ⟨fun he => by simp [← h.1] at he, h⟩, fun h => h.2⟩

/-! ### Flags -/

/-- The flags. -/
inductive Flag where
  | config
  | var
  | verbose
  | input
  | output
  | pipeline
  | write
  | json
  | help
  | version
  deriving DecidableEq, Repr

namespace Flag

/-- The long name. -/
def name : Flag → Text
  | config => "config".toList
  | var => "var".toList
  | verbose => "verbose".toList
  | input => "input".toList
  | output => "output".toList
  | pipeline => "pipeline".toList
  | write => "write".toList
  | json => "json".toList
  | help => "help".toList
  | version => "version".toList

/-- The letter. -/
def letter? : Flag → Option Char
  | verbose => some 'v'
  | input => some 'i'
  | output => some 'o'
  | pipeline => some 'p'
  | help => some 'h'
  | version => some 'V'
  | _ => none

/-- Whether the flag takes a value. -/
def takesValue : Flag → Bool
  | config | var | input | output | pipeline => true
  | _ => false

/-- What is wrong with a value. -/
def problem? (f : Flag) (value : Text) : Option UsageProblem :=
  match f with
  | var => if (readVar value).isOk then none else some .badVariable
  | pipeline => none
  | _ => if value.isEmpty then some .badValue else none

end Flag

/-! ### Commands -/

/-- What a command works on. -/
inductive Operand where
  /-- A file or a directory. -/
  | path
  /-- A shell. -/
  | shell
  deriving DecidableEq, Repr

/-- The shells that can complete command lines. -/
def shellNames : List Text :=
  ["bash", "elvish", "fish", "powershell", "zsh"].map String.toList

/-- What is wrong with an operand. -/
def Operand.problem? (o : Operand) (value : Text) : Option UsageProblem :=
  match o with
  | path => if value.isEmpty then some .badValue else none
  | shell => if shellNames.contains value then none else some .badValue

/-- The commands. -/
inductive CommandName where
  | run
  | convert
  | fmt
  | list
  | completions
  deriving DecidableEq, Repr

namespace CommandName

/-- The commands in the order in which they are listed. -/
def all : List CommandName := [run, convert, fmt, list, completions]

/-- The word for a command. -/
def word : CommandName → Text
  | run => "run".toList
  | convert => "convert".toList
  | fmt => "fmt".toList
  | list => "list".toList
  | completions => "completions".toList

/-- The command of a word. -/
def ofWord? (t : Text) : Option CommandName := all.find? fun c => c.word == t

/-- The operands that a command takes. -/
def operands : CommandName → List Operand
  | run | fmt => [.path]
  | convert => [.path, .path]
  | list => []
  | completions => [.shell]

/-- The flags of a command's own. -/
def flags : CommandName → List Flag
  | run => [.input, .output, .pipeline]
  | convert => [.output, .pipeline]
  | fmt => [.write]
  | list => [.json]
  | completions => []

@[simp] theorem ofWord?_word (c : CommandName) : ofWord? c.word = some c := by
  cases c <;> rfl

end CommandName

/-- The word that asks for help. -/
def helpWord : Text := "help".toList

/-- Whether a word is a command, or asks for help. -/
def isCommandWord (t : Text) : Bool := t == helpWord || (CommandName.ofWord? t).isSome

/-! ### Levels -/

/-- A part of the command line: what comes before the command, or what follows it. -/
inductive Level where
  | top
  | command (name : CommandName)
  deriving DecidableEq, Repr

namespace Level

/-- The flags that are understood at a level. -/
def flags : Level → List Flag
  | top => [.config, .var, .verbose, .help, .version]
  | command c => c.flags ++ [.config, .var, .verbose, .help]

/-- The operands that are taken at a level. -/
def operands : Level → List Operand
  | top => []
  | command c => c.operands

/-- The flag of a name. -/
def named? (l : Level) (name : Text) : Option Flag := l.flags.find? fun f => f.name == name

/-- The flag of a letter. -/
def lettered? (l : Level) (c : Char) : Option Flag := l.flags.find? fun f => f.letter? == some c

/-- What is wrong with an operand too many.  The word of a command is one only where commands are
not looked for any more. -/
def excess (l : Level) (trailing : Bool) (word : Text) : UsageProblem :=
  match l with
  | top => if trailing && isCommandWord word then .unknownArgument else .unknownCommand
  | command _ => .unknownArgument

end Level

end PhotoPipeline
