/-
**Command lines.**

A command line consists of words.  Before the command stand flags that concern all commands; they
are understood after it too, where they take precedence.  A value follows its flag as the next
word, or in the same word.  After two dashes every word is an operand.

What a word says is settled only when the next flag or operand comes, or at the end; so a word
that is not understood is reported before a wrong value that precedes it.

Main definitions:

* `PhotoPipeline.CommandLine`, `PhotoPipeline.Command` — what is asked for;
* `PhotoPipeline.WordShape` — what a word looks like;
* `PhotoPipeline.Reading` — how far a level has been read;
* `PhotoPipeline.CommandLine.ofWords` — reads a command line.
-/
import PhotoPipeline.CommandLine.Flag
import PhotoPipeline.Script.Scanner

set_option relaxedAutoImplicit false
set_option autoImplicit false

namespace PhotoPipeline

/-- What a command line asks for. -/
inductive Command where
  /-- Run a script once. -/
  | run (script : Text) (input output pipeline : Option Text)
  /-- Run a script on every image in a directory. -/
  | convert (script directory : Text) (output pipeline : Option Text)
  /-- Write a script in canonical form. -/
  | fmt (script : Text) (write : Bool)
  /-- List the kinds of elements. -/
  | list (json : Bool)
  /-- Write what a shell needs to complete command lines. -/
  | completions (shell : Text)
  deriving DecidableEq, Repr

/-- A command, and what concerns all commands. -/
structure CommandLine where
  config : Option Text
  vars : Vars
  verbose : Bool
  command : Command
  deriving DecidableEq, Repr

/-! ### Words -/

/-- What a word looks like. -/
inductive WordShape where
  /-- Two dashes. -/
  | escape
  /-- Two dashes and a name, perhaps with a value after an equals sign. -/
  | long (name : Text) (value : Option Text)
  /-- A dash and letters, the last of which may be followed by a value. -/
  | short (letters : Text)
  /-- Any other word. -/
  | plain
  deriving DecidableEq, Repr

namespace WordShape

/-- A name, perhaps with a value. -/
def ofName (t : Text) : WordShape :=
  match cutAtEquals t with
  | some (name, value) => .long name (some value)
  | none => .long t none

/-- What a word looks like. -/
def ofText : Text → WordShape
  | ['-', '-'] => .escape
  | '-' :: '-' :: t => ofName t
  | '-' :: c :: t => .short (c :: t)
  | _ => .plain

end WordShape

/-! ### Reading a level -/

/-- What has been said but is not settled yet. -/
inductive Pending where
  /-- A flag whose value may be still to come. -/
  | flag (f : Flag) (value : Option Text)
  | operand (o : Operand) (value : Text)
  deriving DecidableEq, Repr

/-- How far a level has been read. -/
structure Reading where
  /-- The flags given, with their values; a switch has the empty value. -/
  given : List (Flag × Text)
  operands : List Text
  pending : Option Pending
  deriving DecidableEq, Repr

namespace Reading

/-- Nothing has been read. -/
def empty : Reading := ⟨[], [], none⟩

/-- Whether a flag has been given. -/
def has (r : Reading) (f : Flag) : Bool := r.given.any fun e => e.1 == f

/-- The value of a flag. -/
def value? (r : Reading) (f : Flag) : Option Text := r.given.lookup f

/-- The variables given. -/
def vars (r : Reading) : Vars :=
  r.given.filterMap fun e => if e.1 = .var then (readVar e.2).toOption else none

/-- Gives a value to a flag; only variables may be given again. -/
def give (r : Reading) (f : Flag) (value : Text) : Except UsageProblem Reading :=
  if f ≠ .var ∧ r.has f then .error .repeatedFlag
  else
    match f.problem? value with
    | some problem => .error problem
    | none => .ok { r with given := r.given ++ [(f, value)] }

/-- Turns a switch on. -/
def turnOn (r : Reading) (f : Flag) : Except UsageProblem Reading :=
  match f with
  | .help => .error .help
  | .version => .error .version
  | f =>
    if r.has f then .error .repeatedFlag else .ok { r with given := r.given ++ [(f, [])] }

/-- Adds an operand. -/
def add (r : Reading) (o : Operand) (value : Text) : Except UsageProblem Reading :=
  match o.problem? value with
  | some problem => .error problem
  | none => .ok { r with operands := r.operands ++ [value] }

/-- Settles what is pending. -/
def settle (r : Reading) : Except UsageProblem Reading :=
  match r.pending with
  | none => .ok r
  | some (.flag _ none) => .error .badValue
  | some (.flag f (some value)) => ({ r with pending := none }).give f value
  | some (.operand o value) => ({ r with pending := none }).add o value

/-- The flag that waits for its value, if the next word may be one. -/
def awaiting? (r : Reading) : Option Flag :=
  match r.pending with
  | some (.flag f none) => some f
  | _ => none

/-- The number of operands so far. -/
def count (r : Reading) : Nat :=
  match r.pending with
  | some (.operand ..) => r.operands.length + 1
  | _ => r.operands.length

/-- Takes a flag, which may have a value in the same word. -/
def take (r : Reading) (f : Flag) (value : Option Text) : Except UsageProblem Reading :=
  match f.takesValue, value with
  | true, some value => do (← r.settle).give f value
  | true, none => do return { (← r.settle) with pending := some (.flag f none) }
  | false, some _ => .error .unneededValue
  | false, none => do (← r.settle).turnOn f

/-- Takes a word that starts with two dashes. -/
def takeLong (l : Level) (r : Reading) (name : Text) (value : Option Text) :
    Except UsageProblem Reading :=
  match l.named? name with
  | some f => r.take f value
  | none => .error .unknownArgument

/-- The value that follows a letter in the same word. -/
def attached? : Text → Option Text
  | [] => none
  | '=' :: t => some t
  | t => some t

/-- Takes the letters of a word that starts with a dash. -/
def takeShort (l : Level) (r : Reading) : Text → Except UsageProblem Reading
  | [] => .ok r
  | c :: t =>
    match l.lettered? c with
    | none => .error .unknownArgument
    | some f =>
      -- the rest of the word is the value
      if f.takesValue then r.take f (attached? t)
      else
        match r.take f none with
        | .ok r => takeShort l r t
        | .error problem => .error problem

/-- Takes an operand. -/
def takeOperand (l : Level) (trailing : Bool) (r : Reading) (word : Text) :
    Except UsageProblem Reading :=
  match l.operands[r.count]? with
  | some o => do return { (← r.settle) with pending := some (.operand o word) }
  | none => .error (l.excess trailing word)

/-- Takes a word for which no flag waits. -/
def takeWord (l : Level) (r : Reading) (word : Text) : Except UsageProblem Reading :=
  match WordShape.ofText word with
  | .long name value => r.takeLong l name value
  | .short letters => r.takeShort l letters
  | _ => r.takeOperand l false word

/-- Takes a word as the value of the flag that waits for it, unless it looks like a flag. -/
def takeValue (l : Level) (r : Reading) (f : Flag) (word : Text) : Except UsageProblem Reading :=
  match WordShape.ofText word with
  | .plain => .ok { r with pending := some (.flag f (some word)) }
  | _ => r.takeWord l word

end Reading

/-! ### Reading a command line -/

/-- What is asked for by the words after the word that asks for help. -/
def helpAbout : List Text → UsageProblem
  | [] => .help
  | [word] => if isCommandWord word then .help else .unknownCommand
  | _ => .unknownCommand

/-- Takes operands after two dashes. -/
def readOperands (l : Level) (r : Reading) : List Text → Except UsageProblem Reading
  | [] => .ok r
  | word :: words =>
    match r.takeOperand l true word with
    | .ok r => readOperands l r words
    | .error problem => .error problem

/-- Reads the words after a command. -/
def readCommandWords (c : CommandName) (r : Reading) : List Text → Except UsageProblem Reading
  | [] => .ok r
  | word :: words =>
    if WordShape.ofText word = .escape then readOperands (.command c) r words
    else
      let next := match r.awaiting? with
        | some f => r.takeValue (.command c) f word
        | none => r.takeWord (.command c) word
      match next with
      | .ok r => readCommandWords c r words
      | .error problem => .error problem

/-- The command of what has been read after its name. -/
def Command.ofReading? (c : CommandName) (r : Reading) : Option Command :=
  match c, r.operands with
  | .run, [script] => some (.run script (r.value? .input) (r.value? .output) (r.value? .pipeline))
  | .convert, [script, directory] =>
    some (.convert script directory (r.value? .output) (r.value? .pipeline))
  | .fmt, [script] => some (.fmt script (r.has .write))
  | .list, [] => some (.list (r.has .json))
  | .completions, [shell] => some (.completions shell)
  | _, _ => none

/-- Joins what was read before the command and after it. -/
def CommandLine.ofReadings (before after : Reading) (command : Command) : CommandLine where
  config := (after.value? .config).or (before.value? .config)
  vars := if after.has .var then after.vars else before.vars
  verbose := before.has .verbose || after.has .verbose
  command := command

/-- Reads the words after a command, and then settles what came before it. -/
def readAfterCommand (before : Reading) (c : CommandName) (words : List Text) :
    Except UsageProblem CommandLine := do
  let after ← (← readCommandWords c .empty words).settle
  match Command.ofReading? c after with
  | none => .error .missingOperand
  | some command => do return .ofReadings (← before.settle) after command

/-- What is missing where there is no command. -/
def withoutCommand (r : Reading) : Except UsageProblem CommandLine := do
  let r ← r.settle
  .error (if r.given.isEmpty then .nothing else .missingCommand)

/-- Reads words up to the command, and then the command. -/
def readTopWords (r : Reading) : List Text → Except UsageProblem CommandLine
  | [] => withoutCommand r
  | word :: words =>
    if WordShape.ofText word = .escape then do withoutCommand (← readOperands .top r words)
    else
      match r.awaiting?, CommandName.ofWord? word with
      -- a word that a flag waits for is no command
      | some f, _ =>
        match r.takeValue .top f word with
        | .ok r => readTopWords r words
        | .error problem => .error problem
      | none, some c => readAfterCommand r c words
      | none, none =>
        if word = helpWord then .error (helpAbout words)
        else
          match r.takeWord .top word with
          | .ok r => readTopWords r words
          | .error problem => .error problem

/-- Reads a command line. -/
def CommandLine.ofWords (words : List Text) : Except UsageProblem CommandLine :=
  readTopWords .empty words

end PhotoPipeline
