/-
**Nodes.**

A YAML document is a tree of scalars, sequences and mappings.  A node may be given a name; an
alias is a leaf that stands for the node of a name.

A name goes by its number, which is the number of different names that were given before it.  When
a name is given once more it gets its number anew, and that may be the one of a name that follows.
An alias has the number that its name has at that place, and stands for the last node of the whole
document that got this number.

Main definitions:

* `PhotoPipeline.Yaml.Node` — trees;
* `PhotoPipeline.Yaml.Document` — a tree and its nodes with names;
* `PhotoPipeline.Yaml.Document.ofText?` — the document of a text, if the text is one well-formed
  document.
-/
import PhotoPipeline.Yaml.Token

set_option relaxedAutoImplicit false
set_option autoImplicit false

namespace PhotoPipeline

namespace Yaml

/-- The content of a document. -/
inductive Node where
  | scalar (style : Style) (tag : Tag) (text : Text)
  | sequence (items : List Node)
  | mapping (entries : List (Node × Node))
  /-- The node of a name, by the number of the name. -/
  | alias (number : Nat)

namespace Node

/-- What stands where nothing is written. -/
def empty : Node := scalar .plain [] []

/-- Whether nothing is written, a tag apart. -/
def isEmpty : Node → Bool
  | scalar .plain _ [] => true
  | _ => false

end Node

/-- A tree, and its nodes with names by the numbers of those, in the order in which they start. -/
structure Document where
  root : Node
  named : Array (Nat × Node)

namespace Document

/-- What a node stands for. -/
def look (d : Document) : Node → Node
  | .alias number =>
    match d.named.toList.reverse.lookup number with
    | some n => n
    | none => .empty
  | n => n

end Document

/-! ### Reading tokens -/

/-- What is left to be read, the numbers of names, and the nodes with names; a node that is still
being read counts as empty. -/
structure Reading where
  tokens : List Token
  numbers : List (Text × Nat)
  named : Array (Nat × Node)
  /-- The handles that tags may have, and what they stand for. -/
  handles : List (Text × Tag)

/-- A step of reading. -/
abbrev NodeReader (α : Type) := StateT Reading Option α

namespace NodeReader

/-- The next token. -/
def peek : NodeReader (Option Token) := do return (← get).tokens.head?

/-- Goes past the next token. -/
def skip : NodeReader Unit := modify fun r => { r with tokens := r.tokens.tail }

/-- Goes past the next token if it is the given one, and says whether it was. -/
def accept (t : Token) : NodeReader Bool := do
  if (← peek) = some t then
    skip
    return true
  else return false

/-- Whether the next token is one of the given ones. -/
def isNext (ts : List Token) : NodeReader Bool := do
  return (← peek).any ts.contains

/-- Reads an anchor, if there is one. -/
def anchor? : NodeReader (Option Text) := do
  match ← peek with
  | some (.anchor name) =>
    skip
    return some name
  | _ => return none

/-- Reads a tag, if there is one; its handle has to be known. -/
def tag? : NodeReader (Option Tag) := do
  match ← peek with
  | some (.tag handle rest) =>
    if handle.isEmpty then
      skip
      return some rest
    else
      match (← get).handles.lookup handle with
      | some value =>
        skip
        return some (value ++ rest)
      | none => failure
  | _ => return none

/-- Reads an anchor and a tag in either order. -/
def properties : NodeReader (Option Text × Option Tag) := do
  match ← anchor? with
  | some name => return (some name, ← tag?)
  | none =>
    match ← tag? with
    | some tag => return (← anchor?, some tag)
    | none => return (none, none)

/-- The alias of a name. -/
def aliasOf (name : Text) : NodeReader Node := do
  match (← get).numbers.lookup name with
  | some number => return .alias number
  | none => failure

/-- Gives a name to the node that `read` reads, before it is read. -/
def bind (name : Text) (read : NodeReader Node) : NodeReader Node := do
  let r ← get
  let number := r.numbers.length
  set { r with
    numbers := (name, number) :: r.numbers.filter fun e => e.1 != name,
    named := r.named.push (number, .empty) }
  let n ← read
  modify fun now => { now with named := now.named.setIfInBounds r.named.size (number, n) }
  return n

mutual

/-- Reads a node.  A block collection may start here if `block` says so, and a sequence that is
not indented if `indentless` does. -/
def node (block indentless : Bool) : Nat → NodeReader Node
  | 0 => failure
  | fuel + 1 => do
    match ← peek with
    | some (.alias name) =>
      skip
      aliasOf name
    | _ =>
      match ← properties with
      | (some name, tag) => bind name (content block indentless (some (tag.getD [])) fuel)
      | (none, tag) => content block indentless tag fuel

/-- Reads the content of a node; where it is marked, with a tag or without, it may be missing. -/
def content (block indentless : Bool) (mark : Option Tag) : Nat → NodeReader Node
  | 0 => failure
  | fuel + 1 => do
    let missing : NodeReader Node :=
      match mark with
      | some tag => return .scalar .plain tag []
      | none => failure
    match ← peek with
    | some (.scalar style text) =>
      skip
      return .scalar style (mark.getD []) text
    | some .flowSequenceStart =>
      skip
      return .sequence (← flowItems true fuel)
    | some .flowMappingStart =>
      skip
      return .mapping (← flowEntries true fuel)
    | some .blockEntry =>
      if indentless then return .sequence (← plainItems fuel)
      else missing
    | some .blockSequenceStart =>
      if block then
        skip
        return .sequence (← blockItems fuel)
      else missing
    | some .blockMappingStart =>
      if block then
        skip
        return .mapping (← blockEntries fuel)
      else missing
    | _ => missing

/-- Reads a node unless one of the given tokens comes. -/
def nodeUnless (stops : List Token) (block indentless : Bool) : Nat → NodeReader Node
  | 0 => failure
  | fuel + 1 => do
    if ← isNext stops then return .empty
    else node block indentless fuel

/-- Reads the items of a block sequence. -/
def blockItems : Nat → NodeReader (List Node)
  | 0 => failure
  | fuel + 1 => do
    if ← accept .blockEntry then
      let first ← nodeUnless [.blockEntry, .blockEnd] true false fuel
      return first :: (← blockItems fuel)
    else if ← accept .blockEnd then return []
    else failure

/-- Reads the items of a block sequence that is not indented. -/
def plainItems : Nat → NodeReader (List Node)
  | 0 => failure
  | fuel + 1 => do
    if ← accept .blockEntry then
      let first ← nodeUnless [.blockEntry, .key, .value, .blockEnd] true false fuel
      return first :: (← plainItems fuel)
    else return []

/-- Reads the entries of a block mapping. -/
def blockEntries : Nat → NodeReader (List (Node × Node))
  | 0 => failure
  | fuel + 1 => do
    if ← accept .key then
      let key ← nodeUnless [.key, .value, .blockEnd] true true fuel
      let value ←
        if ← accept .value then nodeUnless [.key, .value, .blockEnd] true true fuel
        else pure .empty
      return (key, value) :: (← blockEntries fuel)
    else if ← accept .blockEnd then return []
    else failure

/-- Reads the items of a sequence in brackets. -/
def flowItems (isFirst : Bool) : Nat → NodeReader (List Node)
  | 0 => failure
  | fuel + 1 => do
    if ← accept .flowSequenceEnd then return []
    else
      if !isFirst then
        if !(← accept .flowEntry) then failure
      if ← accept .flowSequenceEnd then return []
      else if ← accept .key then
        let key ←
          if ← isNext [.value, .flowEntry, .flowSequenceEnd] then
            -- the token after an empty key is lost
            skip
            pure .empty
          else node false false fuel
        let value ←
          if ← accept .value then nodeUnless [.flowEntry, .flowSequenceEnd] false false fuel
          else pure .empty
        return .mapping [(key, value)] :: (← flowItems false fuel)
      else
        let first ← node false false fuel
        return first :: (← flowItems false fuel)

/-- Reads the entries of a mapping in braces. -/
def flowEntries (isFirst : Bool) : Nat → NodeReader (List (Node × Node))
  | 0 => failure
  | fuel + 1 => do
    if ← accept .flowMappingEnd then return []
    else
      if !isFirst then
        if !(← accept .flowEntry) then failure
      if ← accept .flowMappingEnd then return []
      else if ← accept .key then
        let key ← nodeUnless [.value, .flowEntry, .flowMappingEnd] false false fuel
        let value ←
          if ← accept .value then nodeUnless [.flowEntry, .flowMappingEnd] false false fuel
          else pure .empty
        return (key, value) :: (← flowEntries false fuel)
      else
        let key ← node false false fuel
        return (key, .empty) :: (← flowEntries false fuel)

end

/-! ### Documents -/

/-- Whether a version is one that can be read. -/
def isKnownVersion (major minor : Nat) : Bool := major == 1 && (minor == 1 || minor == 2)

/-- Reads the directives in front of a document; says whether there were any.  Neither the version
nor a handle may be declared twice. -/
def directives (versioned : Bool) : Nat → NodeReader Bool
  | 0 => return false
  | fuel + 1 => do
    match ← peek with
    | some (.version major minor) =>
      if versioned || !isKnownVersion major minor then failure
      skip
      let _ ← directives true fuel
      return true
    | some (.handle name value) =>
      skip
      let r ← get
      if (r.handles.lookup name).isSome then failure
      set { r with handles := (name, value) :: r.handles }
      let _ ← directives versioned fuel
      return true
    | _ => return false

/-- The handles that need not be declared. -/
def usualHandles : List (Text × Tag) := [(['!'], Tag.unspecified), (['!', '!'], Tag.usual "")]

/-- Whether the next token comes between documents. -/
def isBetween : Option Token → Bool
  | none | some (.version ..) | some (.handle ..) | some .documentStart | some .documentEnd => true
  | _ => false

/-- Goes past the marks at the end of a document. -/
def skipEnds : Nat → NodeReader Unit
  | 0 => return ()
  | fuel + 1 => do
    if ← accept .documentEnd then skipEnds fuel

/-- Reads the tree of one document, after which nothing may come. -/
def root (fuel : Nat) : NodeReader Node := do
  let declared ← directives false fuel
  modify fun r => { r with handles := r.handles ++ usualHandles }
  let started ← accept .documentStart
  if declared && !started then failure
  let next ← peek
  let n ← if next.isNone || (started && isBetween next) then pure .empty
    else node true false fuel
  skipEnds fuel
  if (← peek).isSome then failure
  return n

end NodeReader

/-- The document of a text. -/
def Document.ofText? (t : Text) : Option Document := do
  let ts ← tokens t
  let (root, r) ← NodeReader.root (4 * ts.length + 4) ⟨ts, [], #[], []⟩
  return ⟨root, r.named⟩

end Yaml

end PhotoPipeline
