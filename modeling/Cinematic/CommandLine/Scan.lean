import Cinematic.CommandLine.Settings

/-!
# Scanning a command line

The words are taken one after the other. **A value that stands in a word of its own is looked at
late**: it waits until the next argument that is understood, or the end. A word that is not
understood at all is therefore complained about before the value that precedes it, and an option
without a value only when something else has to be done.

After two dashes alone every word is an operand. Before a command, a word standing alone must be
that of a command.
-/

namespace Cinematic.CommandLine

/-- How far a command line has been scanned. -/
structure Scan where
  /-- What has been understood. -/
  settings : Settings
  /-- A slot that is to be filled, with its value if that has been seen. -/
  pending : Option (Slot × Option String)
  /-- Whether the operand has been seen. -/
  operandSeen : Bool
  /-- Whether two dashes have been seen. -/
  escaped : Bool
deriving Repr

namespace Scan

/-- Nothing scanned. -/
def start : Scan := ⟨.empty, none, false, false⟩

/-- Fills the slot that is to be filled. -/
def resolve (s : Scan) : Except UsageError Scan :=
  match s.pending with
  | none => .ok s
  | some (slot, none) => .error (.missingValue slot)
  | some (slot, some text) => do
    let settings ← s.settings.fill slot text
    .ok { s with settings := settings, pending := none }

/-- Turns a switch on. -/
def turnOn (s : Scan) (switch : Switch) : Except UsageError Scan := do
  let s ← s.resolve
  let settings ← s.settings.turnOn switch
  .ok { s with settings := settings }

/-- Takes an option, with its value if that is in the same word. -/
def takeOption (s : Scan) (slot : Slot) (value : Option String) : Except UsageError Scan := do
  let s ← s.resolve
  match value with
  | none => .ok { s with pending := some (slot, none) }
  | some text =>
    let settings ← s.settings.fill slot text
    .ok { s with settings := settings }

/-- The value that follows the letter of an option in the same word; an equals sign before it does
not belong to it. -/
def attachedValue : List Char → Option String
  | [] => none
  | '=' :: rest => some (String.ofList rest)
  | rest => some (String.ofList rest)

/-- Takes letters. -/
def takeLetters (g : Grammar) (word : String) : List Char → Scan → Except UsageError Scan
  | [], s => .ok s
  | c :: rest, s =>
    match g.optionOfLetter? c with
    | some slot => s.takeOption slot (attachedValue rest)
    | none =>
      match g.switchOfLetter? c with
      | some switch => do takeLetters g word rest (← s.turnOn switch)
      | none => .error (.unknownArgument word)

/-- Takes a name after two dashes. -/
def takeName (g : Grammar) (word name : String) (value : Option String) (s : Scan) :
    Except UsageError Scan :=
  match g.option? name with
  | some slot => s.takeOption slot value
  | none =>
    match g.switch? name, value with
    | some switch, none => s.turnOn switch
    | some switch, some _ => .error (.valueForSwitch switch)
    | none, _ => .error (.unknownArgument word)

/-- What is wrong with a word that stands alone where none is expected. -/
def strayWord (g : Grammar) (word : String) (s : Scan) : UsageError :=
  if ¬ g.commands ∨ (s.escaped ∧ isCommandWord word) then .unknownArgument word
  else .unknownCommand word

/-- Takes a word that stands alone. -/
def takeOperand (g : Grammar) (word : String) (s : Scan) : Except UsageError Scan :=
  match g.operand, s.operandSeen with
  | some slot, false => do
    let s ← s.resolve
    .ok { s with pending := some (slot, some word), operandSeen := true }
  | _, _ => .error (strayWord g word s)

/-- Takes a word. -/
def take (g : Grammar) (word : String) (s : Scan) : Except UsageError Scan :=
  if s.escaped then takeOperand g word s
  else
    match Word.ofText word with
    | .escape => .ok { s with escaped := true }
    | .long name value => takeName g word name value s
    | .short letters => takeLetters g word letters s
    | .plain =>
      match s.pending with
      | some (slot, none) => .ok { s with pending := some (slot, some word) }
      | _ => takeOperand g word s

end Scan

/-- The settings that some words make. -/
def scan (g : Grammar) (words : List String) : Except UsageError Settings := do
  let s ← words.foldlM (fun s word => s.take g word) Scan.start
  return (← s.resolve).settings

/-- What is wrong with a request to explain a command: nothing, if the words name one. -/
def helpOn : List String → UsageError
  | [] => .help
  | word :: rest =>
    if isCommandWord word then
      match rest with
      | [] => .help
      | stray :: _ => .unknownCommand stray
    else .unknownCommand word

/-- Takes words up to that of a command: the settings so far, and the command with the words that
follow it, if there is one. -/
def scanToCommand :
    List String → Scan → Except UsageError (Settings × Option (Subcommand × List String))
  | [], s => .ok (s.settings, none)
  | word :: rest, s =>
    if ¬ s.escaped ∧ word = helpWord then .error (helpOn rest)
    else
      match s.escaped, Subcommand.ofName? word with
      | false, some command => .ok (s.settings, some (command, rest))
      | _, _ => do scanToCommand rest (← s.take .root word)

end Cinematic.CommandLine
