import Cinematic.CommandLine.Argument
import Cinematic.Log.Filter
import Cinematic.Machine.State
import Cinematic.Part

/-!
# Values of arguments

What was said on the command line, and nothing else, is kept in **settings**: a slot that has not
been filled holds nothing, so that it can be told apart from one that was filled with its usual
value. A slot is filled once.

Each slot has its own kind of value. Paths are any text but the empty one; resource ids and seeds
are words, decimal or hexadecimal; parts have names or ids; counts are numbers of 32 bits or, for
the lines of a trace, of 64; the rest are chosen from a list.
-/

namespace Cinematic.CommandLine

/-- Why a command line is not understood. -/
inductive UsageError where
  /-- An explanation was asked for. -/
  | help
  /-- Nothing was said. -/
  | nothingGiven
  /-- No command was given. -/
  | missingCommand
  /-- There is no such command. -/
  | unknownCommand (word : String)
  /-- There is no such argument. -/
  | unknownArgument (word : String)
  /-- A switch was given a value. -/
  | valueForSwitch (switch : Switch)
  /-- An option was given no value. -/
  | missingValue (slot : Slot)
  /-- A value is not one of those that are possible. -/
  | impossibleValue (slot : Slot) (text : String)
  /-- A value cannot be read. -/
  | unreadableValue (slot : Slot) (text : String)
  /-- A slot was filled twice. -/
  | repeatedSlot (slot : Slot)
  /-- A switch was given twice. -/
  | repeatedSwitch (switch : Switch)
  /-- Quiet and verbose exclude each other. -/
  | quietAndVerbose
  /-- A file and a part exclude each other. -/
  | fileAndPart
  /-- The command needs an operand. -/
  | missingOperand (slot : Slot)
deriving Repr, DecidableEq

/-- When to colour what is printed. -/
inductive ColorChoice where
  /-- If a terminal shows it. -/
  | auto
  | always
  | never
deriving Repr, DecidableEq

/-- The choice that a word means. -/
def ColorChoice.ofText? (text : String) : Option ColorChoice :=
  if text = "auto" then some auto
  else if text = "always" then some always
  else if text = "never" then some never
  else none

/-- Whether a choice means colour; `terminal` says whether a terminal shows what is printed. -/
def ColorChoice.colored (terminal : Bool) : ColorChoice → Bool
  | auto => terminal
  | always => true
  | never => false

/-- The release that a word means. -/
def variantOfText? (text : String) : Option Variant :=
  if text = "another-world" then some .anotherWorld
  else if text = "out-of-this-world" then some .outOfThisWorld
  else none

/-- A number of 32 bits; it may have a sign. -/
def count32? (text : String) : Option UInt32 :=
  ((Text.integer? 10 text.toList).filter fun n => 0 ≤ n ∧ n ≤ 0xFFFFFFFF).map fun n =>
    n.toNat.toUInt32

/-- A number of 64 bits. -/
def count64? (text : String) : Option Nat :=
  Text.naturalBelow? 10 0x10000000000000000 text.toList

/-- A path is any text but the empty one. -/
def path? (text : String) : Option String := if text.isEmpty then none else some text

/-- **What was said on the command line.** The fields are named for the slots and the switches that they
keep. -/
structure Settings where
  datadir : Option String := none
  dumpdir : Option String := none
  output : Option String := none
  input : Option String := none
  id : Option UInt16 := none
  part : Option UInt16 := none
  seed : Option UInt16 := none
  fuel : Option UInt32 := none
  frames : Option UInt32 := none
  limit : Option Nat := none
  variant : Option Variant := none
  color : Option ColorChoice := none
  json : Bool := false
  keepProtection : Bool := false
  verbose : Nat := 0
  quiet : Bool := false
  debugMachine : Bool := false
  debugBank : Bool := false
deriving Repr, DecidableEq

namespace Settings

/-- Nothing said. -/
def empty : Settings := {}

/-- Whether a slot has been filled. -/
def isFilled (s : Settings) : Slot → Bool
  | .datadir => s.datadir.isSome
  | .dumpdir => s.dumpdir.isSome
  | .output => s.output.isSome
  | .input => s.input.isSome
  | .id => s.id.isSome
  | .part => s.part.isSome
  | .seed => s.seed.isSome
  | .fuel => s.fuel.isSome
  | .frames => s.frames.isSome
  | .limit => s.limit.isSome
  | .variant => s.variant.isSome
  | .color => s.color.isSome

/-- The value that a text has for a slot, put into the slot; `none` if it has none. -/
def put? (s : Settings) (slot : Slot) (text : String) : Option Settings :=
  match slot with
  | .datadir => (path? text).map fun v => { s with datadir := some v }
  | .dumpdir => (path? text).map fun v => { s with dumpdir := some v }
  | .output => (path? text).map fun v => { s with output := some v }
  | .input => (path? text).map fun v => { s with input := some v }
  | .id => (Text.word? text).map fun v => { s with id := some v }
  | .part => (Part.ofText? text).map fun v => { s with part := some v.id }
  | .seed => (Text.word? text).map fun v => { s with seed := some v }
  | .fuel => (count32? text).map fun v => { s with fuel := some v }
  | .frames => (count32? text).map fun v => { s with frames := some v }
  | .limit => (count64? text).map fun v => { s with limit := some v }
  | .variant => (variantOfText? text).map fun v => { s with variant := some v }
  | .color => (ColorChoice.ofText? text).map fun v => { s with color := some v }

/-- What is wrong with a value that a slot does not take. -/
def refusal (slot : Slot) (text : String) : UsageError :=
  match slot with
  | .id | .part | .seed | .fuel | .frames | .limit => .unreadableValue slot text
  | _ => .impossibleValue slot text

/-- **The settings with a slot filled.** That the slot is filled already is found before the value is
looked at. -/
def fill (s : Settings) (slot : Slot) (text : String) : Except UsageError Settings :=
  if s.isFilled slot then .error (.repeatedSlot slot)
  else
    match s.put? slot text with
    | some filled => .ok filled
    | none => .error (refusal slot text)

/-- **The settings with a switch turned on.** More can be asked for again and again. -/
def turnOn (s : Settings) (switch : Switch) : Except UsageError Settings :=
  let once (on : Bool) (turned : Settings) : Except UsageError Settings :=
    if on then .error (.repeatedSwitch switch) else .ok turned
  match switch with
  | .verbose => .ok { s with verbose := s.verbose + 1 }
  | .quiet => once s.quiet { s with quiet := true }
  | .debugMachine => once s.debugMachine { s with debugMachine := true }
  | .debugBank => once s.debugBank { s with debugBank := true }
  | .json => once s.json { s with json := true }
  | .keepProtection => once s.keepProtection { s with keepProtection := true }
  | .help => .error .help

/-- Arguments that exclude each other must not both be there. -/
def checkExclusive (s : Settings) : Except UsageError Unit :=
  if s.quiet ∧ s.verbose ≠ 0 then .error .quietAndVerbose
  else if s.input.isSome ∧ s.part.isSome then .error .fileAndPart
  else .ok ()

/-- The settings of a command, with the switches given before it. What is said after the command
counts more. -/
def inherit (s outer : Settings) : Settings :=
  { s with
    verbose := if s.verbose ≠ 0 then s.verbose else outer.verbose
    quiet := s.quiet || outer.quiet
    debugMachine := s.debugMachine || outer.debugMachine
    debugBank := s.debugBank || outer.debugBank }

/-- How much of the log is asked for. -/
def verbosity (s : Settings) : Log.Verbosity := ⟨s.verbose, s.quiet, s.debugMachine, s.debugBank⟩

end Settings

end Cinematic.CommandLine
