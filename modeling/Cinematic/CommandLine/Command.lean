import Cinematic.CommandLine.Scan
import Cinematic.Session.Basic

/-!
# Commands

A command line that is understood is a **command** with everything that it needs, and how much
of the log is to be shown. Slots that were not filled have got their usual values here, and only
here.
-/

namespace Cinematic.CommandLine

/-- How a game is to be run. -/
structure Game where
  /-- What the session is opened with. -/
  options : Session.Options
  /-- The random seed, if one was given. -/
  seed : Option UInt16
deriving Repr, DecidableEq

/-- What is to be done. -/
inductive Command where
  /-- List the memory list of a directory. -/
  | memlist (dir : String)
  /-- Extract a resource, to a file named for it if no other is given. -/
  | unpack (id : UInt16) (dir : String) (output : Option String)
  /-- Pack a file into another. -/
  | pack (input output : String)
  /-- List the bytecode in a file, or that of a part if there is no file. -/
  | dump (input : Option String) (part : UInt16) (dir : String) (color : ColorChoice)
  /-- Run some frames and summarize them, perhaps as a document, perhaps with every step in the
  log. -/
  | run (game : Game) (frames : UInt32) (json logSteps : Bool)
  /-- Run some frames and print every step. -/
  | trace (game : Game) (frames : UInt32) (limit : Option Nat) (color : ColorChoice)
deriving Repr, DecidableEq

/-- A command line that is understood. -/
structure Invocation where
  /-- What is to be done. -/
  command : Command
  /-- How much of the log is to be shown. -/
  verbosity : Log.Verbosity
deriving Repr, DecidableEq

/-- The directory that a game is looked for in. -/
def usualDirectory : String := "share/another-world"

namespace Settings

/-- The directory of the game. -/
def directory (s : Settings) : String := s.datadir.getD usualDirectory

/-- The part that is meant. -/
def partId (s : Settings) : UInt16 := s.part.getD Part.protectionId

/-- When to colour what is printed. -/
def colorChoice (s : Settings) : ColorChoice := s.color.getD .auto

/-- What the machine is built with. -/
def machineConfig (s : Settings) : MachineConfig :=
  let usual := MachineConfig.standard
  { usual with
    variant := s.variant.getD usual.variant
    bypassProtection := !s.keepProtection
    fuel := s.fuel.getD usual.fuel }

/-- How the game is to be run. -/
def game (s : Settings) : Game :=
  ⟨⟨s.directory, s.dumpdir, s.partId, s.machineConfig⟩, s.seed⟩

/-- The operand of a command. -/
def operand {α : Type} (slot : Slot) (value : Option α) : Except UsageError α :=
  match value with
  | some a => .ok a
  | none => .error (.missingOperand slot)

/-- The command that some settings make. -/
def command (s : Settings) : Subcommand → Except UsageError Command
  | .memlist => .ok (.memlist s.directory)
  | .unpack => do
    let id ← operand .id s.id
    .ok (.unpack id s.directory s.output)
  | .pack => do
    let input ← operand .input s.input
    .ok (.pack input (s.output.getD (input ++ ".bk")))
  | .dump => .ok (.dump s.input s.partId s.directory s.colorChoice)
  | .run => .ok (.run s.game (s.frames.getD 100) s.json s.debugMachine)
  | .trace => .ok (.trace s.game (s.frames.getD 1) s.limit s.colorChoice)

end Settings

/-- **Understands a command line.** What follows the command is checked before what precedes it. -/
def parse (words : List String) : Except UsageError Invocation := do
  let (outer, chosen) ← scanToCommand words .start
  match chosen with
  | none => .error (if outer = .empty then .nothingGiven else .missingCommand)
  | some (subcommand, rest) =>
    let inner ← scan (.ofSubcommand subcommand) rest
    inner.checkExclusive
    let settings := inner.inherit outer
    let command ← settings.command subcommand
    outer.checkExclusive
    .ok ⟨command, settings.verbosity⟩

end Cinematic.CommandLine
