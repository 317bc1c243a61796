import Cinematic.Text.Split

/-!
# The arguments of the command line

An argument of a command is a **slot** that takes a value or a **switch** that takes none. Most
slots are options, filled by name; a few are operands, filled by a word that stands alone. Which
of them a command accepts is its *grammar*.

The words of a command line are of four forms, told apart by their first characters: long names
after two dashes, letters after one, the two dashes alone, and everything else. **A value may be
written in the same word** – after an equals sign, or directly after the letter of an option.
-/

namespace Cinematic.CommandLine

/-- An argument that takes a value. -/
inductive Slot where
  /-- The directory of the game. -/
  | datadir
  /-- The directory to dump loaded resources to. -/
  | dumpdir
  /-- The file to write to. -/
  | output
  /-- The file to read. -/
  | input
  /-- A resource id. -/
  | id
  /-- A part. -/
  | part
  /-- The random seed. -/
  | seed
  /-- How many instructions a pass may execute. -/
  | fuel
  /-- How many frames to run. -/
  | frames
  /-- How many lines a trace may have. -/
  | limit
  /-- The release of the game. -/
  | variant
  /-- When to colour what is printed. -/
  | color
deriving Repr, DecidableEq

/-- The name of a slot; an option is filled by two dashes and its name. -/
def Slot.name : Slot → String
  | datadir => "datadir"
  | dumpdir => "dumpdir"
  | output => "output"
  | input => "FILE"
  | id => "ID"
  | part => "part"
  | seed => "seed"
  | fuel => "fuel"
  | frames => "frames"
  | limit => "limit"
  | variant => "variant"
  | color => "color"

/-- The letter by which an option is filled, if it has one. -/
def Slot.letter? : Slot → Option Char
  | output => some 'o'
  | _ => none

/-- An argument that takes no value. -/
inductive Switch where
  /-- Log more. -/
  | verbose
  /-- Log errors only. -/
  | quiet
  /-- Log every instruction. -/
  | debugMachine
  /-- Log what is loaded. -/
  | debugBank
  /-- Print the summary as a document. -/
  | json
  /-- Do not answer the code-wheel screen for the player. -/
  | keepProtection
  /-- Explain the arguments. -/
  | help
deriving Repr, DecidableEq

/-- The name of a switch. -/
def Switch.name : Switch → String
  | verbose => "verbose"
  | quiet => "quiet"
  | debugMachine => "debug-vm"
  | debugBank => "debug-bank"
  | json => "json"
  | keepProtection => "no-protection-bypass"
  | help => "help"

/-- The letter of a switch, if it has one. -/
def Switch.letter? : Switch → Option Char
  | verbose => some 'v'
  | quiet => some 'q'
  | help => some 'h'
  | _ => none

/-- What can be done. -/
inductive Subcommand where
  /-- List the memory list. -/
  | memlist
  /-- Extract a resource. -/
  | unpack
  /-- Pack a file. -/
  | pack
  /-- List bytecode. -/
  | dump
  /-- Run the game and summarize what happened. -/
  | run
  /-- Run the game and print every step. -/
  | trace
deriving Repr, DecidableEq

/-- The word for a command. -/
def Subcommand.name : Subcommand → String
  | memlist => "memlist"
  | unpack => "unpack"
  | pack => "pack"
  | dump => "dump"
  | run => "run"
  | trace => "trace"

/-- All commands. -/
def Subcommand.all : List Subcommand := [memlist, unpack, pack, dump, run, trace]

/-- The command that a word means. -/
def Subcommand.ofName? (word : String) : Option Subcommand := all.find? (·.name = word)

/-- The word that asks for an explanation of a command. -/
def helpWord : String := "help"

/-- Whether a word means a command, or the explanation of one. -/
def isCommandWord (word : String) : Bool := word = helpWord ∨ (Subcommand.ofName? word).isSome

/-- Which arguments are accepted. -/
structure Grammar where
  /-- Whether a command is to follow. -/
  commands : Bool
  /-- The slot that is filled by a word standing alone. -/
  operand : Option Slot
  /-- The slots that are filled by name. -/
  options : List Slot
  /-- The switches. -/
  switches : List Switch

namespace Grammar

/-- The switches that are accepted everywhere. -/
def globalSwitches : List Switch := [.verbose, .quiet, .debugMachine, .debugBank, .help]

/-- What is accepted before the command. -/
def root : Grammar := ⟨true, none, [], globalSwitches⟩

/-- The options of the commands that run the game. -/
def machineOptions : List Slot := [.datadir, .dumpdir, .part, .seed, .fuel, .variant]

/-- What is accepted after a command. -/
def ofSubcommand : Subcommand → Grammar
  | .memlist => ⟨false, none, [.datadir], globalSwitches⟩
  | .unpack => ⟨false, some .id, [.datadir, .output], globalSwitches⟩
  | .pack => ⟨false, some .input, [.output], globalSwitches⟩
  | .dump => ⟨false, some .input, [.part, .datadir, .color], globalSwitches⟩
  | .run =>
    ⟨false, none, .frames :: machineOptions, .json :: .keepProtection :: globalSwitches⟩
  | .trace =>
    ⟨false, none, .frames :: .limit :: .color :: machineOptions,
      .keepProtection :: globalSwitches⟩

/-- The option with a name. -/
def option? (g : Grammar) (name : String) : Option Slot := g.options.find? (·.name = name)

/-- The switch with a name. -/
def switch? (g : Grammar) (name : String) : Option Switch := g.switches.find? (·.name = name)

/-- The option with a letter. -/
def optionOfLetter? (g : Grammar) (c : Char) : Option Slot :=
  g.options.find? (·.letter? = some c)

/-- The switch with a letter. -/
def switchOfLetter? (g : Grammar) (c : Char) : Option Switch :=
  g.switches.find? (·.letter? = some c)

end Grammar

/-- The forms that a word can have. -/
inductive Word where
  /-- Two dashes: no names follow. -/
  | escape
  /-- A name after two dashes, perhaps with a value. -/
  | long (name : String) (value : Option String)
  /-- Letters after a dash, perhaps with a value. -/
  | short (letters : List Char)
  /-- Anything else; a dash alone is a word like any other. -/
  | plain
deriving Repr, DecidableEq

/-- What stands before the first equals sign, and what stands behind it if there is one. -/
def cutAtEquals (cs : List Char) : String × Option String :=
  (String.ofList (cs.takeWhile (· ≠ '=')),
    match cs.dropWhile (· ≠ '=') with
    | [] => none
    | _ :: value => some (String.ofList value))

/-- The form of a word. -/
def Word.ofText (text : String) : Word :=
  match text.toList with
  | ['-', '-'] => .escape
  | '-' :: '-' :: rest => .long (cutAtEquals rest).1 (cutAtEquals rest).2
  | '-' :: c :: rest => .short (c :: rest)
  | _ => .plain

end Cinematic.CommandLine
