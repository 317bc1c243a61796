import Cinematic.Part
import Cinematic.Resource
import Cinematic.Text.Pad

/-!
# Log entries

What the engine does behind the scenes is told in log entries. An entry has a severity, the
place that it comes from, a message and some named values. Entries are **data**: the functions
that make them say what happened, and whether anybody reads them is decided at the very end, by
a filter.

The engine has three layers, and each has parts that tell something. A line of the log names the
layer only; a filter may ask for the part (`Cinematic.Log.Source.path`).

Numbers that a person knows in hexadecimal – ids, offsets, banks – are written so, and the name
of a part stands between quotes.
-/

namespace Cinematic.Log

/-- How severe an entry is, the most severe first. -/
inductive Level where
  | error | warn | info | debug | trace
deriving Repr, DecidableEq

namespace Level

/-- How many levels are at least as severe. -/
def rank : Level → Nat
  | error => 1
  | warn => 2
  | info => 3
  | debug => 4
  | trace => 5

/-- The word that an entry begins with. -/
def name : Level → String
  | error => "ERROR"
  | warn => "WARN"
  | info => "INFO"
  | debug => "DEBUG"
  | trace => "TRACE"

end Level

/-- The layers of the engine. -/
inductive Layer where
  /-- The machine that executes bytecode. -/
  | machine
  /-- The store of resources and the packer. -/
  | bank
  /-- The session that drives the machine. -/
  | session
deriving Repr, DecidableEq

/-- The name of a layer in the log. -/
def Layer.name : Layer → String
  | machine => "outworld_vm"
  | bank => "outworld_bank"
  | session => "outworld"

/-- The part of the engine that an entry comes from. -/
inductive Source where
  /-- The machine, when it is given bytecode. -/
  | machine
  /-- The instructions. -/
  | instructions
  /-- The steps of a pass, one by one. -/
  | steps
  /-- The store of resources. -/
  | store
  /-- The packer. -/
  | packer
  /-- The unpacker. -/
  | unpacker
  /-- The session. -/
  | session
deriving Repr, DecidableEq

namespace Source

/-- The layer that a part belongs to. -/
def layer : Source → Layer
  | machine | instructions | steps => .machine
  | store | packer | unpacker => .bank
  | session => .session

/-- The names on the way from a layer to its part. -/
def way : Source → List String
  | machine => ["engine", "machine"]
  | instructions => ["engine", "exec"]
  | steps => ["engine", "trace"]
  | store => ["bank"]
  | packer => ["pack"]
  | unpacker => ["unpack"]
  | session => ["commands", "run_common"]

/-- The path of a part, which filters refer to: all names down to it, with two colons between them. -/
def path (s : Source) : String := "::".intercalate (s.layer.name :: s.way)

end Source

/-- One line of the log. -/
structure Entry where
  /-- How severe it is. -/
  level : Level
  /-- Where it comes from. -/
  source : Source
  /-- What happened. -/
  message : String
  /-- The values that go with it, in order. -/
  fields : List (String × String) := []
deriving Repr, DecidableEq

/-- The text of an entry. -/
def Entry.line (e : Entry) : String :=
  e.fields.foldl (fun text (name, value) => text ++ " " ++ name ++ "=" ++ value)
    (e.level.name ++ " " ++ e.source.layer.name ++ ": " ++ e.message)

/-- Whether an entry has a field. Its message counts as one. -/
def Entry.hasField (e : Entry) (name : String) : Bool :=
  name = "message" || e.fields.any (·.1 = name)

/-- A field with the name of a part. -/
def partField (p : Part) : String × String := ("part", "\"" ++ p.name ++ "\"")

/-- A field with a word in hexadecimal. -/
def wordField (name : String) (w : UInt16) : String × String := (name, Text.hexMarked 4 w.toNat)

/-- A field with a resource id in hexadecimal. -/
def idField (id : UInt16) : String × String := ("id", Text.hexMarked 2 id.toNat)

/-- A field with a count. -/
def countField (name : String) (n : Nat) : String × String := (name, toString n)

/-! ### What the store and the packer tell -/

/-- A memory list has been read from a directory. -/
def memoryListLoaded (entries : Nat) (dir : String) : Entry :=
  ⟨.debug, .store, "loaded memory list", [countField "entries" entries, ("dir", dir)]⟩

/-- A resource is about to be read from its bank. -/
def loadingResource (id : UInt16) (kind : Resource.Kind) (bank : UInt8) : Entry :=
  ⟨.debug, .store, "loading resource",
    [idField id, ("kind", kind.name), ("bank", Text.hexMarked 2 bank.toNat)]⟩

/-- The resources of a part are about to be loaded. -/
def loadingPart (p : Part) : Entry :=
  ⟨.debug, .store, "loading part", [partField p, wordField "id" p.id]⟩

/-- Bytecode has asked the store for a part. -/
def partRequestedOfStore (id : UInt16) : Entry :=
  ⟨.debug, .store, "part requested", [wordField "part" id]⟩

/-- A block has been expanded. -/
def blockUnpacked (unpacked : Nat) : Entry :=
  ⟨.trace, .unpacker, "unpacked block", [countField "unpacked" unpacked]⟩

/-- A block has been made. -/
def blockPacked (unpacked packed : Nat) : Entry :=
  ⟨.trace, .packer, "packed block", [countField "unpacked" unpacked, countField "packed" packed]⟩

/-- A block cannot be expanded in its own buffer. -/
def blockOverruns (unpacked packed : Nat) : Entry :=
  ⟨.debug, .packer, "block overruns in place, storing",
    [countField "unpacked" unpacked, countField "packed" packed]⟩

/-! ### What the machine tells -/

/-- A part's bytecode is about to be installed. -/
def enteringPart (p : Part) : Entry :=
  ⟨.info, .machine, "entering part", [partField p, wordField "id" p.id]⟩

/-- A segment has been installed. -/
def segmentInstalled (size : Nat) : Entry :=
  ⟨.debug, .machine, "installed bytecode segment", [countField "size" size]⟩

/-- The code-wheel screen has been answered for the player. -/
def protectionBypassed : Entry := ⟨.debug, .instructions, "bypassing protection", []⟩

/-- Bytecode has asked for a part. -/
def partRequested (id : UInt16) : Entry :=
  ⟨.debug, .instructions, "part requested", [wordField "id" id]⟩

/-- A sound or music that is not in the memory list was to be played. -/
def resourceNotFound (id : UInt16) : Entry :=
  ⟨.warn, .instructions, "resource not found", [idField id]⟩

/-- A resource of another kind was to be played. -/
def resourceMismatch (id : UInt16) (actual expected : Resource.Kind) : Entry :=
  ⟨.warn, .instructions, "resource is not " ++ expected.name, [idField id, ("kind", actual.name)]⟩

/-- A resource that is not in memory was to be played. -/
def resourceNotLoaded (id : UInt16) : Entry :=
  ⟨.warn, .instructions, "resource not loaded", [idField id]⟩

/-! ### What the session tells -/

/-- The session is about to enter the part that bytecode has asked for. -/
def switchingPart (id : UInt16) (passes : Nat) : Entry :=
  ⟨.debug, .session, "switching part", [wordField "part" id, countField "passes" passes]⟩

end Cinematic.Log
