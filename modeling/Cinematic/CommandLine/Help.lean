import Cinematic.CommandLine.Settings

/-!
# Explaining the command line

What is printed when a command line is not understood, or when an explanation is asked for.
-/

namespace Cinematic.CommandLine

/-- An option as it is typed. -/
def Slot.typed (slot : Slot) : String :=
  match slot with
  | .id | .input => "<" ++ slot.name ++ ">"
  | _ => "--" ++ slot.name

/-- A switch as it is typed. -/
def Switch.typed (switch : Switch) : String := "--" ++ switch.name

/-- The wording of an error. -/
def UsageError.message : UsageError → String
  | help => "help"
  | nothingGiven => "nothing to do"
  | missingCommand => "a command is missing"
  | unknownCommand word => "unknown command '" ++ word ++ "'"
  | unknownArgument word => "unexpected argument '" ++ word ++ "'"
  | valueForSwitch switch => switch.typed ++ " takes no value"
  | missingValue slot => slot.typed ++ " needs a value"
  | impossibleValue slot text => "'" ++ text ++ "' is not possible for " ++ slot.typed
  | unreadableValue slot text => "'" ++ text ++ "' cannot be read as a value for " ++ slot.typed
  | repeatedSlot slot => slot.typed ++ " is given twice"
  | repeatedSwitch switch => switch.typed ++ " is given twice"
  | quietAndVerbose => "--quiet and --verbose exclude each other"
  | fileAndPart => "<FILE> and --part exclude each other"
  | missingOperand slot => slot.typed ++ " is missing"

/-- What can be typed. -/
def synopsis : List String :=
  ["Inspect and run the game's data.",
   "",
   "  memlist [--datadir PATH]",
   "  unpack <ID> [--datadir PATH] [-o FILE]",
   "  pack <FILE> [-o FILE]",
   "  dump <FILE> [--color WHEN]",
   "  dump [--part PART] [--datadir PATH] [--color WHEN]",
   "  run [--part PART] [--frames N] [--json] [GAME]",
   "  trace [--part PART] [--frames N] [--limit LINES] [--color WHEN] [GAME]",
   "",
   "GAME: --datadir PATH, --dumpdir PATH, --seed SEED, --fuel N, --variant RELEASE,",
   "      --no-protection-bypass",
   "Anywhere: -v, -vv, -vvv, -q, --debug-vm, --debug-bank, -h"]

/-- The lines that answer a command line that is not understood. -/
def UsageError.lines : UsageError → List String
  | help | nothingGiven => synopsis
  | e => ["error: " ++ e.message]

/-- The exit status that goes with it; only a wish is no failure. -/
def UsageError.status : UsageError → Nat
  | help => 0
  | _ => 2

end Cinematic.CommandLine
