import Cinematic.Log.Directive

/-!
# Filters of the log

A filter is a list of **directives** between commas. For each entry the most special directive that
is about it counts, and of equally special ones the last. An entry that no directive is about is
not shown, and a filter without directives shows errors.

The flags of the command line ask for a filter of this form too (`Cinematic.Log.Verbosity`), so
that there is one rule for what is shown.
-/

namespace Cinematic.Log

/-- A filter of the log. -/
structure Filter where
  /-- What is shown of which layers. -/
  directives : List Directive
deriving Repr, DecidableEq

namespace Filter

/-- The text of a filter. -/
def text (f : Filter) : String := ",".intercalate (f.directives.map Directive.text)

/-- A filter with some directives, or the one that shows errors if there are none. -/
def ofDirectives (directives : List Directive) : Filter :=
  ⟨if directives.isEmpty then [{ threshold := some .error }] else directives⟩

/-- **The filter that a text means**, if every directive in it has a meaning. -/
def ofText? (text : String) : Option Filter :=
  (((Text.pieces ',' text).filter (· ≠ "")).mapM Directive.ofText?).map ofDirectives

/-- The more special one of two directives, and of equally special ones the second. -/
def special (best : Option Directive) (d : Directive) : Option Directive :=
  match best with
  | none => some d
  | some b => if b.noLessSpecial d then some d else some b

/-- The directive that counts for an entry. -/
def directive? (f : Filter) (e : Entry) : Option Directive :=
  (f.directives.filter (·.fits e)).foldl special none

/-- **Whether an entry is shown.** -/
def shows (f : Filter) (e : Entry) : Bool := (f.directive? e).any (·.shows e)

/-- The lines of the entries that are shown. -/
def lines (f : Filter) (log : Array Entry) : List String :=
  (log.toList.filter f.shows).map Entry.line

end Filter

/-- How much of the log the flags of a command ask for. -/
structure Verbosity where
  /-- How often more was asked for. -/
  verbose : Nat
  /-- Whether only errors are to be shown. -/
  quiet : Bool
  /-- Whether the machine is to tell everything. -/
  machine : Bool
  /-- Whether the store is to tell what it loads. -/
  bank : Bool
deriving Repr, DecidableEq

namespace Verbosity

/-- The level for everything. -/
def level (v : Verbosity) : Level :=
  if v.quiet then .error
  else
    match v.verbose with
    | 0 => .warn
    | 1 => .info
    | 2 => .debug
    | _ => .trace

/-- **The filter that some flags ask for.** -/
def filter (v : Verbosity) : Filter :=
  ⟨{ threshold := some v.level }
    :: (if v.machine then [{ target := Layer.machine.name }] else [])
    ++ (if v.bank then [{ target := Layer.bank.name, threshold := some .debug }] else [])⟩

end Verbosity

end Cinematic.Log
