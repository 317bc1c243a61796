import Cinematic.Bytecode.Format
import Cinematic.Host.Basic

/-!
# Traces of a pass

The steps of a pass can be written down in two ways. A **sheet** has a line for each pass, for
each instruction and for the end of each slice, and may be limited: once it is full, nothing
more is written, and what was left out is admitted in a closing line. The log gets one entry
for every step, the beginnings of slices included.
-/

namespace Cinematic

open Text (Palette)

/-- A trace written for people. -/
structure Sheet where
  /-- The colours it is written in. -/
  palette : Palette
  /-- How many lines fit, if there is a limit. -/
  limit : Option Nat
  /-- The lines written so far. -/
  lines : Array String
  /-- Whether a line did not fit. -/
  truncated : Bool

namespace Sheet

/-- A sheet without lines. -/
def empty (palette : Palette) (limit : Option Nat) : Sheet := ⟨palette, limit, #[], false⟩

/-- Whether no line fits any more. -/
def isFull (sheet : Sheet) : Bool :=
  match sheet.limit with
  | some limit => limit ≤ sheet.lines.size
  | none => false

/-- The sheet with one more line, if it fits. -/
def write (sheet : Sheet) (line : String) : Sheet :=
  if sheet.isFull then { sheet with truncated := true }
  else { sheet with lines := sheet.lines.push line }

/-- The number of a thread, in two digits at least. -/
def threadNumber (t : Fin threadCount) : String := "#" ++ Text.padStart 2 '0' (toString t.val)

/-- The line of a step, if it has one. -/
def line? (palette : Palette) : TraceEvent → Option String
  | .pass number => some (palette.paint .mnemonic ("pass " ++ toString number))
  | .slice _ _ => none
  | .instruction t pc i =>
    some ("  " ++ palette.paint .offset (threadNumber t ++ " " ++ Text.hex 4 pc.toNat) ++ "  "
      ++ Text.trimEnd (i.render palette))
  | .yielded t pc =>
    some ("  " ++ palette.paint .offset (threadNumber t ++ " ---- -> " ++ Text.hex 4 pc.toNat))

/-- The sheet with a step written down. -/
def observe (sheet : Sheet) (e : TraceEvent) : Sheet :=
  match line? sheet.palette e with
  | some line => sheet.write line
  | none => sheet

/-- The line that admits what was left out. -/
def closing (sheet : Sheet) : List String :=
  match sheet.limit with
  | some limit =>
    if sheet.truncated then
      [sheet.palette.paint .offset
        ("... trace truncated after " ++ toString limit ++ " lines")]
    else []
  | none => []

/-- The text of the sheet. -/
def text (sheet : Sheet) : String := Text.unlines (sheet.lines.toList ++ sheet.closing)

end Sheet

/-- The log entry of a step. -/
def TraceEvent.entry : TraceEvent → Log.Entry
  | .pass number => ⟨.trace, .steps, "begin pass", [Log.countField "pass" number]⟩
  | .slice t pc =>
    ⟨.trace, .steps, "slice", [Log.countField "thread" t.val, Log.wordField "pc" pc]⟩
  | .instruction t pc i =>
    ⟨.trace, .steps, Text.trimEnd (i.render .none),
      [Log.countField "thread" t.val, Log.wordField "pc" pc]⟩
  | .yielded t pc =>
    ⟨.trace, .steps, "yield", [Log.countField "thread" t.val, Log.wordField "pc" pc]⟩

/-- Where the steps of a pass are written down. -/
inductive Tracing where
  /-- Nowhere. -/
  | off
  /-- On a sheet. -/
  | sheet (sheet : Sheet)
  /-- In the log. -/
  | log

/-- The tracing and the log after a step. -/
def Tracing.observe (tracing : Tracing) (log : Array Log.Entry) (e : TraceEvent) :
    Tracing × Array Log.Entry :=
  match tracing with
  | .off => (.off, log)
  | .sheet paper => (.sheet (paper.observe e), log)
  | .log => (.log, log.push e.entry)

end Cinematic
