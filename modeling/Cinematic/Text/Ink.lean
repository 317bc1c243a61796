/-!
# Coloured text

A listing line is a sequence of **spans**: some are plain, others are inked in the colour of
the role that they play. A palette says how a role's colour is switched on and off, so the
same spans are shown on a terminal and in a file, and colour can never change what a line
says (`Cinematic.Text.Span.text` is what is left when every palette is forgotten).
-/

namespace Cinematic.Text

/-- The parts of a listing line that have a colour of their own. -/
inductive Role where
  /-- Mnemonics, and the headers of passes. -/
  | mnemonic
  /-- Immediate operands. -/
  | value
  /-- Places that an instruction jumps to, calls or starts a thread at. -/
  | target
  /-- Offsets in a segment and numbers of threads. -/
  | offset
  /-- Invalid opcodes and instructions that do not fit. -/
  | error
deriving Repr, DecidableEq

/-- How colours are switched on and off. -/
structure Palette where
  /-- What is written before a text of the role. -/
  start : Role → String
  /-- What is written after it. -/
  stop : String

/-- The colours of a terminal: blue, green, yellow, dim and red. -/
def Palette.terminal : Palette where
  start
    | .mnemonic => "\x1b[34m"
    | .value => "\x1b[32m"
    | .target => "\x1b[33m"
    | .offset => "\x1b[2m"
    | .error => "\x1b[31m"
  stop := "\x1b[0m"

/-- No colour: nothing is written around a text. -/
def Palette.none : Palette where
  start _ := ""
  stop := ""

/-- The terminal's colours if they are wanted. -/
def Palette.ofBool (colored : Bool) : Palette := if colored then .terminal else .none

/-- A text in the colour of a role. -/
def Palette.paint (p : Palette) (role : Role) (text : String) : String :=
  p.start role ++ text ++ p.stop

/-- A piece of a listing line. -/
inductive Span where
  /-- A text without colour. -/
  | plain (text : String)
  /-- A text in the colour of a role. -/
  | ink (role : Role) (text : String)
deriving Repr, DecidableEq

/-- What a span says, whatever its colour. -/
def Span.text : Span → String
  | .plain text => text
  | .ink _ text => text

/-- A span as a palette shows it. -/
def Span.render (p : Palette) : Span → String
  | .plain text => text
  | .ink role text => p.paint role text

/-- Spans one after the other, as a palette shows them. -/
def Span.renderAll (p : Palette) (spans : List Span) : String :=
  spans.foldl (fun text span => text ++ span.render p) ""

theorem Palette.paint_none (role : Role) (text : String) : Palette.none.paint role text = text := by
  simp [Palette.paint, Palette.none]

/-- Without colour, a span shows what it says. -/
theorem Span.render_none (span : Span) : span.render Palette.none = span.text := by
  cases span <;> simp [Span.render, Span.text, Palette.paint_none]

end Cinematic.Text
