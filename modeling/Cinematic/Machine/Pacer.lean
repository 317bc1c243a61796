/-!
# Pacing

Bytecode says for how many slices of 20 ms a frame stays on screen. The pacer turns that into
the *deadline* of the next pass: **deadlines chain from deadline to deadline**, not from the
time at which a pass happened to run, so a slow pass does not delay those after it – unless it
takes longer than its frame, when the next one follows at the next tick.

While the player has stopped or paused the game the deadline slides along in front of the
clock, so that the game does not catch up when it goes on. Time is a counter of milliseconds in
32 bits, which wraps around.
-/

namespace Cinematic

/-- The length of a slice in milliseconds. -/
def sliceLength : UInt32 := 20

/-- How far the deadline is put off while nothing runs. -/
def idleDelay : UInt32 := 100

/-- The deadline of the next pass and that of the last one. -/
structure Pacer where
  /-- The deadline of the last pass that was due. -/
  previous : UInt32
  /-- The deadline of the next pass. -/
  deadline : UInt32
deriving Repr, DecidableEq

namespace Pacer

/-- A pacer whose first pass is due at once. -/
def start : Pacer := ⟨0, 0⟩

/-- Whether a pass is due, and the pacer that knows that it has been asked. -/
def isReady (p : Pacer) (now : UInt32) (idle : Bool) : Bool × Pacer :=
  if idle then (false, { p with deadline := now + idleDelay })
  else if p.deadline ≤ now then (true, { p with previous := p.deadline })
  else (false, p)

/-- Sets the next deadline after a pass whose frame stays for some slices. -/
def schedule (p : Pacer) (now : UInt32) (slices : UInt16) : Pacer :=
  let due := p.previous + slices.toUInt32 * sliceLength
  { p with deadline := if due ≤ now then now + 1 else due }

end Pacer

end Cinematic
