import Cinematic.Machine.RegisterFile

/-!
# The player's input

Before every pass the state of the player's controls is written into seven registers. Six of
them show what is held down, as often as one looks; the seventh holds the character typed since
the last pass, and **the character is used up by the pass that sees it**.
-/

namespace Cinematic

/-- The state of the player's controls. -/
structure Controls where
  /-- Directions and buttons, one bit each. -/
  mask : UInt16
  /-- Left is −1, right is 1. -/
  horizontal : Int16
  /-- Up is −1, down is 1. -/
  vertical : Int16
  /-- 1 while the action button is held. -/
  button : Int16
  /-- The character typed since the last pass, or zero. -/
  typed : UInt8
  /-- Whether the player wants to stop. -/
  quit : Bool
  /-- Whether the player wants a break. -/
  pause : Bool
deriving Repr, DecidableEq

namespace Controls

/-- Nothing held, nothing typed. -/
def neutral : Controls := ⟨0, 0, 0, 0, 0, false, false⟩

/-- Whether no pass is to run. -/
def idle (c : Controls) : Bool := c.quit || c.pause

/-- **The registers with the player's input in them.** -/
def writeTo (c : Controls) (r : RegisterFile) : RegisterFile :=
  ((((((r.set Register.inputKey c.typed.toUInt16).setSigned
    Register.heroPosLeftRight c.horizontal).setSigned
    Register.heroPosUpDown c.vertical).setSigned
    Register.heroPosJumpDown c.vertical).set
    Register.heroPosMask c.mask).setSigned
    Register.heroAction c.button).set
    Register.heroActionPosMask c.mask

/-- The controls after a pass has seen them. -/
def seen (c : Controls) : Controls := { c with typed := 0 }

end Controls

end Cinematic
