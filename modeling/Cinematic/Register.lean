/-!
# The names of the registers

Bytecode treats its 256 registers alike. The engine does not: before every pass it writes the
player's input into seven of them, it reads the length of a frame from another, and a few more
are set when the machine is switched on. This module names the registers that have such a
fixed meaning, and says which values the code-wheel screen is given in advance.
-/

namespace Cinematic.Register

/-- Where the random seed is put at power-on. -/
def randomSeed : UInt8 := 0x3c

/-- Which release of the game is played; bytecode shows another title for each. -/
def language : UInt8 := 0x54

/-- The character typed since the last pass. -/
def inputKey : UInt8 := 0xda

/-- Read by the introduction, which refuses to go on unless it holds 20. -/
def dosMarker : UInt8 := 0xe4

/-- The vertical direction held by the player. -/
def heroPosUpDown : UInt8 := 0xe5

/-- The mark last reached by the music player. -/
def musicMark : UInt8 := 0xf4

/-- The number of rows by which page copies are shifted. -/
def scrollY : UInt8 := 0xf9

/-- Whether the action button is held. -/
def heroAction : UInt8 := 0xfa

/-- The vertical direction once more, for jumping and crouching. -/
def heroPosJumpDown : UInt8 := 0xfb

/-- The horizontal direction held by the player. -/
def heroPosLeftRight : UInt8 := 0xfc

/-- All directions held, one bit each. -/
def heroPosMask : UInt8 := 0xfd

/-- All directions and buttons held, one bit each. -/
def heroActionPosMask : UInt8 := 0xfe

/-- For how many slices of 20 ms the frame stays on screen. -/
def pauseSlices : UInt8 := 0xff

/-- The first symbol that the player entered on the code wheel. -/
def codeWheelInput : UInt8 := 0x29

/-- The first symbol that the code wheel screen expects. -/
def codeWheelAnswer : UInt8 := 0x1e

/-- The registers with a name, and their names. -/
def names : List (UInt8 × String) :=
  [(randomSeed, "random_seed"), (language, "language"), (inputKey, "input_key"),
   (dosMarker, "dos_marker"), (heroPosUpDown, "hero_pos_up_down"), (musicMark, "music_mark"),
   (scrollY, "scroll_y"), (heroAction, "hero_action"), (heroPosJumpDown, "hero_pos_jump_down"),
   (heroPosLeftRight, "hero_pos_left_right"), (heroPosMask, "hero_pos_mask"),
   (heroActionPosMask, "hero_action_pos_mask"), (pauseSlices, "pause_slices")]

/-- The name of a register, if it has one. -/
def name? (reg : UInt8) : Option String := names.lookup reg

/-- The values that let the code-wheel screen accept any answer. -/
def protectionPresets : List (UInt8 × UInt16) :=
  [(0xbc, 0x10), (0xc6, 0x80), (0xdc, 0x21), (0xf2, 0x0fa0)]

end Cinematic.Register
