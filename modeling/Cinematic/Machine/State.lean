import Cinematic.Bytes
import Cinematic.Host.Basic
import Cinematic.Machine.CallStack
import Cinematic.Machine.Controls
import Cinematic.Machine.Pacer

/-!
# The machine

A machine is a bytecode segment with 64 threads, 256 registers and a call stack, and what it was
built with: the release of the game, whether the code-wheel screen is answered for the player,
and how many instructions a pass may execute.

**Installing a segment is a fresh start**: all threads but the first are halted, the first starts
at offset 0, the stack is emptied, and the registers return to their state at power-on – unless
the machine was built to carry them over.
-/

namespace Cinematic

/-- The releases of the game. -/
inductive Variant where
  | anotherWorld | outOfThisWorld
deriving Repr, DecidableEq

/-- The word by which bytecode knows the release, and shows its title. -/
def Variant.languageMarker : Variant → UInt16
  | anotherWorld => 0x0001
  | outOfThisWorld => 0x0081

/-- What a machine is built with. -/
structure MachineConfig where
  /-- The release of the game. -/
  variant : Variant
  /-- Whether the code-wheel screen is answered for the player. -/
  bypassProtection : Bool
  /-- Whether registers keep their words when a segment is installed. -/
  carryRegisters : Bool
  /-- How many instructions a pass may execute. -/
  fuel : UInt32
deriving Repr, DecidableEq

/-- How many instructions a pass may execute if nothing else is said. -/
def defaultFuel : UInt32 := 1000000

/-- What a machine is built with if nothing else is said. -/
def MachineConfig.standard : MachineConfig := ⟨.anotherWorld, true, false, defaultFuel⟩

/-- A cooperative machine for one bytecode segment. -/
structure Machine where
  /-- The segment. -/
  segment : Bytes
  /-- The threads, in the order in which they run. -/
  threads : Vector Thread threadCount
  /-- The registers. -/
  registers : RegisterFile
  /-- The return addresses. -/
  stack : CallStack
  /-- The part that the segment belongs to, if it is known. -/
  part : Option UInt16
  /-- What the machine was built with. -/
  config : MachineConfig
  /-- The random seed. -/
  seed : UInt16
  /-- When the next pass is due. -/
  pacer : Pacer
  /-- How many passes have begun. -/
  passes : Nat

namespace Machine

/-- All threads halted but the first, which starts at offset 0. -/
def initialThreads : Vector Thread threadCount :=
  (Vector.replicate threadCount Thread.halted).set 0 (.startingAt 0) (by decide)

/-- The registers at power-on. -/
def powerOnRegisters (config : MachineConfig) (seed : UInt16) : RegisterFile :=
  RegisterFile.zero.setAll <|
    [(Register.randomSeed, seed), (Register.dosMarker, 0x0014),
     (Register.language, config.variant.languageMarker)]
      ++ (if config.bypassProtection then Register.protectionPresets else [])

/-- **A machine that has just been switched on**, with an empty segment. -/
def powerOn (config : MachineConfig) (seed : UInt16) : Machine where
  segment := #[]
  threads := initialThreads
  registers := powerOnRegisters config seed
  stack := .empty
  part := none
  config := config
  seed := seed
  pacer := .start
  passes := 0

/-- **The machine with another segment installed.** -/
def install (m : Machine) (segment : Bytes) : Machine :=
  { m with
    segment := segment
    threads := initialThreads
    stack := .empty
    registers :=
      if m.config.carryRegisters then m.registers else powerOnRegisters m.config m.seed }

/-- The machine with the segment of a part installed. -/
def enterPart (m : Machine) (part : Part) (segment : Bytes) : Machine :=
  { m with part := some part.id }.install segment

/-- What is told when a segment is installed. -/
def installNotes (segment : Bytes) : List Log.Entry := [Log.segmentInstalled segment.size]

/-- What is told when the segment of a part is installed. -/
def enterNotes (part : Part) (segment : Bytes) : List Log.Entry :=
  Log.enteringPart part :: installNotes segment

/-- The machine with a word written into a register from outside. -/
def setRegister (m : Machine) (reg : UInt8) (word : UInt16) : Machine :=
  { m with registers := m.registers.set reg word }

/-- The tick at which the next pass is due. -/
def nextDeadline (m : Machine) : UInt32 := m.pacer.deadline

/-! ### Snapshots -/

/-- A thread that runs, is paused or has been asked to start or end. -/
structure ThreadSnapshot where
  /-- Which thread it is. -/
  index : Nat
  /-- What can be seen of it. -/
  status : ThreadStatus
  /-- Its place. -/
  pc : UInt16
  /-- The place that was requested. -/
  requestedPc : UInt16
deriving Repr, DecidableEq

/-- What can be seen of a machine between two passes. -/
structure Snapshot where
  /-- The part that the segment belongs to. -/
  part : Option UInt16
  /-- The registers. -/
  registers : RegisterFile
  /-- The number of return addresses. -/
  stackDepth : Nat
  /-- The threads about which there is something to say. -/
  threads : List ThreadSnapshot

/-- The threads about which there is something to say. -/
def threadSnapshots (m : Machine) : List ThreadSnapshot :=
  (m.threads.toList.zipIdx.filter fun (t, _) =>
    t.status ≠ .halted ∨ t.requestedPc ≠ Thread.noPc).map fun (t, i) =>
      ⟨i, t.status, t.pc, t.requestedPc⟩

/-- What can be seen of the machine. -/
def snapshot (m : Machine) : Snapshot :=
  ⟨m.part, m.registers, m.stack.depth, m.threadSnapshots⟩

end Machine

end Cinematic
