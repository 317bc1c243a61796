import Cinematic.Bytecode.Cursor
import Cinematic.Machine.Thread

/-!
# What stops a pass

A pass ends early when a thread does something that has no meaning, or when too many instructions
have been executed. Every cause names the thread; all but those that come from outside the
machine – a segment that ends, a resource that cannot be loaded – also name the place of the
instruction.
-/

namespace Cinematic

/-- Why a pass ended early. -/
inductive RuntimeError where
  /-- A call with 256 return addresses on the stack. -/
  | stackOverflow (thread : Fin threadCount) (pc : UInt16)
  /-- A return without a return address. -/
  | stackUnderflow (thread : Fin threadCount) (pc : UInt16)
  /-- A byte that is no instruction. -/
  | invalidOpcode (thread : Fin threadCount) (pc : UInt16) (code : UInt8)
  /-- A comparison that is none. -/
  | invalidCondition (thread : Fin threadCount) (pc : UInt16) (code : UInt8)
  /-- A mode of `reset` that is none. -/
  | invalidResetMode (thread : Fin threadCount) (pc : UInt16) (code : UInt8)
  /-- A request to a thread that does not exist. -/
  | invalidThread (thread : Fin threadCount) (pc : UInt16) (index : UInt8)
  /-- More instructions than a pass may execute; some thread never yields. -/
  | fuelExhausted (thread : Fin threadCount) (pc : UInt16)
  /-- The segment ends within an instruction, or before it. -/
  | bytecode (thread : Fin threadCount) (cause : Bytecode.ReadError)
  /-- A resource that cannot be loaded, with the reason. -/
  | resource (id : UInt16) (cause : String)
deriving Repr, DecidableEq

namespace RuntimeError

/-- The place of an instruction and its thread. -/
def place (thread : Fin threadCount) (pc : UInt16) : String :=
  " at " ++ Text.hexMarked 4 pc.toNat ++ " (thread " ++ toString thread.val ++ ")"

/-- The wording of a cause. -/
def message : RuntimeError → String
  | stackOverflow thread pc => "stack overflow in 'call'" ++ place thread pc
  | stackUnderflow thread pc => "stack underflow in 'ret'" ++ place thread pc
  | invalidOpcode thread pc code =>
    "invalid opcode " ++ Text.hexMarked 2 code.toNat ++ place thread pc
  | invalidCondition thread pc code =>
    "invalid conditional jump " ++ toString code.toNat ++ place thread pc
  | invalidResetMode thread pc code =>
    "invalid reset mode " ++ Text.hexMarked 2 code.toNat ++ place thread pc
  | invalidThread thread pc index =>
    "thread index " ++ toString index.toNat ++ " out of range" ++ place thread pc
  | fuelExhausted thread pc => "execution limit exceeded" ++ place thread pc
  | bytecode thread cause =>
    "bytecode error in thread " ++ toString thread.val ++ ": " ++ cause.message
  | resource id cause => "cannot load resource " ++ Text.hexMarked 4 id.toNat ++ ": " ++ cause

end RuntimeError

end Cinematic
