import Cinematic.Bytecode.Decode
import Cinematic.Machine.Execute

/-!
# Passes

Time passes for a machine in **passes**. A pass writes the player's input into the registers,
commits the requests made to the threads, and then gives every runnable thread a *slice*, in the
order of their numbers: the thread executes instructions from its place on until it yields or
ends. All slices of a pass share one supply of fuel, a unit for an instruction, so that a pass
ends whatever the bytecode does.

A pass that fails leaves everything as the failing instruction leaves it, with the thread still at
that instruction: the threads before it have had their slices, and those after it have not.
-/

namespace Cinematic

open Bytecode

namespace Machine

/-- The machine with a thread put to a place. -/
def setPc (m : Machine) (t : Fin threadCount) (pc : UInt16) : Machine :=
  { m with threads := m.threads.set t { m.threads[t] with pc := pc } }

/-- What a part of a pass leaves behind: the machine, the host, and the fuel that is left or the
reason why the pass ended early. -/
structure Ran (σ : Type) where
  /-- The machine. -/
  machine : Machine
  /-- The host. -/
  host : σ
  /-- The fuel that is left, or the reason why the pass ended early. -/
  result : Except RuntimeError Nat

/-- **Runs a thread from a position on** until it yields. -/
def slice {σ : Type} (h : Host σ) (t : Fin threadCount) : Nat → Machine → σ → Nat → Ran σ
  | 0, m, s, pos => ⟨m, s, .error (.fuelExhausted t pos.toUInt16)⟩
  | fuel + 1, m, s, pos =>
    match Instruction.decode ⟨m.segment, pos⟩ with
    | .error e _ => ⟨m, s, .error (.bytecode t e)⟩
    | .ok i c =>
      let s := h.observe s (.instruction t pos.toUInt16 i)
      match execute h m s t pos.toUInt16 i c.pos with
      | (s, .error e m) => ⟨m, s, .error e⟩
      | (s, .ok next m) =>
        let m := m.setPc t next.toUInt16
        if i.yields then ⟨m, s, .ok fuel⟩ else slice h t fuel m s next

/-- Gives a thread its slice. -/
def turn {σ : Type} (h : Host σ) (t : Fin threadCount) (fuel : Nat) (m : Machine) (s : σ) : Ran σ :=
  let pc := m.threads[t].pc
  match slice h t fuel m (h.observe s (.slice t pc)) pc.toNat with
  | ⟨m, s, .ok fuel⟩ => ⟨m, h.observe s (.yielded t m.threads[t].pc), .ok fuel⟩
  | failed => failed

/-- Gives the runnable ones of some threads their slices, one after the other. -/
def turns {σ : Type} (h : Host σ) : List (Fin threadCount) → Nat → Machine → σ → Ran σ
  | [], fuel, m, s => ⟨m, s, .ok fuel⟩
  | t :: rest, fuel, m, s =>
    if m.threads[t].isRunnable then
      match turn h t fuel m s with
      | ⟨m, s, .ok fuel⟩ => turns h rest fuel m s
      | failed => failed
    else turns h rest fuel m s

/-- The machine with the player's input in its registers, the requests to its threads committed, and
one more pass begun. -/
def commit (m : Machine) (c : Controls) : Machine :=
  { m with
    passes := m.passes + 1
    registers := c.writeTo m.registers
    threads := m.threads.map Thread.commit }

/-- What a pass leaves behind. -/
structure Stepped (σ : Type) (α : Type) where
  /-- The machine. -/
  machine : Machine
  /-- The controls, whose typed character has been used up. -/
  controls : Controls
  /-- The host. -/
  host : σ
  /-- What the pass gives, or the reason why it ended early. -/
  result : Except RuntimeError α

/-- **One pass.** -/
def step {σ : Type} (h : Host σ) (m : Machine) (c : Controls) (s : σ) : Stepped σ Unit :=
  let s := h.observe s (.pass m.passes)
  let fuel := m.config.fuel.toNat
  match turns h (List.finRange threadCount) fuel (m.commit c) s with
  | ⟨m, s, result⟩ => ⟨m, c.seen, s, result.map fun _ => ()⟩

/-- **One pass if it is due**, and whether it was. Nothing runs while the player has stopped or paused
the game, and a pass that fails is due again at once. -/
def run {σ : Type} (h : Host σ) (m : Machine) (c : Controls) (s : σ) : Stepped σ Bool :=
  match m.pacer.isReady (h.ticks s) c.idle with
  | (false, pacer) => ⟨{ m with pacer := pacer }, c, s, .ok false⟩
  | (true, pacer) =>
    match step h { m with pacer := pacer } c s with
    | ⟨m, c, s, .error e⟩ => ⟨m, c, s, .error e⟩
    | ⟨m, c, s, .ok ()⟩ =>
      let pacer := m.pacer.schedule (h.ticks s) (m.registers.get Register.pauseSlices)
      ⟨{ m with pacer := pacer }, c, s, .ok true⟩

end Machine

end Cinematic
