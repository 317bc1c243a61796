import Cinematic.Proofs.Machine.Execution

/-!
# What a machine has been through

A machine is switched on, gets a segment installed, runs some passes – of which any may fail – has
words written into its registers from outside, gets another segment, and so on.
`Cinematic.Machine.Life` holds of a machine that has come about in this way, and of the list of
the **executions since its segment was installed**, over all its passes. Every pass may have its
own controls and its own host.

Laws about whole runs are stated about every life. Their proofs are inductions of which only one
case, that of a pass, has content, and this case is a law about courses.
-/

namespace Cinematic

namespace Machine

/-- **The machines that come about**, from one that was built with a configuration and a random
seed, with their executions since the last segment was installed. -/
inductive Life (config : MachineConfig) (seed : UInt16) : Machine → List Execution → Prop
  | powerOn : Life config seed (powerOn config seed) []
  | install {m : Machine} {es : List Execution} (life : Life config seed m es)
    (segment : Bytes) : Life config seed (m.install segment) []
  | enterPart {m : Machine} {es : List Execution} (life : Life config seed m es) (part : Part)
    (segment : Bytes) : Life config seed (m.enterPart part segment) []
  | setRegister {m : Machine} {es : List Execution} (life : Life config seed m es)
    (reg : UInt8) (word : UInt16) : Life config seed (m.setRegister reg word) es
  /-- The pacer has been asked, or set, and nothing else has happened. -/
  | pace {m : Machine} {es : List Execution} (life : Life config seed m es) (pacer : Pacer) :
    Life config seed { m with pacer := pacer } es
  | step {m : Machine} {es : List Execution} (life : Life config seed m es) {σ : Type}
    (h : Host σ) (c : Controls) (s : σ) :
    Life config seed (step h m c s).machine (es ++ executions h m c s)

variable {config : MachineConfig} {seed : UInt16} {m : Machine} {es : List Execution}

/-- **A pass that runs only if it is due** is a pass of a machine whose pacer has been asked, or
none. -/
theorem Life.run (life : Life config seed m es) {σ : Type} (h : Host σ) (c : Controls) (s : σ) :
    let asked := m.pacer.isReady (h.ticks s) c.idle
    Life config seed (run h m c s).machine
      (es ++ if asked.1 then executions h { m with pacer := asked.2 } c s else []) := by
  intro asked
  rw [Machine.run]
  split
  · next pacer answer =>
    have answered : asked = (false, pacer) := answer
    rw [answered, if_neg Bool.false_ne_true, List.append_nil]
    exact life.pace pacer
  · next pacer answer =>
    have answered : asked = (true, pacer) := answer
    have passed := (life.pace pacer).step h c s
    rw [answered, if_pos rfl]
    generalize Machine.step h { m with pacer := pacer } c s = stepped at passed ⊢
    obtain ⟨machine, controls, host, result⟩ := stepped
    -- the pacer is set anew only after a pass that has ended well
    cases result with
    | error x => exact passed
    | ok done => exact passed.pace _

/-- What a machine was built with stays with it. -/
theorem Life.built (life : Life config seed m es) : m.config = config ∧ m.seed = seed := by
  induction life with
  | powerOn => exact ⟨rfl, rfl⟩
  | install _ _ ih | enterPart _ _ _ ih | setRegister _ _ _ ih | pace _ _ ih => exact ih
  | step _ h c s ih =>
    rw [step_kept]
    exact ih

end Machine

end Cinematic
