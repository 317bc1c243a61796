import Cinematic.Proofs.Machine.Comparison
import Cinematic.Proofs.Machine.Life

/-!
# Entering a part is a clean start

**What a machine has been through does not matter once it enters a part**: no pass that follows can
tell which parts were played before, how often passes have failed, or what was written into the
registers (`Cinematic.Machine.Life.enterPart_restarts`). Two machines that were built alike and
enter the same part give the same results, ask the same of their hosts and look the same ever after.
They keep different counts of passes and different deadlines, which no instruction can see.

The registers are the one exception, and only for a machine that was built to carry them over: then
they have to be equal when the part is entered.
-/

namespace Cinematic

namespace Machine

/-- What can be done with a machine that has a segment. -/
inductive Action where
  /-- A pass with some controls. -/
  | step (c : Controls)
  /-- A word written into a register from outside. -/
  | setRegister (reg : UInt8) (word : UInt16)
deriving Repr, DecidableEq

/-- What some actions leave behind. -/
structure Played (σ : Type) where
  /-- The machine. -/
  machine : Machine
  /-- The host. -/
  host : σ
  /-- The results of the passes, in order. -/
  results : List (Except RuntimeError Unit)

/-- **Does one action after the other**, also after a pass that has failed. -/
def play {σ : Type} (h : Host σ) : List Action → Machine → σ → Played σ
  | [], m, s => ⟨m, s, []⟩
  | .step c :: rest, m, s =>
    let stepped := step h m c s
    let played := play h rest stepped.machine stepped.host
    { played with results := stepped.result :: played.results }
  | .setRegister reg word :: rest, m, s => play h rest (m.setRegister reg word) s

section Alike

variable {σ₁ σ₂ : Type} {h₁ : Host σ₁} {h₂ : Host σ₂} {R : σ₁ → σ₂ → Prop}

/-- What actions on two machines leave behind that cannot be told apart but by the time. -/
inductive Played.Alike (R : σ₁ → σ₂ → Prop) : Played σ₁ → Played σ₂ → Prop
  | intro (m : Machine) (passes : Nat) (pacer : Pacer) {s₁ : σ₁} {s₂ : σ₂} (related : R s₁ s₂)
    (results : List (Except RuntimeError Unit)) :
    Played.Alike R ⟨m, s₁, results⟩ ⟨m.inTime passes pacer, s₂, results⟩

theorem Played.Alike.related {one : Played σ₁} {other : Played σ₂}
    (played : Played.Alike R one other) : R one.host other.host := by
  cases played with
  | intro m passes pacer related results => exact related

/-- **The time makes no difference to any sequence of actions.** -/
theorem play_alike (alike : h₁.Alike h₂ R fun _ _ => True) (actions : List Action) (m : Machine)
    (passes : Nat) (pacer : Pacer) (s₁ : σ₁) (s₂ : σ₂) (related : R s₁ s₂) :
    Played.Alike R (play h₁ actions m s₁) (play h₂ actions (m.inTime passes pacer) s₂) := by
  induction actions generalizing m passes s₁ s₂ with
  | nil => exact .intro m passes pacer related []
  | cons action rest ih =>
    cases action with
    | setRegister reg word => exact ih (m.setRegister reg word) passes s₁ s₂ related
    | step c =>
      have stepped := step_alike passes pacer alike m c related trivial
      simp only [play]
      generalize step h₁ m c s₁ = stepped₁ at stepped ⊢
      generalize step h₂ (m.inTime passes pacer) c s₂ = stepped₂ at stepped ⊢
      cases stepped with
      | intro m' c' related' result =>
        have played := ih m' (passes + 1) _ _ related'
        dsimp only
        generalize play h₁ rest m' _ = played₁ at played ⊢
        generalize play h₂ rest (m'.inTime (passes + 1) pacer) _ = played₂ at played ⊢
        cases played with
        | intro m'' passes'' pacer'' related'' results =>
          exact .intro m'' passes'' pacer'' related'' (result :: results)

end Alike

/-- Machines that were built alike have become the same but for the time when they have entered a
part. -/
theorem enterPart_eq_inTime {m₁ m₂ : Machine} (config : m₁.config = m₂.config)
    (seed : m₁.seed = m₂.seed)
    (carried : m₁.config.carryRegisters = true → m₁.registers = m₂.registers) (part : Part)
    (segment : Bytes) :
    m₂.enterPart part segment = (m₁.enterPart part segment).inTime m₂.passes m₂.pacer := by
  have registers : (m₂.enterPart part segment).registers
      = (m₁.enterPart part segment).registers := by
    change (if m₂.config.carryRegisters then m₂.registers else powerOnRegisters m₂.config m₂.seed)
      = if m₁.config.carryRegisters then m₁.registers else powerOnRegisters m₁.config m₁.seed
    rw [← config, ← seed]
    split
    · next carries => exact (carried carries).symm
    · rfl
  -- the threads, the stack and the segment are new, so only these three can differ
  calc m₂.enterPart part segment
      = { (m₁.enterPart part segment).inTime m₂.passes m₂.pacer with
          registers := (m₂.enterPart part segment).registers
          config := m₂.config
          seed := m₂.seed } := rfl
    _ = (m₁.enterPart part segment).inTime m₂.passes m₂.pacer := by
      rw [registers, ← config, ← seed]
      rfl

/-- **Entering a part is a clean start.** Two machines that were built alike, whatever they have
been through since, enter the same part. Whatever is done with both from then on, with hosts that
cannot be told apart, gives the same results, tells and asks the hosts the same but for the numbers
of passes, and leaves the same registers, threads and return addresses; only the count of passes and
the pacer may differ. -/
theorem Life.enterPart_restarts {config : MachineConfig} {seed : UInt16} {m₁ m₂ : Machine}
    {es₁ es₂ : List Execution} (life₁ : Life config seed m₁ es₁) (life₂ : Life config seed m₂ es₂)
    (carried : config.carryRegisters = true → m₁.registers = m₂.registers) (part : Part)
    (segment : Bytes) {σ₁ σ₂ : Type} {h₁ : Host σ₁} {h₂ : Host σ₂} {R : σ₁ → σ₂ → Prop}
    (alike : h₁.Alike h₂ R fun _ _ => True) {s₁ : σ₁} {s₂ : σ₂} (related : R s₁ s₂)
    (actions : List Action) :
    let one := play h₁ actions (m₁.enterPart part segment) s₁
    let other := play h₂ actions (m₂.enterPart part segment) s₂
    let asked := (play h₁.transcribed actions (m₁.enterPart part segment) (s₁, [])).host.2
    let asked' := (play h₂.transcribed actions (m₂.enterPart part segment) (s₂, [])).host.2
    one.results = other.results ∧
      asked.filter Message.isTimeless = asked'.filter Message.isTimeless ∧
      one.machine.registers = other.machine.registers ∧
      one.machine.threads = other.machine.threads ∧
      one.machine.stack = other.machine.stack ∧
      one.machine.snapshot = other.machine.snapshot ∧
      other.machine = one.machine.inTime other.machine.passes other.machine.pacer := by
  intro one other asked asked'
  have start : m₂.enterPart part segment
      = (m₁.enterPart part segment).inTime m₂.passes m₂.pacer := by
    refine enterPart_eq_inTime ?_ ?_ ?_ part segment
    · rw [life₁.built.1, life₂.built.1]
    · rw [life₁.built.2, life₂.built.2]
    · rw [life₁.built.1]
      exact carried
  have minutes : asked.filter Message.isTimeless = asked'.filter Message.isTimeless := by
    have played := play_alike alike.transcribed actions (m₁.enterPart part segment) m₂.passes
      m₂.pacer (s₁, []) (s₂, []) ⟨related, rfl⟩
    rw [← start] at played
    exact played.related.2
  have played := play_alike alike actions (m₁.enterPart part segment) m₂.passes m₂.pacer s₁ s₂
    related
  rw [← start] at played
  change Played.Alike _ one other at played
  generalize one = one at played ⊢
  generalize other = other at played ⊢
  cases played with
  | intro m passes pacer related results => exact ⟨rfl, minutes, rfl, rfl, rfl, rfl, rfl⟩

/-- A machine that has just been switched on, and one with a return address left by a pass that has
failed and with a word in a register, enter a part that writes registers and shows a page. -/
theorem enterPart_restarts_after_failure :
    let fresh := powerOn .standard 7
    let failing := step Rehearsal.host (fresh.install #[0x04, 0, 3, 0x1b]) .neutral (.start [])
    let used := failing.machine.setRegister 5 9
    let part : Part := ⟨0x3e81, "introduction", 0x17, 0x18, 0x19, 0x00⟩
    let segment : Bytes := #[0x03, 5, 0, 1, 0x10, 0, 0x06, 0x05]
    let actions : List Action := [.step .neutral, .setRegister 6 1, .step .neutral]
    let one := play Rehearsal.host actions (fresh.enterPart part segment) (.start [])
    let other := play Rehearsal.host actions (used.enterPart part segment) (.start [])
    used.stack.depth = 1 ∧ one.results = other.results ∧
      one.machine.registers = other.machine.registers ∧
      one.machine.stack = other.machine.stack := by
  intro fresh failing used part segment actions one other
  have life : Life .standard 7 fresh [] := .powerOn
  have life' := ((life.install #[0x04, 0, 3, 0x1b]).step Rehearsal.host .neutral
    (.start [])).setRegister 5 9
  have related : Rehearsal.start [] = .start [] ∧ (Rehearsal.start []).tracing = .off := ⟨rfl, rfl⟩
  obtain ⟨results, -, registers, -, stack, -⟩ := life.enterPart_restarts life' nofun part segment
    Rehearsal.alike_of_off related actions
  exact ⟨by decide +kernel, results, registers, stack⟩

end Machine

end Cinematic
