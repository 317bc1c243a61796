import Cinematic.Proofs.Machine.Execution
import Mathlib.Algebra.Group.Nat.Defs

/-!
# When the next pass is due

A pass that was due and has succeeded is followed by another one when its frame has been on screen
for its slices, **counted from the deadline of the pass and not from the time at which it ran**, but
not before the next tick (`Cinematic.Pacer.toNat_deadline_schedule`). What a machine does to its
pacer on the way is told once for all hosts (`Cinematic.Machine.run_cases_of_due`).
-/

namespace Cinematic

namespace Pacer

/-- **What a pacer answers**: no while the game is stopped, yes from the deadline on, and no before
it. -/
theorem isReady_cases (p : Pacer) (now : UInt32) (idle : Bool) :
    (idle = true ∧ p.isReady now idle = (false, ⟨p.previous, now + idleDelay⟩)) ∨
      (idle = false ∧ p.deadline ≤ now ∧ p.isReady now idle = (true, ⟨p.deadline, p.deadline⟩)) ∨
      (idle = false ∧ ¬ p.deadline ≤ now ∧ p.isReady now idle = (false, p)) := by
  rcases idle with _ | _
  · by_cases due : p.deadline ≤ now
    · exact .inr (.inl ⟨rfl, due, if_pos due⟩)
    · exact .inr (.inr ⟨rfl, due, if_neg due⟩)
  · exact .inl ⟨rfl, rfl⟩

theorem toNat_add_idleDelay {now : UInt32} (fits : now.toNat + 100 < 2 ^ 32) :
    (now + idleDelay).toNat = now.toNat + 100 := by
  rw [UInt32.toNat_add]
  change (now.toNat + 100) % 2 ^ 32 = _
  omega

/-- **The next deadline**, as long as the clock does not wrap around. -/
theorem toNat_deadline_schedule (p : Pacer) (now : UInt32) (slices : UInt16)
    (fits : max (p.previous.toNat + 20 * slices.toNat) (now.toNat + 1) < 2 ^ 32) :
    (p.schedule now slices).deadline.toNat
      = max (p.previous.toNat + 20 * slices.toNat) (now.toNat + 1) := by
  have word := slices.toNat_lt
  have due : (p.previous + slices.toUInt32 * sliceLength).toNat
      = p.previous.toNat + 20 * slices.toNat := by
    rw [UInt32.toNat_add, UInt32.toNat_mul, UInt16.toNat_toUInt32]
    change (_ + slices.toNat * 20 % _) % _ = _
    omega
  have tick : (now + 1).toNat = now.toNat + 1 := by
    rw [UInt32.toNat_add]
    change (_ + 1) % _ = _
    omega
  rw [schedule]
  dsimp only
  split
  · next late =>
    rw [UInt32.le_iff_toNat_le, due] at late
    omega
  · next early =>
    rw [UInt32.le_iff_toNat_le, due] at early
    omega

end Pacer

namespace Machine

variable {σ : Type} {h : Host σ} {m : Machine} {c : Controls} {s : σ}

/-- **A pass that is due runs.** If it fails, the deadline stays; if it succeeds, the next one chains
from the one at which the pass was due. -/
theorem run_cases_of_due (awake : c.idle = false) (due : m.nextDeadline ≤ h.ticks s) :
    (run h m c s).machine.passes = m.passes + 1 ∧
      ((∃ e, (run h m c s).result = .error e ∧
          (run h m c s).machine.pacer = ⟨m.nextDeadline, m.nextDeadline⟩) ∨
        ((run h m c s).result = .ok true ∧
          (run h m c s).machine.pacer = Pacer.schedule ⟨m.nextDeadline, m.nextDeadline⟩
            (h.ticks (run h m c s).host)
            ((run h m c s).machine.registers.get Register.pauseSlices))) := by
  have ready : m.pacer.isReady (h.ticks s) c.idle = (true, ⟨m.nextDeadline, m.nextDeadline⟩) := by
    rw [Pacer.isReady, awake]
    exact if_pos due
  rw [run, ready]
  have kept := step_kept h { m with pacer := ⟨m.nextDeadline, m.nextDeadline⟩ } c s
  dsimp only
  generalize step h { m with pacer := ⟨m.nextDeadline, m.nextDeadline⟩ } c s = stepped at kept ⊢
  obtain ⟨m', c', s', result⟩ := stepped
  dsimp only at kept
  have passes : m'.passes = m.passes + 1 := by rw [kept]
  have pacer : m'.pacer = ⟨m.nextDeadline, m.nextDeadline⟩ := by rw [kept]
  rcases result with e | _
  · exact ⟨passes, .inl ⟨e, rfl, pacer⟩⟩
  · refine ⟨passes, .inr ⟨rfl, ?_⟩⟩
    dsimp only
    rw [pacer]

/-- **A pass that is due runs**, and if it succeeds, the next deadline chains from the one at which
it was due. -/
theorem run_of_due (awake : c.idle = false) (due : m.nextDeadline ≤ h.ticks s) {ran : Bool}
    (done : (run h m c s).result = .ok ran) :
    ran = true ∧ (run h m c s).machine.passes = m.passes + 1 ∧
      (run h m c s).machine.pacer = Pacer.schedule ⟨m.nextDeadline, m.nextDeadline⟩
        (h.ticks (run h m c s).host)
        ((run h m c s).machine.registers.get Register.pauseSlices) := by
  obtain ⟨passes, ⟨e, failed, -⟩ | ⟨succeeded, pacer⟩⟩ := run_cases_of_due awake due
  · cases done.symm.trans failed
  · cases done.symm.trans succeeded
    exact ⟨rfl, passes, pacer⟩

end Machine

end Cinematic
