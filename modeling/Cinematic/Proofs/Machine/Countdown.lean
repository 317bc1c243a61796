import Mathlib.Logic.Function.Iterate
import Cinematic.Proofs.Bytecode.Exactness
import Cinematic.Proofs.Machine.Point

/-!
# Countdown loops

The shortest loop there is consists of one instruction, which counts a register down and goes back to
itself unless the register has become zero. A thread that enters it stays in it for as many rounds as
the word in the register says, and **zero says 65536**, because the word is counted down before it is
looked at (`Cinematic.Machine.countdownLength`).

All rounds belong to one slice, so the loop is left only if there is fuel for all of them
(`Cinematic.Machine.countdown`). The rounds are told one by one: each finds the register counted down
by one more, and everything else as the first one has found it
(`Cinematic.Machine.Point.Rounds`). The thread itself does not move either, since it stands at the
loop when it enters it (`Cinematic.Machine.Reaches.stands`).
-/

namespace Cinematic

open Bytecode

namespace Machine

open Point (Leads)

/-! ### Counting down -/

/-- **How often a word has to be counted down until it is zero.** -/
def countdownLength (word : UInt16) : Nat := if word = 0 then 65536 else word.toNat

theorem countdownLength_pos (word : UInt16) : 0 < countdownLength word := by
  rw [countdownLength]
  split
  · decide
  · next some => exact Nat.pos_of_ne_zero fun none => some (UInt16.toNat_inj.1 none)

/-- Not before then. -/
theorem sub_eq_zero_iff {word : UInt16} {k : Nat} (some : 0 < k)
    (within : k ≤ countdownLength word) : word - k.toUInt16 = 0 ↔ k = countdownLength word := by
  have bound := word.toNat_lt
  rw [← UInt16.toNat_inj, UInt16.toNat_sub, UInt16.toNat_ofNat', UInt16.toNat_zero]
  by_cases zero : word = 0
  · rw [countdownLength, if_pos zero] at *
    rw [zero, UInt16.toNat_zero]
    omega
  · have positive : word.toNat ≠ 0 := fun none => zero (UInt16.toNat_inj.1 none)
    rw [countdownLength, if_neg zero] at *
    omega

/-- The machine with a register counted down so many times. -/
def countedDown (m : Machine) (r : UInt8) (k : Nat) : Machine :=
  m.setRegister r (m.registers.get r - k.toUInt16)

@[simp] theorem get_countedDown (m : Machine) (r : UInt8) (k : Nat) :
    (m.countedDown r k).registers.get r = m.registers.get r - k.toUInt16 :=
  RegisterFile.get_set_self _ _ _

theorem countedDown_zero (m : Machine) (r : UInt8) : m.countedDown r 0 = m := by
  simp [countedDown, setRegister]

/-- Counting down once more. -/
theorem updateRegister_countedDown (m : Machine) (r : UInt8) (k : Nat) :
    (m.countedDown r k).updateRegister r (· - 1) = m.countedDown r (k + 1) := by
  have once (word : UInt16) : word - k.toUInt16 - 1 = word - (k + 1).toUInt16 := by
    rw [← UInt16.toNat_inj]
    simp only [UInt16.toNat_sub, UInt16.toNat_ofNat', UInt16.toNat_one]
    omega
  simp [countedDown, setRegister, updateRegister, RegisterFile.update, once]

/-- A thread that is put to where it stands. -/
theorem setPc_of_pc {m : Machine} {t : Fin threadCount} {pc : UInt16}
    (place : (m.thread t).pc = pc) : m.setPc t pc = m := by
  have same : { m.thread t with pc := pc } = m.thread t := by rw [← place]
  have kept : m.threads.set t (m.thread t) = m.threads := Vector.set_getElem_self t.isLt
  rw [setPc, same, kept]

/-! ### Rounds -/

/-- **A countdown loop**: at the offset stands the instruction that counts the register down and goes
on at this offset unless the register has become zero. -/
def LoopAt (segment : Bytes) (a : UInt16) (r : UInt8) : Prop :=
  FieldsAt segment a.toNat [.byte 0x09, .byte r, .word a]

instance (segment : Bytes) (a : UInt16) (r : UInt8) : Decidable (LoopAt segment a r) := by
  unfold LoopAt FieldsAt FieldsAt FieldsAt FieldsAt
  infer_instance

namespace Point

variable {σ : Type}

/-- **Rounds of a countdown loop**: so many times the thread has executed the instruction of the loop,
each time with the register counted down by one more and everything else as at the point. -/
structure Rounds (p : Point σ) (a : UInt16) (r : UInt8) (k : Nat) (es : List Execution) : Prop where
  before : es.map Execution.before = (List.range k).map fun i => p.machine.countedDown r i
  each : ∀ e ∈ es, e.thread = p.thread ∧ e.offset = a ∧ e.instruction = .djnz r a ∧
    e.isCompleted = true

/-- The point after so many rounds of a countdown loop, as long as it goes on: the register is counted
down, and the host has been shown the instruction each time and asked for nothing. -/
def afterRounds (h : Host σ) (p : Point σ) (a : UInt16) (r : UInt8) (k : Nat) : Point σ :=
  { p with
    fuel := p.fuel - k
    machine := p.machine.countedDown r k
    host := (h.observe · (.instruction p.thread a (.djnz r a)))^[k] p.host }

variable {h : Host σ} {p : Point σ} {a : UInt16} {r : UInt8}

theorem afterRounds_succ (h : Host σ) (p : Point σ) (a : UInt16) (r : UInt8) (k : Nat) :
    p.afterRounds h a r (k + 1) = { p with
      fuel := p.fuel - k - 1
      machine := p.machine.countedDown r (k + 1)
      host := h.observe (p.afterRounds h a r k).host (.instruction p.thread a (.djnz r a)) } := by
  rw [afterRounds, Function.iterate_succ_apply']
  rfl

/-- **One round.** It leads back to the loop, or behind it if the register has become zero. -/
theorem exists_round (loop : LoopAt p.machine.segment a r) (here : p.pos = a.toNat)
    (some : 0 < p.fuel) :
    let counted := p.machine.updateRegister r (· - 1)
    let resume := if counted.registers.get r ≠ 0 then a.toNat else a.toNat + 4
    ∃ e, Leads h p [e] ⟨p.thread, p.fuel - 1, counted.setPc p.thread resume.toUInt16,
        h.observe p.host (.instruction p.thread a (.djnz r a)), resume⟩ ∧
      e.before = p.machine ∧ e.thread = p.thread ∧ e.offset = a ∧ e.instruction = .djnz r a ∧
        e.isCompleted = true := by
  intro counted resume
  obtain ⟨t, fuel, m, s, pos⟩ := p
  obtain ⟨fuel, rfl⟩ := Nat.exists_eq_succ_of_ne_zero (Nat.ne_of_gt some)
  dsimp only at *
  subst here
  have offset : a.toNat.toUInt16 = a := UInt16.ofNat_toNat
  have read : Instruction.decode ⟨m.segment, a.toNat⟩ = .ok (.djnz r a) ⟨m.segment, a.toNat + 4⟩ :=
    Instruction.accepts_decode (.djnz r a) loop
  let e : Execution := ⟨t, m, a.toNat, .djnz r a, a.toNat + 4, .ok resume counted,
    ⟨_, read, rfl⟩, ⟨σ, h, s, rfl⟩⟩
  have here : e.IsAt h t m s a.toNat (h.observe s (.instruction t a (.djnz r a))) :=
    ⟨rfl, rfl, rfl, by rw [offset]; rfl⟩
  exact ⟨e, .goes here rfl rfl (.stays _), rfl, rfl, offset, rfl, rfl⟩

theorem Rounds.length {k : Nat} {es : List Execution} (rounds : Rounds p a r k es) :
    es.length = k := by
  simpa using congrArg List.length rounds.before

/-- One more round. -/
theorem Rounds.concat {k : Nat} {es : List Execution} {e : Execution} (rounds : Rounds p a r k es)
    (before : e.before = p.machine.countedDown r k)
    (facts : e.thread = p.thread ∧ e.offset = a ∧ e.instruction = .djnz r a ∧
      e.isCompleted = true) : Rounds p a r (k + 1) (es ++ [e]) where
  before := by simp [rounds.before, before, List.range_succ]
  each e' member := by
    rcases List.mem_append.1 member with earlier | last
    · exact rounds.each e' earlier
    · obtain rfl := List.mem_singleton.1 last
      exact facts

/-- **The round after so many others** is the last one if it is the one that the register says. -/
theorem exists_next_round (loop : LoopAt p.machine.segment a r) (here : p.pos = a.toNat) {k : Nat}
    (within : k < countdownLength (p.machine.registers.get r)) (enough : k < p.fuel)
    {es : List Execution} (rounds : Rounds p a r k es) :
    let resume :=
      if k + 1 = countdownLength (p.machine.registers.get r) then a.toNat + 4 else a.toNat
    ∃ e, Rounds p a r (k + 1) (es ++ [e]) ∧
      Leads h (p.afterRounds h a r k) [e] { p.afterRounds h a r (k + 1) with
        machine := (p.machine.countedDown r (k + 1)).setPc p.thread resume.toUInt16
        pos := resume } := by
  intro resume
  obtain ⟨e, round, before, facts⟩ := exists_round (h := h) (p := p.afterRounds h a r k) loop here
    (show 0 < p.fuel - k by omega)
  have next : (p.afterRounds h a r k).machine.updateRegister r (· - 1)
      = p.machine.countedDown r (k + 1) := updateRegister_countedDown _ _ _
  have goes : (if (p.machine.countedDown r (k + 1)).registers.get r ≠ 0 then a.toNat
      else a.toNat + 4) = resume := by
    rw [get_countedDown, ite_not]
    exact if_congr (sub_eq_zero_iff (Nat.succ_pos k) within) rfl rfl
  rw [next, goes] at round
  rw [afterRounds_succ]
  exact ⟨e, rounds.concat before facts, round⟩

/-- **As long as the register does not become zero the loop goes on.** -/
theorem exists_rounds (loop : LoopAt p.machine.segment a r) (here : p.pos = a.toNat)
    (stands : p.Stands) {k : Nat} (early : k < countdownLength (p.machine.registers.get r))
    (enough : k ≤ p.fuel) :
    ∃ es, Rounds p a r k es ∧ Leads h p es (p.afterRounds h a r k) := by
  induction k with
  | zero =>
    have same : p.afterRounds h a r 0 = p := by
      rw [afterRounds, countedDown_zero]
      rfl
    rw [same]
    exact ⟨[], ⟨rfl, by simp⟩, .stays p⟩
  | succ k ih =>
    obtain ⟨es, rounds, leads⟩ := ih (by omega) (by omega)
    obtain ⟨e, rounds, round⟩ :=
      exists_next_round (h := h) loop here (Nat.lt_of_succ_lt early) enough rounds
    have place : ((p.machine.countedDown r (k + 1)).thread p.thread).pc = p.pos.toUInt16 := stands
    rw [if_neg (Nat.ne_of_lt early), ← here, setPc_of_pc place] at round
    exact ⟨es ++ [e], rounds, leads.trans round⟩

end Point

/-! ### The loop in a pass -/

section

variable {σ : Type} {h : Host σ} {m : Machine} {c : Controls} {s : σ} {past : List Execution}
  {p : Point σ} {a : UInt16} {r : UInt8}

/-- **A countdown loop takes as many rounds as its register says**, and 65536 if it is zero. Let a pass
reach a loop, with some fuel left. If this is enough, the pass completes just these rounds and then
reaches the point behind the loop, with the rest of the fuel. If it is not, all of the fuel is spent
on rounds, and the pass fails for want of fuel at the loop. Each round finds the register counted down
by one more, and nothing else is changed meanwhile: in the end the register is zero, or what is left
of it, the thread stands where it goes on, and all else of the machine is as it was. The host is shown
the instruction in every round, and is asked for nothing. -/
theorem countdown (loop : LoopAt m.segment a r) (reached : Reaches h m c s past p)
    (here : p.pos = a.toNat) :
    let word := p.machine.registers.get r
    let length := countdownLength word
    let told (k : Nat) := (h.observe · (.instruction p.thread a (.djnz r a)))^[k] p.host
    (length ≤ p.fuel → ∃ es, p.Rounds a r length es ∧ es.length = length ∧
      Reaches h m c s (past ++ es) ⟨p.thread, p.fuel - length,
        (p.machine.setRegister r 0).setPc p.thread (a + 4), told length, a.toNat + 4⟩) ∧
    (p.fuel < length → ∃ es, p.Rounds a r p.fuel es ∧ es.length = p.fuel ∧
      executions h m c s = past ++ es ∧
      (step h m c s).result = .error (.fuelExhausted p.thread a) ∧
      (step h m c s).machine = p.machine.setRegister r (word - p.fuel.toUInt16) ∧
      (step h m c s).host = told p.fuel) := by
  intro word length told
  rw [← reached.segment] at loop
  have stands := reached.stands
  refine ⟨fun enough => ?_, fun short => ?_⟩
  · -- all rounds but one lead back to the loop, and the last one behind it
    obtain ⟨k, last⟩ := Nat.exists_eq_add_one.2 (countdownLength_pos word)
    have within : k < length := by omega
    obtain ⟨es, rounds, leads⟩ :=
      Point.exists_rounds (h := h) loop here stands within (by omega)
    obtain ⟨e, rounds, round⟩ :=
      Point.exists_next_round (h := h) loop here within (by omega) rounds
    have zero : word - length.toUInt16 = 0 :=
      (sub_eq_zero_iff (countdownLength_pos word) (Nat.le_refl _)).2 rfl
    have behind : (a.toNat + 4).toUInt16 = a + 4 := by
      rw [← UInt16.toNat_inj]
      simp
    have whole := reached.leads (leads.trans round)
    rw [if_pos last.symm, ← last, behind, countedDown, zero] at whole
    rw [← last] at rounds
    exact ⟨es ++ [e], rounds, rounds.length, whole⟩
  · -- no fuel is left after as many rounds as there was fuel for
    obtain ⟨es, rounds, leads⟩ :=
      Point.exists_rounds (h := h) loop here stands short (Nat.le_refl _)
    have offset : p.pos.toUInt16 = a := here ▸ UInt16.ofNat_toNat
    obtain ⟨executed, machine, host, result⟩ :=
      (reached.leads leads).step_of_exhausted (Nat.sub_self p.fuel)
    exact ⟨es, rounds, rounds.length, executed, offset ▸ result, machine, host⟩

/-- Thread 0 begins with a loop on a register that is zero. With just enough fuel it comes to the
instruction behind the loop, and then has none left; with one unit less it fails in the loop, before
the last round. -/
theorem countdown_of_zero :
    let m (fuel : UInt32) := ((powerOn .standard 0).install #[0x09, 1, 0, 0, 0x06]).withFuel fuel
    let t : Fin threadCount := ⟨0, by decide⟩
    (∃ es q, Reaches Rehearsal.host (m 65536) .neutral (.start []) es q ∧ es.length = 65536 ∧
      q.thread = t ∧ q.pos = 4 ∧ q.fuel = 0 ∧ q.machine.registers.get 1 = 0) ∧
    (step Rehearsal.host (m 65535) .neutral (.start [])).result = .error (.fuelExhausted t 0) ∧
    (step Rehearsal.host (m 65535) .neutral (.start [])).machine.registers.get 1 = 1 := by
  intro m t
  have order : List.finRange threadCount = [] ++ t :: (List.finRange threadCount).tail := rfl
  have loop (fuel : UInt32) : LoopAt (m fuel).segment 0 1 :=
    show LoopAt #[0x09, 1, 0, 0, 0x06] 0 1 by decide
  have begins : let m := ((powerOn .standard 0).install #[0x09, 1, 0, 0, 0x06]).commit .neutral
      (m.thread t).isRunnable = true ∧ (m.thread t).pc.toNat = 0 ∧ m.registers.get 1 = 0 := by
    decide +kernel
  have reached (fuel : UInt32) : ∃ p, Reaches Rehearsal.host (m fuel) .neutral (.start []) [] p ∧
      p.thread = t ∧ p.fuel = fuel.toNat ∧ p.pos = 0 ∧ p.machine.registers.get 1 = 0 :=
    ⟨_, .first order (by simp) begins.1, rfl, rfl, begins.2.1, begins.2.2⟩
  constructor
  · obtain ⟨p, reached, thread, fuel, here, zero⟩ := reached 65536
    have length : countdownLength (p.machine.registers.get 1) = 65536 := if_pos zero
    have much : p.fuel = 65536 := fuel
    obtain ⟨es, -, rounds, behind⟩ := (countdown (loop _) reached here).1 (by omega)
    exact ⟨_, _, behind, rounds.trans length, thread, rfl, show p.fuel - _ = 0 by omega,
      RegisterFile.get_set_self _ _ _⟩
  · obtain ⟨p, reached, thread, fuel, here, zero⟩ := reached 65535
    have length : countdownLength (p.machine.registers.get 1) = 65536 := if_pos zero
    have little : p.fuel = 65535 := fuel
    obtain ⟨es, -, -, -, failed, left, -⟩ := (countdown (loop _) reached here).2 (by omega)
    refine ⟨thread ▸ failed, ?_⟩
    rw [left, zero, little]
    exact RegisterFile.get_set_self _ _ _

end

end Machine

end Cinematic
