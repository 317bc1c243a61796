import Cinematic.Proofs.Host.Alike
import Cinematic.Proofs.Machine.Execution

/-!
# Comparing two machines

A machine counts its passes and keeps a pacer, and **no instruction looks at either**. So a machine
of another age (`Cinematic.Machine.inTime`) runs just like the machine itself, and with hosts that
cannot be told apart the two show and ask for the same
(`Cinematic.Machine.step_alike`).

What can be changed about a machine without an instruction noticing is said once
(`Cinematic.Machine.Unseen`); the age is one such thing, and the limit to what a pass may execute is
another. What is noticed by the check of the code wheel alone is apart
(`Cinematic.Machine.Overlooked`). Both differences, in the host and in the machine, are followed by
one induction over slices and turns. For a single instruction they are looked at one after the
other: the host is the business of `Cinematic.Machine.execute_alike`, and the machine that of
`Cinematic.Machine.Unseen.execute`.
-/

namespace Cinematic

open Bytecode

namespace Machine

/-- The machine at another time: it has counted other passes and has another pacer. -/
def inTime (m : Machine) (passes : Nat) (pacer : Pacer) : Machine :=
  { m with passes := passes, pacer := pacer }

/-! ### One instruction -/

section Execute

variable {m : Machine} {t : Fin threadCount} {pc : UInt16} {next : Nat}

/-- **A change to a machine that leaves alone what instructions look at**, with the exception
perhaps of whether the check of the code wheel is answered for the player; and what they change can
as well be changed beforehand. -/
structure Overlooked (f : Machine → Machine) : Prop where
  segment (m : Machine) : (f m).segment = m.segment
  registers (m : Machine) : (f m).registers = m.registers
  threads (m : Machine) : (f m).threads = m.threads
  stack (m : Machine) : (f m).stack = m.stack
  setRegisters (m : Machine) (r : RegisterFile) :
    f { m with registers := r } = { f m with registers := r }
  setThreads (m : Machine) (ts : Vector Thread threadCount) :
    f { m with threads := ts } = { f m with threads := ts }
  setStack (m : Machine) (stack : CallStack) :
    f { m with stack := stack } = { f m with stack := stack }

/-- **A change to a machine of which instructions take no notice**, not even that one. -/
structure Unseen (f : Machine → Machine) : Prop extends Overlooked f where
  bypasses (m : Machine) (cond : Condition) (reg : UInt8) (operand : Comparand) :
    (f m).bypasses cond reg operand = m.bypasses cond reg operand

/-- Whether the check of the code wheel is answered makes no difference to this instruction. -/
def Heedless (f : Machine → Machine) (m : Machine) (i : Instruction) : Prop :=
  ∀ cond reg operand target, i = .cjmp cond reg operand target →
    (f m).bypasses cond reg operand = m.bypasses cond reg operand

theorem unseen_inTime (passes : Nat) (pacer : Pacer) : Unseen (·.inTime passes pacer) where
  segment _ := rfl
  registers _ := rfl
  threads _ := rfl
  stack _ := rfl
  bypasses _ _ _ _ := rfl
  setRegisters _ _ := rfl
  setThreads _ _ := rfl
  setStack _ _ := rfl

theorem unseen_id : Unseen id where
  segment _ := rfl
  registers _ := rfl
  threads _ := rfl
  stack _ := rfl
  bypasses _ _ _ _ := rfl
  setRegisters _ _ := rfl
  setThreads _ _ := rfl
  setStack _ _ := rfl

/-- The outcome of an instruction on the changed machine. -/
def outcomeWith (f : Machine → Machine) : Ended → Ended
  | .ok resume m => .ok resume (f m)
  | .error x m => .error x (f m)

namespace Overlooked

variable {f : Machine → Machine} (overlooked : Overlooked f)

include overlooked

theorem setPc (m : Machine) (t : Fin threadCount) (pc : UInt16) :
    (f m).setPc t pc = f (m.setPc t pc) := by
  simp only [Machine.setPc, overlooked.threads]
  exact (overlooked.setThreads m _).symm

theorem updateRegister (m : Machine) (reg : UInt8) (g : UInt16 → UInt16) :
    (f m).updateRegister reg g = f (m.updateRegister reg g) := by
  simp only [Machine.updateRegister, overlooked.registers]
  exact (overlooked.setRegisters m _).symm

theorem answerCodeWheel (m : Machine) : (f m).answerCodeWheel = f m.answerCodeWheel := by
  simp only [Machine.answerCodeWheel, overlooked.registers]
  exact (overlooked.setRegisters m _).symm

theorem executeCall (target : UInt16) :
    (f m).executeCall t pc target next = outcomeWith f (m.executeCall t pc target next) := by
  rw [Machine.executeCall, Machine.executeCall, overlooked.stack]
  cases m.stack.push? next.toUInt16 with
  | none => rfl
  | some stack =>
    exact congrArg (EStateM.Result.ok target.toNat) (overlooked.setStack m _).symm

theorem executeRet : (f m).executeRet t pc = outcomeWith f (m.executeRet t pc) := by
  rw [Machine.executeRet, Machine.executeRet, overlooked.stack]
  cases m.stack.pop? with
  | none => rfl
  | some popped =>
    exact congrArg (EStateM.Result.ok popped.1.toNat) (overlooked.setStack m popped.2).symm

theorem executeDjnz (reg : UInt8) (target : UInt16) :
    (f m).executeDjnz reg target next = outcomeWith f (m.executeDjnz reg target next) := by
  simp only [Machine.executeDjnz, overlooked.updateRegister, overlooked.registers, outcomeWith]

theorem executeInit (index : UInt8) (target : UInt16) :
    (f m).executeInit t pc index target next
      = outcomeWith f (m.executeInit t pc index target next) := by
  simp only [Machine.executeInit, overlooked.threads]
  split
  · exact congrArg (EStateM.Result.ok next) (overlooked.setThreads m _).symm
  · rfl

theorem executeReset (first last : UInt8) (mode : ResetMode) :
    (f m).executeReset t pc first last mode next
      = outcomeWith f (m.executeReset t pc first last mode next) := by
  cases mode with
  | invalid code => rfl
  | _ =>
    simp only [Machine.executeReset, overlooked.threads]
    split
    · rfl
    · split
      · rfl
      · split
        · rfl
        · exact congrArg (EStateM.Result.ok next) (overlooked.setThreads m _).symm

theorem executeCjmp (cond : Condition) (reg : UInt8) (operand : Comparand) (target : UInt16) :
    (f m).executeCjmp t pc cond reg operand target next
      = outcomeWith f (m.executeCjmp t pc cond reg operand target next) := by
  cases cond with
  | undefined code => rfl
  | _ =>
    simp only [Machine.executeCjmp, overlooked.registers]
    rfl

/-- **An instruction takes no notice of the change**, unless it is such a check. -/
theorem execute {σ : Type} (h : Host σ) (s : σ) {i : Instruction} (heedless : Heedless f m i) :
    execute h (f m) s t pc i next
      = ((execute h m s t pc i next).1, outcomeWith f (execute h m s t pc i next).2) := by
  cases i with
  | immediate op dst imm =>
    exact congrArg (fun m => (s, EStateM.Result.ok next m)) (overlooked.updateRegister m dst _)
  | register op dst src =>
    simp only [Machine.execute, overlooked.updateRegister, overlooked.registers]
    rfl
  | call target => exact congrArg (s, ·) (overlooked.executeCall target)
  | ret => exact congrArg (s, ·) overlooked.executeRet
  | djnz reg target => exact congrArg (s, ·) (overlooked.executeDjnz reg target)
  | init index target => exact congrArg (s, ·) (overlooked.executeInit index target)
  | reset first last mode => exact congrArg (s, ·) (overlooked.executeReset first last mode)
  | cjmp cond reg operand target =>
    simp only [Machine.execute, heedless cond reg operand target rfl]
    split
    · rw [overlooked.answerCodeWheel]
      rfl
    · exact congrArg (s, ·) (overlooked.executeCjmp cond reg operand target)
  | copy src dst =>
    simp only [Machine.execute, overlooked.registers]
    rfl
  | poly code offset x y zoom shapes =>
    simp only [Machine.execute, overlooked.registers]
    rfl
  | loadres id =>
    simp only [Machine.execute]
    generalize executeLoad h s id = loaded
    obtain ⟨result, s'⟩ := loaded
    cases result with
    | error x => rfl
    | ok _ => rfl
  | _ => rfl

end Overlooked

/-- **An instruction takes no notice of the change.** -/
theorem Unseen.execute {f : Machine → Machine} (unseen : Unseen f) {σ : Type} (h : Host σ) (s : σ)
    (i : Instruction) :
    execute h (f m) s t pc i next
      = ((execute h m s t pc i next).1, outcomeWith f (execute h m s t pc i next).2) :=
  unseen.toOverlooked.execute h s fun cond reg operand _ _ => unseen.bypasses m cond reg operand

end Execute

/-! ### Slices and passes -/

section Alike

variable {σ₁ σ₂ : Type} {h₁ : Host σ₁} {h₂ : Host σ₂} {R : σ₁ → σ₂ → Prop} {N : Nat → Nat → Prop}

/-- **What two runs leave behind that cannot be told apart** but by the change. -/
inductive Ran.Alike (R : σ₁ → σ₂ → Prop) (f : Machine → Machine) : Ran σ₁ → Ran σ₂ → Prop
  | intro (m : Machine) {s₁ : σ₁} {s₂ : σ₂} (related : R s₁ s₂)
    (result : Except RuntimeError Nat) : Ran.Alike R f ⟨m, s₁, result⟩ ⟨f m, s₂, result⟩

section Runs

variable {f : Machine → Machine} (unseen : Unseen f) (alike : h₁.Alike h₂ R N)

include unseen alike

theorem slice_alike (t : Fin threadCount) (fuel : Nat) (m : Machine) {s₁ : σ₁} {s₂ : σ₂}
    (related : R s₁ s₂) (pos : Nat) :
    Ran.Alike R f (slice h₁ t fuel m s₁ pos) (slice h₂ t fuel (f m) s₂ pos) := by
  induction fuel generalizing m s₁ s₂ pos with
  | zero => exact .intro m related _
  | succ fuel ih =>
    rw [slice, slice, unseen.segment]
    cases Instruction.decode ⟨m.segment, pos⟩ with
    | error x c => exact .intro m related _
    | ok i c =>
      dsimp only
      have shown := alike.observe related (e := .instruction t pos.toUInt16 i) (by simp)
      -- the instruction runs with the other host, and then on the changed machine
      obtain ⟨same, related'⟩ := execute_alike alike.toAnswers shown m t pos.toUInt16 i c.pos
      rw [unseen.execute, ← same]
      generalize execute h₁ m (h₁.observe s₁ (.instruction t pos.toUInt16 i)) t pos.toUInt16 i c.pos
        = x₁ at related' ⊢
      obtain ⟨s₁', outcome⟩ := x₁
      cases outcome with
      | error x m' => exact .intro m' related' _
      | ok resume m' =>
        simp only [outcomeWith, unseen.setPc]
        split
        · exact .intro (m'.setPc t resume.toUInt16) related' _
        · exact ih (m'.setPc t resume.toUInt16) related' resume

theorem turn_alike (t : Fin threadCount) (fuel : Nat) (m : Machine) {s₁ : σ₁} {s₂ : σ₂}
    (related : R s₁ s₂) : Ran.Alike R f (turn h₁ t fuel m s₁) (turn h₂ t fuel (f m) s₂) := by
  have begun := alike.observe related (e := .slice t (m.thread t).pc) (by simp)
  have sliced := slice_alike unseen alike t fuel m begun (m.thread t).pc.toNat
  simp only [turn, unseen.threads]
  generalize slice h₁ t fuel m (h₁.observe s₁ (.slice t (m.thread t).pc))
    (m.thread t).pc.toNat = ran₁ at sliced ⊢
  generalize slice h₂ t fuel (f m) (h₂.observe s₂ (.slice t (m.thread t).pc))
    (m.thread t).pc.toNat = ran₂ at sliced ⊢
  cases sliced with
  | intro m' related' result =>
    cases result with
    | error x => exact .intro m' related' _
    | ok fuel' =>
      simp only [unseen.threads]
      exact .intro m' (alike.observe related' (e := .yielded t (m'.thread t).pc) (by simp)) _

theorem turns_alike (ts : List (Fin threadCount)) (fuel : Nat) (m : Machine) {s₁ : σ₁} {s₂ : σ₂}
    (related : R s₁ s₂) :
    Ran.Alike R f (turns h₁ ts fuel m s₁) (turns h₂ ts fuel (f m) s₂) := by
  induction ts generalizing fuel m s₁ s₂ with
  | nil => exact .intro m related _
  | cons t rest ih =>
    rw [turns, turns, unseen.threads]
    split
    · have turned := turn_alike unseen alike t fuel m related
      generalize turn h₁ t fuel m s₁ = ran₁ at turned ⊢
      generalize turn h₂ t fuel (f m) s₂ = ran₂ at turned ⊢
      cases turned with
      | intro m' related' result =>
        cases result with
        | error x => exact .intro m' related' _
        | ok fuel' => exact ih fuel' m' related'
    · exact ih fuel m related

end Runs

/-- What two passes leave behind that cannot be told apart but by the time. -/
inductive Stepped.Alike (R : σ₁ → σ₂ → Prop) (passes : Nat) (pacer : Pacer) :
    Stepped σ₁ Unit → Stepped σ₂ Unit → Prop
  | intro (m : Machine) (c : Controls) {s₁ : σ₁} {s₂ : σ₂} (related : R s₁ s₂)
    (result : Except RuntimeError Unit) :
    Stepped.Alike R passes pacer ⟨m, c, s₁, result⟩ ⟨m.inTime passes pacer, c, s₂, result⟩

/-- **Two machines that differ in nothing but the time, with hosts that cannot be told apart, do the
same in a pass.** -/
theorem step_alike (passes : Nat) (pacer : Pacer) (alike : h₁.Alike h₂ R N) (m : Machine)
    (c : Controls) {s₁ : σ₁} {s₂ : σ₂} (related : R s₁ s₂) (numbers : N m.passes passes) :
    Stepped.Alike R (passes + 1) pacer (step h₁ m c s₁)
      (step h₂ (m.inTime passes pacer) c s₂) := by
  have ran := turns_alike (unseen_inTime (passes + 1) pacer) alike
    (List.finRange threadCount) m.config.fuel.toNat (m.commit c) (alike.pass related numbers)
  -- committing at the other time is committing, at the time after that
  change Ran.Alike R _ _ (turns h₂ (List.finRange threadCount)
    (m.inTime passes pacer).config.fuel.toNat ((m.inTime passes pacer).commit c)
    (h₂.observe s₂ (.pass (m.inTime passes pacer).passes))) at ran
  rw [step, step]
  generalize turns h₁ (List.finRange threadCount) m.config.fuel.toNat (m.commit c)
    (h₁.observe s₁ (.pass m.passes)) = ran₁ at ran ⊢
  generalize turns h₂ (List.finRange threadCount) (m.inTime passes pacer).config.fuel.toNat
    ((m.inTime passes pacer).commit c)
    (h₂.observe s₂ (.pass (m.inTime passes pacer).passes)) = ran₂ at ran ⊢
  cases ran with
  | intro m' related' result => exact .intro m' c.seen related' _

/-- **A pass cannot tell apart two hosts that are alike**, and leaves them alike. -/
theorem step_related (alike : h₁.Alike h₂ R Eq) (m : Machine) (c : Controls) {s₁ : σ₁} {s₂ : σ₂}
    (related : R s₁ s₂) :
    (step h₂ m c s₂).machine = (step h₁ m c s₁).machine ∧
      (step h₂ m c s₂).result = (step h₁ m c s₁).result ∧
      R (step h₁ m c s₁).host (step h₂ m c s₂).host := by
  have ran := turns_alike unseen_id alike (List.finRange threadCount) m.config.fuel.toNat
    (m.commit c) (alike.pass related (Eq.refl m.passes))
  rw [step, step]
  dsimp only [id_eq] at ran
  generalize turns h₁ (List.finRange threadCount) m.config.fuel.toNat (m.commit c)
    (h₁.observe s₁ (.pass m.passes)) = ran₁ at ran ⊢
  generalize turns h₂ (List.finRange threadCount) m.config.fuel.toNat (m.commit c)
    (h₂.observe s₂ (.pass m.passes)) = ran₂ at ran ⊢
  cases ran with
  | intro m' related' result => exact ⟨rfl, rfl, related'⟩

/-- **Nor can a pass that runs only if it is due**, if the hosts have the same clock. -/
theorem run_related (alike : h₁.Alike h₂ R Eq)
    (clock : ∀ {s₁ : σ₁} {s₂ : σ₂}, R s₁ s₂ → h₁.ticks s₁ = h₂.ticks s₂) (m : Machine)
    (c : Controls) {s₁ : σ₁} {s₂ : σ₂} (related : R s₁ s₂) :
    (run h₂ m c s₂).machine = (run h₁ m c s₁).machine ∧
      (run h₂ m c s₂).result = (run h₁ m c s₁).result ∧
      R (run h₁ m c s₁).host (run h₂ m c s₂).host := by
  rw [run, run, clock related]
  split
  · exact ⟨rfl, rfl, related⟩
  · next pacer _ =>
    have stepped := step_related alike { m with pacer := pacer } c related
    generalize step h₁ { m with pacer := pacer } c s₁ = stepped₁ at stepped ⊢
    generalize step h₂ { m with pacer := pacer } c s₂ = stepped₂ at stepped ⊢
    obtain ⟨m₁, c₁, t₁, result₁⟩ := stepped₁
    obtain ⟨m₂, c₂, t₂, result₂⟩ := stepped₂
    obtain ⟨rfl, rfl, related'⟩ := stepped
    cases result₂ with
    | error x => exact ⟨rfl, rfl, related'⟩
    | ok _ =>
      dsimp only at related' ⊢
      rw [clock related']
      exact ⟨rfl, rfl, related'⟩

end Alike

end Machine

end Cinematic
