import Cinematic.Proofs.Machine.Fuel
import Cinematic.Proofs.Machine.Threads

/-!
# A machine at rest stays at rest

A machine is at rest if none of its threads is going to run, once the requests to it have been
committed (`Cinematic.Machine.Resting`). **It then stays at rest for all passes to come**, until
another segment is installed: whatever its controls, its host and its limit, a pass ends well,
executes nothing, and lets its host know no more than that it has begun
(`Cinematic.Machine.resting_forever`).

The reason is that threads run only if instructions ask for it, and there are none. A commit without
new requests changes nothing (`Cinematic.Thread.commit_commit`), so the first pass at rest leaves
threads that every later one finds and leaves again. What changes are the number of passes and the
registers with the player's input. All this is in `Cinematic.Machine.Rested`, which goes from one
pass to the next.

Rest can be seen without looking at threads. A machine whose snapshot shows no threads is at rest
(`Cinematic.Machine.resting_of_snapshot`), and it is the machines at rest that get through a pass
without fuel (`Cinematic.Machine.step_ok_iff_resting`).
-/

namespace Cinematic

/-! ### The player's input -/

/-- **The registers into which the player's input is written.** -/
def inputRegisters : List UInt8 :=
  [Register.inputKey, Register.heroPosLeftRight, Register.heroPosUpDown, Register.heroPosJumpDown,
    Register.heroPosMask, Register.heroAction, Register.heroActionPosMask]

/-- The player's input is written into no other register. -/
theorem Controls.get_writeTo (c : Controls) (r : RegisterFile) {reg : UInt8}
    (other : reg ∉ inputRegisters) : (c.writeTo r).get reg = r.get reg := by
  simp only [inputRegisters, List.mem_cons, List.not_mem_nil, or_false, not_or] at other
  obtain ⟨key, leftRight, upDown, jumpDown, mask, action, actionMask⟩ := other
  rw [writeTo, RegisterFile.get_set_of_ne _ actionMask, RegisterFile.setSigned,
    RegisterFile.get_set_of_ne _ action, RegisterFile.get_set_of_ne _ mask, RegisterFile.setSigned,
    RegisterFile.get_set_of_ne _ jumpDown, RegisterFile.setSigned,
    RegisterFile.get_set_of_ne _ upDown, RegisterFile.setSigned,
    RegisterFile.get_set_of_ne _ leftRight, RegisterFile.get_set_of_ne _ key]

namespace Machine

/-! ### Being at rest -/

/-- **No thread is going to run**: each of them is halted or paused as soon as the requests to it
have taken effect. -/
def Resting (m : Machine) : Prop :=
  ∀ t, (m.thread t).commit.status = .halted ∨ (m.thread t).commit.status = .paused

theorem resting_iff {m : Machine} :
    m.Resting ↔ ∀ t, (m.thread t).commit.isRunnable = false := by
  refine forall_congr' fun t => ?_
  rw [← Bool.not_eq_true, Thread.isRunnable_iff]
  cases (m.thread t).commit.status <;> simp

/-- **A machine whose snapshot shows no threads is at rest.** -/
theorem resting_of_snapshot {m : Machine} (none : m.snapshot.threads = []) : m.Resting := by
  intro t
  have unseen := List.filter_eq_nil_iff.1 (List.map_eq_nil_iff.1 none) (m.thread t, t.val)
    (List.mem_zipIdx_iff_getElem?.2 (by simp))
  -- a thread without a place that has not been asked for one
  simp only [decide_eq_true_eq, not_or, Decidable.not_not] at unseen
  obtain ⟨halted, unasked⟩ := unseen
  left
  rw [Thread.commit, unasked, if_pos rfl]
  unfold Thread.status at halted ⊢
  split at halted
  · next nowhere => exact if_pos nowhere
  · split at halted <;> cases halted

/-- **Installing a segment ends the rest**: its first thread is going to run. -/
theorem not_resting_install (m : Machine) (segment : Bytes) : ¬(m.install segment).Resting := by
  intro resting
  have first : ((m.install segment).thread ⟨0, by decide⟩).commit.status = .runnable := rfl
  rcases resting ⟨0, by decide⟩ with halted | paused
  · cases first.symm.trans halted
  · cases first.symm.trans paused

/-! ### A pass at rest -/

section Pass

variable {σ : Type} {h : Host σ} {m : Machine} {c : Controls} {s : σ}

/-- The turns of threads that do not run. -/
theorem turns_of_not_runnable {ts : List (Fin threadCount)} (fuel : Nat)
    (idle : ∀ t ∈ ts, (m.thread t).isRunnable = false) :
    Turns h ts fuel m s [] ⟨m, s, .ok fuel⟩ := by
  induction ts with
  | nil => exact .done fuel m s
  | cons t rest ih =>
    exact .skips (idle t List.mem_cons_self)
      (ih fun t' later => idle t' (List.mem_cons_of_mem _ later))

/-- Without fuel no thread gets through its turn. -/
theorem Turns.isRunnable_of_ok {ts : List (Fin threadCount)} {es : List Execution} {left : Nat}
    {m' : Machine} {s' : σ} (turns : Turns h ts 0 m s es ⟨m', s', .ok left⟩) :
    ∀ t ∈ ts, (m.thread t).isRunnable = false := by
  induction ts with
  | nil => simp
  | cons t rest ih =>
    cases turns with
    | skips idle others =>
      intro t' member
      rcases List.mem_cons.1 member with rfl | later
      · exact idle
      · exact ih others t' later
    | serves _ slice => cases slice

/-- **A pass at rest is a commit.** -/
theorem Resting.step (resting : m.Resting) (h : Host σ) (c : Controls) (s : σ) :
    step h m c s = ⟨m.commit c, c.seen, h.observe s (.pass m.passes), .ok ()⟩ ∧
      executions h m c s = [] := by
  have idle : ∀ t ∈ List.finRange threadCount, ((m.commit c).thread t).isRunnable = false := by
    intro t _
    rw [commit_thread]
    exact resting_iff.1 resting t
  obtain ⟨none, same⟩ := (turns_spec (h := h) (List.finRange threadCount) m.config.fuel.toNat
    (m.commit c) (h.observe s (.pass m.passes))).unique (turns_of_not_runnable _ idle)
  refine ⟨?_, none⟩
  rw [Machine.step, same]
  rfl

/-- A pass at rest tells its host that it has begun, and nothing else. -/
theorem Resting.minutes (resting : m.Resting) (h : Host σ) (c : Controls) (s : σ) :
    minutes h m c s = [.step (.pass m.passes)] := by
  rw [Machine.minutes, (resting.step h.transcribed c (s, [])).1]
  rfl

/-- **It is the machines at rest that get through a pass without fuel.** -/
theorem step_ok_iff_resting (h : Host σ) (m : Machine) (c : Controls) (s : σ) :
    (step h (m.withFuel 0) c s).result = .ok () ↔ m.Resting := by
  refine ⟨fun well => resting_iff.2 fun t => ?_, fun resting => ?_⟩
  · obtain ⟨result, turns, outcome⟩ := step_turns h (m.withFuel 0) c s
    rw [well] at outcome
    cases result with
    | error x => cases outcome
    | ok left =>
      have idle := turns.isRunnable_of_ok t (List.mem_finRange t)
      rwa [commit_thread] at idle
  · have same : (m.withFuel 0).Resting := resting
    rw [(same.step h c s).1]

end Pass

/-! ### All passes to come -/

/-- **What is left of a machine at rest after a number of passes.** -/
structure Rested (m : Machine) (n : Nat) (m' : Machine) : Prop where
  segment : m'.segment = m.segment
  part : m'.part = m.part
  passes : m'.passes = m.passes + n
  stack : m'.stack = m.stack
  /-- Registers change only where the player's input is written. -/
  registers {reg : UInt8} (other : reg ∉ inputRegisters) :
    m'.registers.get reg = m.registers.get reg
  /-- The threads change only in the first pass. -/
  threads : m'.threads = if n = 0 then m.threads else m.threads.map Thread.commit

namespace Rested

variable {m m' : Machine} {n : Nat}

theorem refl (m : Machine) : Rested m 0 m :=
  ⟨rfl, rfl, rfl, rfl, fun _ => rfl, rfl⟩

/-- The requests to threads that rest have the same effect at any time. -/
theorem thread_commit (rested : Rested m n m') (t : Fin threadCount) :
    (m'.thread t).commit = (m.thread t).commit := by
  have threads := rested.threads
  split at threads
  · rw [Machine.thread, threads]
  · rw [Machine.thread, threads]
    simp only [Fin.getElem_fin, Vector.getElem_map, Thread.commit_commit]

/-- **Rest is kept.** -/
theorem resting (rested : Rested m n m') (resting : m.Resting) : m'.Resting := by
  intro t
  rw [rested.thread_commit]
  exact resting t

/-- One more commit. -/
theorem commit (rested : Rested m n m') (fuel : UInt32) (c : Controls) :
    Rested m (n + 1) ((m'.withFuel fuel).commit c) where
  segment := rested.segment
  part := rested.part
  passes := congrArg (· + 1) rested.passes
  stack := rested.stack
  registers other := (c.get_writeTo _ other).trans (rested.registers other)
  threads := by
    -- the first commit leaves no requests, so it does not matter which one this is
    refine Vector.ext fun i inside => ?_
    have same := rested.thread_commit ⟨i, inside⟩
    simpa [Machine.commit, withFuel] using same

end Rested

/-- **The circumstances of a pass**: a host in some state, the player's controls, and how many
instructions may be executed. -/
structure Occasion where
  /-- The states of the host. -/
  State : Type
  /-- The host. -/
  host : Host State
  /-- The state that the host is in. -/
  state : State
  /-- What the player does. -/
  controls : Controls
  /-- How many instructions may be executed. -/
  fuel : UInt32

namespace Occasion

/-- The pass of a machine under the circumstances. -/
def step (o : Occasion) (m : Machine) : Stepped o.State Unit :=
  Machine.step o.host (m.withFuel o.fuel) o.controls o.state

/-- What the pass executes. -/
def executions (o : Occasion) (m : Machine) : List Execution :=
  Machine.executions o.host (m.withFuel o.fuel) o.controls o.state

/-- What the pass tells its host and asks of it. -/
def minutes (o : Occasion) (m : Machine) : List Message :=
  Machine.minutes o.host (m.withFuel o.fuel) o.controls o.state

end Occasion

/-- The machine after passes under one circumstance after the other. -/
def afterPasses (m : Machine) (os : List Occasion) : Machine :=
  os.foldl (fun m o => (o.step m).machine) m

section

variable {m m' : Machine} {n : Nat}

/-- **What one pass leaves of a machine at rest.** -/
theorem Rested.step (rested : Rested m n m') (resting : m.Resting) (o : Occasion) :
    Rested m (n + 1) (o.step m').machine := by
  have still : (m'.withFuel o.fuel).Resting := rested.resting resting
  rw [Occasion.step, (still.step o.host o.controls o.state).1]
  exact rested.commit o.fuel o.controls

/-- **What any passes leave of a machine at rest.** -/
theorem Rested.afterPasses (rested : Rested m n m') (resting : m.Resting) (os : List Occasion) :
    Rested m (n + os.length) (m'.afterPasses os) := by
  induction os generalizing n m' with
  | nil => exact rested
  | cons o os ih =>
    -- what one pass leaves is what the others begin with
    have later := ih (rested.step resting o)
    rwa [Nat.add_right_comm] at later

end

/-- **A machine at rest stays at rest** as long as no segment is installed. If every thread of a
machine is halted or paused once the requests to it have been committed – for instance, if its
snapshot shows no threads – then after any passes the next one ends well, executes nothing, and
tells its host nothing but that it has begun. It leaves the stack as it was, and of the registers
all but those with the player's input. It commits the requests to the threads if it is the first,
and else leaves all threads as they were. -/
theorem resting_forever {m : Machine} (stopped : m.Resting ∨ m.snapshot.threads = [])
    (past : List Occasion) (o : Occasion) :
    let before := m.afterPasses past
    let stepped := o.step before
    stepped.result = .ok () ∧ o.executions before = [] ∧
      o.minutes before = [.step (.pass (m.passes + past.length))] ∧
      stepped.host = o.host.observe o.state (.pass (m.passes + past.length)) ∧
      stepped.controls = o.controls.seen ∧ stepped.machine.Resting ∧
      Rested m (past.length + 1) stepped.machine ∧
      (past ≠ [] → stepped.machine.threads = before.threads) := by
  intro before stepped
  have resting : m.Resting := stopped.elim id resting_of_snapshot
  have rested : Rested m past.length before := by
    have all := (Rested.refl m).afterPasses resting past
    rwa [Nat.zero_add] at all
  have still : (before.withFuel o.fuel).Resting := rested.resting resting
  obtain ⟨pass, executed⟩ := still.step o.host o.controls o.state
  have next := rested.step resting o
  have number : (before.withFuel o.fuel).passes = m.passes + past.length := rested.passes
  have told := still.minutes o.host o.controls o.state
  have shown : stepped = ⟨_, _, _, _⟩ := pass
  rw [number] at told shown
  refine ⟨?_, executed, told, ?_, ?_, next.resting resting, next, fun later => ?_⟩
  · rw [shown]
  · rw [shown]
  · rw [shown]
  · have first : past.length ≠ 0 := fun zero => later (List.length_eq_zero_iff.1 zero)
    rw [next.threads, rested.threads, if_neg first, if_neg (Nat.succ_ne_zero _)]

/-- Passes without fuel, under typing, after the only thread has ended itself. -/
theorem resting_forever_killed :
    let m := (step Rehearsal.host ((powerOn .standard 0).install #[0x11]) .neutral
      (Rehearsal.start [])).machine
    let o : Occasion :=
      ⟨Rehearsal, Rehearsal.host, .start [], { Controls.neutral with typed := 0x41 }, 0⟩
    m.snapshot.threads = [] ∧ (o.step (m.afterPasses [o, o])).result = .ok () ∧
      o.executions (m.afterPasses [o, o]) = [] := by
  intro m o
  have unseen : m.snapshot.threads = [] := by
    decide +kernel
  obtain ⟨well, executed, -⟩ := resting_forever (Or.inr unseen) [o, o] o
  exact ⟨unseen, well, executed⟩

end Machine

end Cinematic
