import Cinematic.Proofs.Machine.Fuel

/-!
# The code wheel is answered for the player, and nothing else

A machine can be built to answer the code-wheel screen by itself. **Only one instruction ever shows
whether it was**: the conditional jump that compares the first symbol entered with the one that is
expected, in the part with that screen (`Cinematic.Machine.step_bypass`). A pass that does not come
across it is the same with and without the bypass, down to what its host sees of it.

Where the check is executed, the bypass is **no more than a right answer**. A machine without it to
which someone hands the four symbols and the two counters just before the check would go on at the
same place in the same state, because by then the two symbols compared are the same word.

That a pass takes no notice of the bypass is followed along slices and turns, for every change that
is overlooked by all instructions of the pass (`Cinematic.Machine.Turns.overlooked`).
-/

namespace Cinematic

open Bytecode

/-- The instruction checks the first symbol of the code wheel. -/
def Bytecode.Instruction.ChecksWheel (i : Instruction) : Prop :=
  ∃ target, i = .cjmp .equal 0x29 (.reg 0x1e) target

namespace Machine

/-! ### A change that is overlooked -/

section Overlooked

variable {σ : Type} {h : Host σ} {t : Fin threadCount} {ts : List (Fin threadCount)} {fuel : Nat}
  {m : Machine} {s s' : σ} {pos : Nat} {e : Execution} {es : List Execution} {ran : Ran σ}
  {f : Machine → Machine} (apart : Overlooked f)

/-- What a run leaves behind, with the change made. -/
def Ran.mapMachine (ran : Ran σ) (f : Machine → Machine) : Ran σ :=
  { ran with machine := f ran.machine }

include apart

/-- **An instruction that takes no notice of a change can be executed after it.** -/
theorem isAt_overlooked (here : e.IsAt h t m s pos s') (heedless : Heedless f m e.instruction) :
    ∃ e' : Execution, e'.IsAt h t (f m) s pos s' ∧ e'.instruction = e.instruction ∧
      e'.outcome = outcomeWith f e.outcome ∧ e'.after = f e.after := by
  obtain ⟨c, read, next⟩ := here.read
  have execute : Machine.execute h (f m) (h.observe s (.instruction t pos.toUInt16 e.instruction)) t
      pos.toUInt16 e.instruction e.next = _ := apart.execute h _ heedless
  rw [here.execute] at execute
  rw [← apart.segment m] at read
  let e' : Execution := ⟨t, f m, pos, e.instruction, e.next, outcomeWith f e.outcome,
    ⟨c, read, next⟩, ⟨σ, h, _, congrArg Prod.snd execute⟩⟩
  refine ⟨e', ⟨rfl, rfl, rfl, execute⟩, rfl, rfl, ?_⟩
  cases done : e.outcome with
  | error x left =>
    have failed : e'.Fails x := by
      refine ⟨f left, ?_⟩
      change outcomeWith f e.outcome = _
      rw [done]
      rfl
    rw [Execution.Fails.after ⟨left, done⟩, failed.after, here.before]
  | ok resume left =>
    have completed : e'.outcome = .ok resume (f left) := by
      change outcomeWith f e.outcome = _
      rw [done]
      rfl
    rw [Execution.after_of_ok done, Execution.after_of_ok completed, apart.setPc, here.thread]

theorem Slice.overlooked (slice : Slice h t fuel m s pos es ran)
    (heedless : ∀ e ∈ es, Heedless f e.before e.instruction) :
    ∃ es', Slice h t fuel (f m) s pos es' (ran.mapMachine f) := by
  induction slice with
  | exhausted m s pos => exact ⟨[], .exhausted _ _ _⟩
  | @unread fuel m s pos x c read =>
    rw [← apart.segment m] at read
    exact ⟨[], .unread read⟩
  | failed here fails =>
    have unnoticed := heedless _ List.mem_cons_self
    rw [here.before] at unnoticed
    obtain ⟨e', here', -, outcome, after⟩ := isAt_overlooked apart here unnoticed
    obtain ⟨left, failed⟩ := fails
    rw [failed] at outcome
    refine ⟨[e'], ?_⟩
    rw [Ran.mapMachine, ← after]
    exact .failed here' ⟨f left, outcome⟩
  | yields here done last =>
    have unnoticed := heedless _ List.mem_cons_self
    rw [here.before] at unnoticed
    obtain ⟨e', here', same, outcome, after⟩ := isAt_overlooked apart here unnoticed
    rw [done] at outcome
    refine ⟨[e'], ?_⟩
    rw [Ran.mapMachine, ← after]
    exact .yields here' outcome (by rw [same, last])
  | continues here done more _ ih =>
    have unnoticed := heedless _ List.mem_cons_self
    rw [here.before] at unnoticed
    obtain ⟨e', here', same, outcome, after⟩ := isAt_overlooked apart here unnoticed
    rw [done] at outcome
    -- the instruction leaves the changed machine, from which the others follow
    obtain ⟨es', rest⟩ := ih fun e member => heedless e (List.mem_cons_of_mem _ member)
    rw [← after] at rest
    exact ⟨e' :: es', .continues here' outcome (by rw [same, more]) rest⟩

/-- **Turns that take no notice of a change can be taken after it.** -/
theorem Turns.overlooked (turns : Turns h ts fuel m s es ran)
    (heedless : ∀ e ∈ es, Heedless f e.before e.instruction) :
    ∃ es', Turns h ts fuel (f m) s es' (ran.mapMachine f) := by
  have thread (m : Machine) (t : Fin threadCount) : (f m).thread t = m.thread t := by
    simp only [Machine.thread, apart.threads]
  induction turns with
  | done fuel m s => exact ⟨[], .done _ _ _⟩
  | skips idle _ ih =>
    obtain ⟨es', others⟩ := ih heedless
    exact ⟨es', .skips (by rw [thread, idle]) others⟩
  | fails due slice =>
    obtain ⟨es', slice'⟩ := slice.overlooked apart heedless
    rw [← thread] at slice'
    exact ⟨es', .fails (by rw [thread, due]) slice'⟩
  | serves due slice _ ih =>
    obtain ⟨es', slice'⟩ := slice.overlooked apart fun e member =>
      heedless e (List.mem_append_left _ member)
    obtain ⟨es'', others⟩ := ih fun e member => heedless e (List.mem_append_right _ member)
    rw [← thread] at slice' others
    exact ⟨es' ++ es'', .serves (by rw [thread, due]) slice' others⟩

/-- The turns that are taken after the change are the turns that are taken. -/
theorem turns_overlooked (turns : Turns h ts fuel m s es ran)
    (heedless : ∀ e ∈ es, Heedless f e.before e.instruction) :
    Machine.turns h ts fuel (f m) s = ran.mapMachine f := by
  obtain ⟨es', turns'⟩ := turns.overlooked apart heedless
  exact ((turns_spec ts fuel (f m) s).unique turns').2

end Overlooked

/-! ### With and without the bypass -/

/-- The machine with or without the bypass. -/
def withBypass (m : Machine) (bypass : Bool) : Machine :=
  { m with config := { m.config with bypassProtection := bypass } }

theorem overlooked_withBypass (bypass : Bool) : Overlooked (·.withBypass bypass) where
  segment _ := rfl
  registers _ := rfl
  threads _ := rfl
  stack _ := rfl
  setRegisters _ _ := rfl
  setThreads _ _ := rfl
  setStack _ _ := rfl

/-- **Outside the part with the code wheel nothing depends on the bypass, and there only its check
does.** -/
theorem heedless_withBypass {m : Machine} {i : Instruction}
    (quiet : m.part ≠ some 0x3e80 ∨ ¬i.ChecksWheel) (bypass : Bool) :
    Heedless (·.withBypass bypass) m i := by
  rintro cond reg operand target rfl
  have never : ¬(m.part = some 0x3e80 ∧ cond = .equal ∧ reg = 0x29 ∧ operand = .reg 0x1e) := by
    rintro ⟨part, rfl, rfl, rfl⟩
    rcases quiet with elsewhere | other
    · exact elsewhere part
    · exact other ⟨target, rfl⟩
  have off (b : Bool) : (m.withBypass b).bypasses cond reg operand = false :=
    decide_eq_false fun bypassed => never bypassed.2
  have same : m.bypasses cond reg operand = false := off m.config.bypassProtection
  rw [same]
  exact off bypass

/-- The part of a machine, and what it was built with, stay what they are along a course. -/
theorem Course.before_kept {m m' : Machine} {es : List Execution} (course : Course m es m') :
    ∀ e ∈ es, e.before.part = m.part ∧ e.before.config = m.config := by
  induction course with
  | nil => simp
  | @cons e es m' rest ih =>
    intro e' member
    rcases List.mem_cons.1 member with rfl | later
    · exact ⟨rfl, rfl⟩
    · obtain ⟨part, config⟩ := ih e' later
      rw [part, config, e.after_kept]
      exact ⟨rfl, rfl⟩

section

variable {σ : Type} (h : Host σ) (m : Machine) (c : Controls) (s : σ)

/-- **A pass that does not check the code wheel does not depend on the bypass.** -/
theorem step_withBypass (quiet : m.part ≠ some 0x3e80 ∨
      ∀ e ∈ executions h m c s, ¬e.instruction.ChecksWheel) (bypass : Bool) :
    step h (m.withBypass bypass) c s
      = { step h m c s with machine := (step h m c s).machine.withBypass bypass } := by
  have kept := (step_course h m c s).before_kept
  have spec := turns_spec (h := h) (List.finRange threadCount) m.config.fuel.toNat (m.commit c)
    (h.observe s (.pass m.passes))
  have same := turns_overlooked (overlooked_withBypass bypass) spec fun e member =>
    heedless_withBypass (quiet.imp (fun elsewhere => by rw [(kept e member).1]; exact elsewhere)
      fun unchecked => unchecked e member) bypass
  change turns h _ (m.withBypass bypass).config.fuel.toNat ((m.withBypass bypass).commit c)
    (h.observe s (.pass (m.withBypass bypass).passes)) = _ at same
  rw [step, same]
  rfl

end

/-! ### The right answer -/

/-- **The machine to which the right answer has been given from outside**: the four symbols that are
expected, one after the other, and the two counters that tell how many were entered. -/
def answered (m : Machine) : Machine :=
  { m with
    registers := (((((m.registers.set 0x29 (m.registers.get 0x1e)).set
      0x2a (m.registers.get 0x1f)).set
      0x2b (m.registers.get 0x20)).set
      0x2c (m.registers.get 0x21)).set
      0x32 6).set 0x64 20 }

theorem answerCodeWheel_eq (m : Machine) : m.answerCodeWheel = m.answered := rfl

/-- After the right answer the two symbols compared are the same. -/
theorem registers_answered (m : Machine) :
    m.answered.registers.get 0x29 = m.answered.registers.get 0x1e := by
  have entered : m.answered.registers.get 0x29 = m.registers.get 0x1e := by
    rw [answered]
    rw [RegisterFile.get_set_of_ne _ (by decide), RegisterFile.get_set_of_ne _ (by decide),
      RegisterFile.get_set_of_ne _ (by decide), RegisterFile.get_set_of_ne _ (by decide),
      RegisterFile.get_set_of_ne _ (by decide), RegisterFile.get_set_self]
  have expected : m.answered.registers.get 0x1e = m.registers.get 0x1e := by
    rw [answered]
    rw [RegisterFile.get_set_of_ne _ (by decide), RegisterFile.get_set_of_ne _ (by decide),
      RegisterFile.get_set_of_ne _ (by decide), RegisterFile.get_set_of_ne _ (by decide),
      RegisterFile.get_set_of_ne _ (by decide), RegisterFile.get_set_of_ne _ (by decide)]
  rw [entered, expected]

section

variable {σ : Type} (h : Host σ) {m : Machine} (s : σ) (t : Fin threadCount) (pc target : UInt16)
  (next : Nat)

/-- With the bypass, the check answers itself. -/
theorem execute_of_bypass (on : m.config.bypassProtection = true) (part : m.part = some 0x3e80) :
    (execute h m s t pc (.cjmp .equal 0x29 (.reg 0x1e) target) next).2
      = .ok target.toNat m.answered := by
  have bypassed : m.bypasses .equal 0x29 (.reg 0x1e) = true :=
    decide_eq_true ⟨on, part, rfl, rfl, rfl⟩
  rw [execute, if_pos bypassed, answerCodeWheel_eq]

/-- Without it, the check succeeds if the right answer has been given. -/
theorem execute_of_answered :
    (execute h (m.answered.withBypass false) s t pc (.cjmp .equal 0x29 (.reg 0x1e) target) next).2
      = .ok target.toNat (m.answered.withBypass false) := by
  have ordinary : ¬(m.answered.withBypass false).bypasses .equal 0x29 (.reg 0x1e) = true :=
    fun bypassed => Bool.false_ne_true (of_decide_eq_true bypassed).1
  have equal : (m.answered.withBypass false).registers.getSigned 0x29
      = (m.answered.withBypass false).registers.getSigned 0x1e :=
    congrArg UInt16.toInt16 (registers_answered m)
  rw [execute, if_neg ordinary]
  simp only [executeCjmp, comparand, equal, Condition.holds?, decide_true, if_true]

end

/-- **A bypassed check is a check of the right answer.** What it leaves is what the same check
leaves without the bypass, where the right answer has been given just before it. -/
theorem exists_answered {e : Execution} (on : e.before.config.bypassProtection = true)
    (part : e.before.part = some 0x3e80) (checks : e.instruction.ChecksWheel) :
    ∃ e' : Execution, e'.before = e.before.answered.withBypass false ∧ e'.thread = e.thread ∧
      e'.pos = e.pos ∧ e'.instruction = e.instruction ∧ e'.next = e.next ∧
      e.outcome = outcomeWith (·.withBypass true) e'.outcome ∧ e'.isCompleted = true ∧
      e.after = e'.after.withBypass true := by
  obtain ⟨target, instruction⟩ := checks
  obtain ⟨c, read, next⟩ := e.decoded
  obtain ⟨σ, h, s, executed⟩ := e.executed
  rw [instruction, execute_of_bypass h s _ _ _ _ on part] at executed
  have segment : (e.before.answered.withBypass false).segment = e.before.segment := rfl
  have outcome := execute_of_answered h (m := e.before) s e.thread e.pos.toUInt16 target e.next
  rw [← instruction] at outcome
  let e' : Execution := ⟨e.thread, e.before.answered.withBypass false, e.pos, e.instruction, e.next,
    .ok target.toNat (e.before.answered.withBypass false), ⟨c, read, next⟩, ⟨σ, h, s, outcome⟩⟩
  -- with the flag put back this is the machine of the bypass, since that had it
  have back : (e.before.answered.withBypass false).withBypass true = e.before.answered := by
    rw [← on]
    rfl
  refine ⟨e', rfl, rfl, rfl, rfl, rfl, ?_, rfl, ?_⟩
  · rw [← executed, ← back]
    rfl
  · rw [Execution.after_of_ok executed.symm, Execution.after_of_ok (e := e') rfl, ← back]
    rfl

/-- **The bypass is confined to the check of the code wheel, and is no more than a right answer to
it.** In a pass without such a check, or outside the part with the code wheel, it makes no
difference to the result, to any host or to the machine, whatever the host; and where a check is
executed with the bypass, its outcome is that of the same check without it after the right answer
has been written. -/
theorem step_bypass {σ : Type} (h : Host σ) (m : Machine) (c : Controls) (s : σ) :
    (m.part ≠ some 0x3e80 ∨ (∀ e ∈ executions h m c s, ¬e.instruction.ChecksWheel) →
      ∀ bypass, step h (m.withBypass bypass) c s
        = { step h m c s with machine := (step h m c s).machine.withBypass bypass }) ∧
      (m.config.bypassProtection = true → m.part = some 0x3e80 →
        ∀ e ∈ executions h m c s, e.instruction.ChecksWheel →
          ∃ e' : Execution, e'.before = e.before.answered.withBypass false ∧
            e'.thread = e.thread ∧ e'.pos = e.pos ∧ e'.instruction = e.instruction ∧
            e'.next = e.next ∧ e.outcome = outcomeWith (·.withBypass true) e'.outcome ∧
            e'.isCompleted = true ∧ e.after = e'.after.withBypass true) := by
  refine ⟨step_withBypass h m c s, fun on part e member checks => ?_⟩
  obtain ⟨part', config⟩ := (step_course h m c s).before_kept e member
  refine exists_answered ?_ ?_ checks
  · rw [config]
    exact on
  · rw [part']
    exact part

/-- A check of the code wheel, in the part with the code wheel and outside it. -/
theorem step_bypass_wheel :
    let outside := (powerOn .standard 0).install #[0x0a, 0x80, 0x29, 0x1e, 0, 6, 0x06]
    let inside := { outside with part := some 0x3e80 }
    let start := Rehearsal.start []
    step Rehearsal.host (outside.withBypass false) .neutral start
        = { step Rehearsal.host outside .neutral start with
          machine := (step Rehearsal.host outside .neutral start).machine.withBypass false } ∧
      ∃ e ∈ executions Rehearsal.host inside .neutral start, ∃ e' : Execution,
        e'.before = e.before.answered.withBypass false ∧ e.after = e'.after.withBypass true := by
  intro outside inside start
  have found : ∃ e ∈ executions Rehearsal.host inside .neutral start,
      e.instruction = .cjmp .equal 0x29 (.reg 0x1e) 6 := by
    decide +kernel
  obtain ⟨e, member, instruction⟩ := found
  obtain ⟨quiet, -⟩ := step_bypass Rehearsal.host outside .neutral start
  obtain ⟨-, answers⟩ := step_bypass Rehearsal.host inside .neutral start
  obtain ⟨e', before, -, -, -, -, -, -, after⟩ := answers rfl rfl e member ⟨6, instruction⟩
  exact ⟨quiet (Or.inl nofun) false, e, member, e', before, after⟩

end Machine

end Cinematic
