import Mathlib.Data.List.Sort
import Cinematic.Proofs.Machine.Schedule

/-!
# Where a failing pass stops

A pass that fails **stops between two instructions**. Whatever the reason is – no fuel, no
instruction where the thread stands, or an instruction that fails – the machine is left as the
completed instructions have made it, and the thread that was running stands at the instruction that
could not be completed (`Cinematic.Machine.step_failing`). An instruction that fails does leave a
machine, and the pass ends with it; that it is the one that was found is seen from the instructions
(`Cinematic.Execution.Fails.after`). The threads before this one have had their slices, those after
it have not begun, and the place that the error names is the place where the thread stands.

What stops a slice is said by `Cinematic.Machine.Stop`, with the position at which it happens. A
position is not an offset, so that the thread stands there is an invariant of the slice of its own:
after each instruction the thread is put to the offset of the position at which it goes on
(`Cinematic.Machine.Slice.stops`).
-/

namespace Cinematic

open Bytecode

namespace RuntimeError

/-- The place of the instruction, if the error names it. -/
def pc? : RuntimeError → Option UInt16
  | stackOverflow _ pc | stackUnderflow _ pc | invalidOpcode _ pc _ | invalidCondition _ pc _
  | invalidResetMode _ pc _ | invalidThread _ pc _ | fuelExhausted _ pc => some pc
  | bytecode _ _ | resource _ _ => none

/-- The thread, if the error names it. -/
def thread? : RuntimeError → Option (Fin threadCount)
  | stackOverflow thread _ | stackUnderflow thread _ | invalidOpcode thread _ _
  | invalidCondition thread _ _ | invalidResetMode thread _ _ | invalidThread thread _ _
  | fuelExhausted thread _ | bytecode thread _ => some thread
  | resource _ _ => none

end RuntimeError

/-- An instruction that fails is named by its place and its thread, or not at all. -/
theorem Machine.Failure.named {m : Machine} {t : Fin threadCount} {pc : UInt16} {i : Instruction}
    {x : RuntimeError} (failure : Failure m t pc i x) :
    (∀ pc' ∈ x.pc?, pc' = pc) ∧ ∀ t' ∈ x.thread?, t' = t := by
  cases failure with
  | resource => exact ⟨nofun, nofun⟩
  | _ =>
    exact ⟨fun _ named => (Option.some.inj named).symm,
      fun _ named => (Option.some.inj named).symm⟩

namespace Execution

/-- **The thread has had its slice**: of its executions the last one, which is completed, ends the
slice, and no other does. -/
def Finished (j : Fin threadCount) (es : List Execution) : Prop :=
  ∃ earlier last, es.filter (·.thread = j) = earlier ++ [last] ∧ last.isCompleted = true ∧
    last.instruction.EndsSlice ∧ ∀ e ∈ earlier, ¬ e.instruction.EndsSlice

variable {j : Fin threadCount} {es es' : List Execution}

theorem filter_thread_eq_nil (others : ∀ e ∈ es, j ≠ e.thread) :
    es.filter (·.thread = j) = [] := by
  rw [List.filter_eq_nil_iff]
  intro e member same
  exact others e member (of_decide_eq_true same).symm

theorem Finished.append_right (finished : Finished j es) (others : ∀ e ∈ es', j ≠ e.thread) :
    Finished j (es ++ es') := by
  rw [Finished, List.filter_append, filter_thread_eq_nil others, List.append_nil]
  exact finished

theorem Finished.append_left (finished : Finished j es') (others : ∀ e ∈ es, j ≠ e.thread) :
    Finished j (es ++ es') := by
  rw [Finished, List.filter_append, filter_thread_eq_nil others, List.nil_append]
  exact finished

/-- The position at which a thread goes on, if it has completed the instruction. -/
def resume? (t : Fin threadCount) (e : Execution) : Option Nat :=
  match e.outcome with
  | .ok resume _ => if e.thread = t then some resume else none
  | .error _ _ => none

/-- **The position at which a thread goes on** after some executions: that of the last one that it
has completed, or the one at which it has begun. -/
def resumesAt (t : Fin threadCount) (start : Nat) (es : List Execution) : Nat :=
  (es.filterMap (resume? t)).getLast?.getD start

section ResumesAt

variable {t : Fin threadCount} {e : Execution} {start : Nat}

theorem resume?_of_ne (other : t ≠ e.thread) : e.resume? t = none := by
  unfold resume?
  split
  · exact if_neg other.symm
  · rfl

theorem resumesAt_cons_of_ok (own : e.thread = t) {m : Machine} {resume : Nat}
    (done : e.outcome = .ok resume m) :
    resumesAt t start (e :: es) = resumesAt t resume es := by
  have resumes : e.resume? t = some resume := by
    rw [resume?, done]
    exact if_pos own
  rw [resumesAt, List.filterMap_cons_some resumes, List.getLast?_cons]
  rfl

theorem Fails.resumesAt {x : RuntimeError} (fails : e.Fails x) :
    resumesAt t start [e] = start := by
  obtain ⟨m, failed⟩ := fails
  have stops : e.resume? t = none := by rw [resume?, failed]
  rw [Execution.resumesAt, List.filterMap_cons_none stops]
  rfl

/-- The executions of other threads do not matter. -/
theorem resumesAt_append_of_ne (others : ∀ e ∈ es, t ≠ e.thread) :
    resumesAt t start (es ++ es') = resumesAt t start es' := by
  have none : es.filterMap (resume? t) = [] :=
    List.filterMap_eq_nil_iff.2 fun e member => resume?_of_ne (others e member)
  rw [resumesAt, List.filterMap_append, none, List.nil_append]
  rfl

end ResumesAt

theorem completed_eq_self (complete : ∀ e ∈ es, e.isCompleted = true) : completed es = es :=
  List.filter_eq_self.2 complete

end Execution

namespace Machine

open Execution (completed Finished resumesAt)

/-! ### Slices -/

/-- **What stops a thread** at a position: that there is no fuel, that there is no instruction, or an
execution that fails. It has found the machine as it is, and it is also what has left it so. -/
inductive Stop (t : Fin threadCount) (m : Machine) (pos : Nat) :
    Option Execution → RuntimeError → Prop
  | exhausted : Stop t m pos none (.fuelExhausted t pos.toUInt16)
  | unread {x : ReadError} {c : Cursor} (read : Instruction.decode ⟨m.segment, pos⟩ = .error x c) :
    Stop t m pos none (.bytecode t x)
  | failed {e : Execution} {x : RuntimeError} (thread : e.thread = t) (before : e.before = m)
    (after : e.after = m) (position : e.pos = pos) (fails : e.Fails x) : Stop t m pos (some e) x

/-- **The error points at what has stopped the thread.** -/
theorem Stop.named {t : Fin threadCount} {m : Machine} {pos : Nat} {last : Option Execution}
    {x : RuntimeError} (stop : Stop t m pos last x) :
    (∀ pc ∈ x.pc?, pc = pos.toUInt16) ∧ ∀ t' ∈ x.thread?, t' = t := by
  cases stop with
  | exhausted =>
    exact ⟨fun _ named => (Option.some.inj named).symm, fun _ named => (Option.some.inj named).symm⟩
  | unread => exact ⟨nofun, fun _ named => (Option.some.inj named).symm⟩
  | failed thread _ _ position fails =>
    subst thread position
    exact fails.cause.named

section Slice

variable {σ : Type} {h : Host σ} {t : Fin threadCount} {fuel : Nat} {m : Machine} {s : σ}
  {pos : Nat} {es : List Execution} {ran : Ran σ}

/-- **A slice that fails stops between two instructions**, and the thread stands where it stops. -/
theorem Slice.stops (slice : Slice h t fuel m s pos es ran)
    (place : (m.thread t).pc = pos.toUInt16) {x : RuntimeError}
    (failed : ran.result = .error x) :
    ∃ last, Stop t ran.machine (resumesAt t pos es) last x ∧
      (ran.machine.thread t).pc = (resumesAt t pos es).toUInt16 ∧
      es = completed es ++ last.toList ∧ Course m (completed es) ran.machine := by
  induction slice with
  | exhausted m s pos =>
    cases failed
    exact ⟨none, .exhausted, place, rfl, .nil m⟩
  | @unread _ m _ pos _ _ read =>
    cases failed
    exact ⟨none, .unread read, place, rfl, .nil m⟩
  | @failed _ m _ _ pos e _ here fails =>
    cases failed
    have left : e.after = m := fails.after.trans here.before
    have none : completed [e] = [] := by simp [completed, fails.isCompleted]
    rw [none, left, fails.resumesAt]
    exact ⟨some e, .failed here.thread here.before left here.position fails, place, rfl, .nil m⟩
  | yields => cases failed
  | @continues _ _ _ _ _ _ resume e es _ here done _ _ ih =>
    have resumes : (e.after.thread t).pc = resume.toUInt16 := by
      rw [← here.thread]
      exact Execution.after_pc_self done
    obtain ⟨last, stop, stands, split, course⟩ := ih resumes failed
    have more : completed (e :: es) = e :: completed es :=
      List.filter_cons_of_pos (Execution.isCompleted_of_ok done)
    rw [more, Execution.resumesAt_cons_of_ok here.thread done]
    refine ⟨last, stop, stands, ?_, ?_⟩
    · rw [List.cons_append, ← split]
    · rw [← here.before]
      exact .cons course

/-- **A slice that ends well has been had.** -/
theorem Slice.finished (slice : Slice h t fuel m s pos es ran) {left : Nat}
    (done : ran.result = .ok left) : Finished t es := by
  obtain ⟨earlier, last, rfl, ends, going⟩ := slice.exists_last done
  have own : (earlier ++ [last]).filter (·.thread = t) = earlier ++ [last] :=
    List.filter_eq_self.2 fun e member => decide_eq_true (slice.thread e member)
  exact ⟨earlier, last, own, slice.isCompleted done last (by simp), ends, going⟩

end Slice

/-! ### Turns -/

section Turns

variable {σ : Type} {h : Host σ} {t j : Fin threadCount} {ts : List (Fin threadCount)} {fuel : Nat}
  {m : Machine} {s : σ} {es : List Execution} {ran : Ran σ}

/-- A thread that has no turn becomes neither runnable nor not. -/
theorem Turns.isRunnable_of_not_mem (turns : Turns h ts fuel m s es ran) (absent : j ∉ ts) :
    (ran.machine.thread j).isRunnable = (m.thread j).isRunnable := by
  rw [Thread.isRunnable, Thread.isRunnable, turns.pc_of_not_mem absent, turns.course.activity j]

/-- **If all turns end well, every thread that was runnable has had its slice.** -/
theorem Turns.finished (turns : Turns h ts fuel m s es ran) {left : Nat}
    (done : ran.result = .ok left) (nodup : ts.Nodup) (member : j ∈ ts)
    (due : (m.thread j).isRunnable = true) : Finished j es := by
  induction turns with
  | done => cases member
  | skips idle _ ih =>
    rcases List.mem_cons.1 member with rfl | later
    · cases due.symm.trans idle
    · exact ih done nodup.of_cons later due
  | fails => cases done
  | @serves t _ _ _ _ _ _ _ _ _ _ _ slice others ih =>
    obtain ⟨fresh, nodup⟩ := List.nodup_cons.1 nodup
    rcases List.mem_cons.1 member with rfl | later
    · refine (slice.finished rfl).append_right ?_
      rintro e executed rfl
      exact fresh (others.thread e executed)
    · have other : j ≠ t := by
        rintro rfl
        exact fresh later
      refine (ih done nodup later ?_).append_left ?_
      · exact (slice.isRunnable_of_ne other).trans due
      · intro e member
        rw [slice.thread e member]
        exact other

/-- **Turns fail by the slice of one thread**, after the turns of the threads before it. -/
theorem Turns.exists_failing (turns : Turns h ts fuel m s es ran) {x : RuntimeError}
    (failed : ran.result = .error x) :
    ∃ served t rest past now left m' s', ts = served ++ t :: rest ∧ es = past ++ now ∧
      Turns h served fuel m s past ⟨m', s', .ok left⟩ ∧ (m'.thread t).isRunnable = true ∧
      Slice h t left m' (h.observe s' (.slice t (m'.thread t).pc)) (m'.thread t).pc.toNat now
        ran := by
  induction turns with
  | done => cases failed
  | @skips t' _ _ _ _ _ _ idle _ ih =>
    obtain ⟨served, t, rest, past, now, left, m', s', rfl, rfl, earlier, due, slice⟩ := ih failed
    exact ⟨t' :: served, t, rest, past, now, left, m', s', rfl, rfl, .skips idle earlier, due,
      slice⟩
  | @fails t rest fuel m _ s _ es _ due slice =>
    exact ⟨[], t, rest, [], es, fuel, m, s, rfl, rfl, .done _ _ _, due, slice⟩
  | @serves t' _ _ _ _ _ _ _ es _ _ due' slice' _ ih =>
    obtain ⟨served, t, rest, past, now, left, m', s', rfl, rfl, earlier, due, slice⟩ := ih failed
    refine ⟨t' :: served, t, rest, es ++ past, now, left, m', s', rfl, ?_, ?_, due, slice⟩
    · rw [List.append_assoc]
    · exact .serves due' slice' earlier

end Turns

/-! ### Passes -/

/-- The threads before another one in the order of turns are those with a smaller number. -/
theorem mem_served_iff {served rest : List (Fin threadCount)} {t : Fin threadCount}
    (order : List.finRange threadCount = served ++ t :: rest) (j : Fin threadCount) :
    j ∈ served ↔ j < t := by
  have sorted := (List.sortedLT_finRange threadCount).pairwise
  rw [order, List.pairwise_append] at sorted
  obtain ⟨-, after, before⟩ := sorted
  constructor
  · exact fun member => before j member t List.mem_cons_self
  · intro less
    have member : j ∈ served ++ t :: rest := order ▸ List.mem_finRange j
    rcases List.mem_append.1 member with served | later
    · exact served
    · rcases List.mem_cons.1 later with rfl | later
      · exact absurd less (lt_irrefl _)
      · exact absurd less (lt_asymm (List.rel_of_pairwise_cons after later))

/-- **A failing instruction leaves no trace, and the error points at it.** If a pass fails, then some
thread has been stopped at the position at which it was to go on after its completed instructions. The
machine is the one that the completed instructions of the pass have made of the machine just after the
commit; what has stopped the thread has changed nothing. The thread was runnable and stands at this
position, and these are the thread and the place that the error names. All runnable threads before it
have had their slices, and none after it has executed anything. -/
theorem step_failing {σ : Type} (h : Host σ) (m : Machine) (c : Controls) (s : σ)
    {x : RuntimeError} (failed : (step h m c s).result = .error x) :
    let final := (step h m c s).machine
    let es := executions h m c s
    ∃ t last, let pos := resumesAt t ((m.commit c).thread t).pc.toNat es
      Stop t final pos last x ∧
      es = completed es ++ last.toList ∧ Course (m.commit c) (completed es) final ∧
      (final.thread t).pc = pos.toUInt16 ∧
      (∀ pc ∈ x.pc?, pc = (final.thread t).pc) ∧ (∀ t' ∈ x.thread?, t' = t) ∧
      ((m.commit c).thread t).isRunnable = true ∧
      (∀ j < t, ((m.commit c).thread j).isRunnable = true → Finished j es) ∧
      (∀ e ∈ es, e.thread ≤ t) ∧
      final.passes = m.passes + 1 ∧ final.segment = m.segment ∧ final.part = m.part := by
  intro final es
  obtain ⟨result, turns, same⟩ := step_turns h m c s
  have failed : result = .error x := by
    rw [same] at failed
    cases result with
    | error y =>
      cases failed
      rfl
    | ok left => cases failed
  obtain ⟨served, t, rest, past, now, left, m', s', order, split, earlier, due, slice⟩ :=
    turns.exists_failing failed
  change es = past ++ now at split
  have before := mem_served_iff order
  have absent : t ∉ served := fun member => lt_irrefl t ((before t).1 member)
  have nodup : served.Nodup := (List.nodup_append.1 (order ▸ List.nodup_finRange threadCount)).1
  -- the thread begins where it stood at the commit, and the threads before it have not moved it
  have others : ∀ e ∈ past, t ≠ e.thread := by
    rintro e member rfl
    exact absent (earlier.thread e member)
  have start : (m'.thread t).pc = ((m.commit c).thread t).pc := earlier.pc_of_not_mem absent
  have pos : resumesAt t ((m.commit c).thread t).pc.toNat es
      = resumesAt t (m'.thread t).pc.toNat now := by
    rw [split, Execution.resumesAt_append_of_ne others, start]
  have complete : completed es = past ++ completed now := by
    rw [split, Execution.completed_append, Execution.completed_eq_self (earlier.isCompleted rfl)]
  obtain ⟨last, stop, stands, cut, course⟩ := slice.stops UInt16.ofNat_toNat.symm failed
  obtain ⟨place, thread⟩ := stop.named
  have kept : final = _ := step_kept h m c s
  rw [← pos] at stop stands place
  refine ⟨t, last, stop, ?_, ?_, stands, ?_, thread, ?_, ?_, ?_, ?_, ?_, ?_⟩
  · rw [complete, List.append_assoc, ← cut]
    exact split
  · rw [complete]
    exact earlier.course.append course
  · intro pc named
    exact (place pc named).trans stands.symm
  · exact (earlier.isRunnable_of_not_mem absent).symm.trans due
  · intro j less runnable
    have finished := earlier.finished rfl nodup ((before j).2 less) runnable
    rw [split]
    refine finished.append_right fun e member => ?_
    rw [slice.thread e member]
    exact less.ne
  · intro e member
    rw [split] at member
    rcases List.mem_append.1 member with served | running
    · exact ((before _).1 (earlier.thread e served)).le
    · exact (slice.thread e running).le
  · rw [kept]
  · rw [kept]
  · rw [kept]

/-- Thread 0 writes a register and yields, and thread 1 writes another one and returns to nowhere. -/
theorem step_failing_ret :
    let m : Machine :=
      { (powerOn .standard 0).install #[0x00, 1, 0, 7, 0x06, 0x00, 2, 0, 9, 0x05] with
        threads := initialThreads.set 1 (.startingAt 5) (by decide) }
    let failing := step Rehearsal.host m .neutral (.start [])
    let t : Fin threadCount := ⟨1, by decide⟩
    failing.result = .error (.stackUnderflow t 9) ∧
      failing.machine.registers.get 1 = 7 ∧ failing.machine.registers.get 2 = 9 ∧
      (failing.machine.thread t).pc = 9 ∧ failing.machine.passes = 1 := by
  intro m failing t
  have failed : failing.result = .error (.stackUnderflow t 9) := by decide +kernel
  obtain ⟨_, _, -, -, -, -, place, thread, -, -, -, passes, -⟩ :=
    step_failing Rehearsal.host m .neutral (.start []) failed
  obtain rfl := thread t rfl
  exact ⟨failed, by decide +kernel, by decide +kernel, (place 9 rfl).symm, passes⟩

end Machine

end Cinematic
