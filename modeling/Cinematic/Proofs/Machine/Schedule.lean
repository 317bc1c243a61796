import Cinematic.Proofs.Machine.Comparison
import Cinematic.Proofs.Machine.Threads

/-!
# The schedule of a pass

Which threads have a slice in a pass, in which order, and where each of them begins, **is settled by
the commit at its beginning**, before any instruction is executed
(`Cinematic.Machine.step_schedule`). A thread is looked at only when its turn comes, and by then the
threads before it may have asked it to start, to end or to pause; but all of that waits for the next
commit.

The shape of what is shown to a host is described without a machine. `Cinematic.SliceShown` is about
one slice, and `Cinematic.Schedule` about the slices of a list of threads, in the order of this
list. A schedule may be cut, within a slice and never between two slices. **A pass that ends well
shows a whole schedule, and a pass that fails shows one that is cut**; and what has been cut could
always be completed (`Cinematic.Schedule.exists_whole`).

The steps themselves are read off the minutes that a host takes, which make no difference to the
pass (`Cinematic.Machine.step_transcribed`).
-/

namespace Cinematic

open Bytecode

/-! ### What is shown of slices -/

/-- Whether an instruction ends a slice. -/
def Bytecode.Instruction.EndsSlice (i : Instruction) : Prop := i = .yield ∨ i = .kill

/-- The steps of some instructions of a thread, which are given with their places. -/
def instructionSteps (t : Fin threadCount) (placed : List (UInt16 × Instruction)) :
    List TraceEvent :=
  placed.map fun x => .instruction t x.1 x.2

/-- **What is shown of a slice that has not ended**: where it begins, and perhaps instructions, the
first of them at this place. None of them ends the slice. -/
inductive SliceBegun (t : Fin threadCount) (start : UInt16) : List TraceEvent → Prop
  | intro (placed : List (UInt16 × Instruction)) (first : ∀ x ∈ placed.head?, x.1 = start)
    (going : ∀ x ∈ placed, ¬ x.2.EndsSlice) :
    SliceBegun t start (.slice t start :: instructionSteps t placed)

/-- **What is shown of a slice**: where it begins, one or more instructions, the first of them at
this place, of which the last and no other ends the slice, and where the thread will go on. -/
inductive SliceShown (t : Fin threadCount) (start resume : UInt16) : List TraceEvent → Prop
  | intro (placed : List (UInt16 × Instruction)) (last : UInt16 × Instruction)
    (first : ∀ x ∈ (placed ++ [last]).head?, x.1 = start)
    (going : ∀ x ∈ placed, ¬ x.2.EndsSlice) (ends : last.2.EndsSlice) :
    SliceShown t start resume
      (.slice t start :: instructionSteps t (placed ++ [last]) ++ [.yielded t resume])

/-- **What is shown of the slices of some threads**, one after the other, each beginning and going
on at its own place. It is `whole` if it is not cut. -/
inductive Schedule (start resume : Fin threadCount → UInt16) :
    List (Fin threadCount) → (whole : Bool) → List TraceEvent → Prop
  | done : Schedule start resume [] true []
  /-- The slice of a thread is cut, and the threads after it have none. -/
  | cut {t : Fin threadCount} {rest : List (Fin threadCount)} {now : List TraceEvent}
    (slice : SliceBegun t (start t) now) : Schedule start resume (t :: rest) false now
  | serves {t : Fin threadCount} {rest : List (Fin threadCount)} {whole : Bool}
    {now later : List TraceEvent} (slice : SliceShown t (start t) (resume t) now)
    (others : Schedule start resume rest whole later) :
    Schedule start resume (t :: rest) whole (now ++ later)

/-- A slice that has not ended could end at once. -/
theorem SliceBegun.exists_shown {t : Fin threadCount} {start : UInt16} {events : List TraceEvent}
    (begun : SliceBegun t start events) (resume : UInt16) :
    ∃ missing, SliceShown t start resume (events ++ missing) := by
  cases begun with
  | intro placed first going =>
    refine ⟨instructionSteps t [(start, .kill)] ++ [.yielded t resume], ?_⟩
    have same : .slice t start :: instructionSteps t placed
          ++ (instructionSteps t [(start, .kill)] ++ [.yielded t resume])
        = .slice t start :: instructionSteps t (placed ++ [(start, .kill)])
          ++ [.yielded t resume] := by
      simp [instructionSteps]
    rw [same]
    refine .intro placed (start, .kill) ?_ going (Or.inr rfl)
    cases placed with
    | nil =>
      rintro x ⟨⟩
      rfl
    | cons x placed => exact first

namespace Schedule

variable {start resume : Fin threadCount → UInt16}

/-- The slices of any threads can be shown. -/
theorem exists_of_threads (ts : List (Fin threadCount)) :
    ∃ events, Schedule start resume ts true events := by
  induction ts with
  | nil => exact ⟨[], .done⟩
  | cons t rest ih =>
    obtain ⟨later, others⟩ := ih
    have begun : SliceBegun t (start t) [.slice t (start t)] := .intro [] (by simp) (by simp)
    obtain ⟨missing, shown⟩ := begun.exists_shown (resume t)
    exact ⟨_, .serves shown others⟩

/-- **What has been cut could be completed.** -/
theorem exists_whole {ts : List (Fin threadCount)} {whole : Bool} {events : List TraceEvent}
    (schedule : Schedule start resume ts whole events) :
    ∃ missing, Schedule start resume ts true (events ++ missing) := by
  induction schedule with
  | done => exact ⟨[], .done⟩
  | @cut t rest now slice =>
    obtain ⟨missing, shown⟩ := slice.exists_shown (resume t)
    obtain ⟨later, others⟩ : ∃ later, Schedule start resume rest true later :=
      exists_of_threads rest
    refine ⟨missing ++ later, ?_⟩
    rw [← List.append_assoc]
    exact .serves shown others
  | serves slice _ ih =>
    obtain ⟨missing, others⟩ := ih
    refine ⟨missing, ?_⟩
    rw [List.append_assoc]
    exact .serves slice others

end Schedule

/-! ### Steps in the minutes -/

section Steps

variable {σ : Type} {h : Host σ}

/-- The steps in the minutes of a host. -/
def stepsOf (s : σ × List Message) : List TraceEvent := s.2.filterMap Message.step?

@[simp] theorem stepsOf_observe (s : σ × List Message) (e : TraceEvent) :
    stepsOf (h.transcribed.observe s e) = stepsOf s ++ [e] := by
  simp [stepsOf, Host.transcribed, Message.step?]

/-- What a host is asked for goes to the end of its minutes, and is no step. -/
theorem Host.transcribed_asked (h : Host σ) (told : List Message) :
    h.transcribed.Answers h.transcribed fun s s' =>
      s = s' ∧ ∃ asked, s.2 = told ++ asked ∧ ∀ x ∈ asked, x.step? = none where
  resource? related id := by rw [related.1]
  load related id := by
    obtain ⟨rfl, asked, minutes, silent⟩ := related
    refine ⟨rfl, rfl, asked ++ [.load id], ?_, ?_⟩
    · simp [Host.transcribed, minutes]
    · simpa [or_imp, forall_and, Message.step?] using silent
  call related c := by
    obtain ⟨rfl, asked, minutes, silent⟩ := related
    refine ⟨rfl, asked ++ [.call c], ?_, ?_⟩
    · simp [Host.transcribed, minutes]
    · simpa [or_imp, forall_and, Message.step?] using silent
  note related e := by
    obtain ⟨rfl, asked, minutes, silent⟩ := related
    refine ⟨rfl, asked ++ [.note e], ?_, ?_⟩
    · simp [Host.transcribed, minutes]
    · simpa [or_imp, forall_and, Message.step?] using silent

namespace Execution

/-- The instruction with its place. -/
def placed (e : Execution) : UInt16 × Instruction := (e.offset, e.instruction)

theorem endsSlice_iff (e : Execution) :
    e.instruction.EndsSlice ↔ e.instruction.yields = true := e.yields_iff.symm

variable {t : Fin threadCount} {m : Machine} {s s' : σ × List Message} {pos : Nat} {e : Execution}

/-- **An execution first shows its instruction**, and then asks. -/
theorem IsAt.told (here : e.IsAt h.transcribed t m s pos s') :
    ∃ asked, s'.2 = s.2 ++ .step (.instruction t pos.toUInt16 e.instruction) :: asked ∧
      ∀ x ∈ asked, x.step? = none := by
  have shown : (h.transcribed.observe s (.instruction t pos.toUInt16 e.instruction)).2
      = s.2 ++ [.step (.instruction t pos.toUInt16 e.instruction)] ++ [] := by
    rw [List.append_nil]
    rfl
  obtain ⟨-, -, asked, minutes, silent⟩ := Machine.execute_alike (h.transcribed_asked _)
    ⟨rfl, [], shown, by simp⟩ m t pos.toUInt16 e.instruction e.next
  rw [here.execute] at minutes
  refine ⟨asked, ?_, silent⟩
  rw [minutes, List.append_assoc]
  rfl

/-- An execution shows its instruction and no other step. -/
theorem IsAt.shown (here : e.IsAt h.transcribed t m s pos s') :
    stepsOf s' = stepsOf s ++ instructionSteps t [e.placed] := by
  obtain ⟨asked, minutes, silent⟩ := here.told
  have none : asked.filterMap Message.step? = [] := List.filterMap_eq_nil_iff.2 silent
  rw [stepsOf, minutes, List.filterMap_append, instructionSteps, placed, offset, here.position]
  exact congrArg (_ ++ _ :: ·) none

end Execution

end Steps

namespace Machine

/-! ### Minutes, piece by piece -/

section Pieces

variable {σ : Type} {h : Host σ} {t : Fin threadCount} {ts : List (Fin threadCount)} {fuel : Nat}
  {m : Machine} {s : σ × List Message} {pos : Nat} {es : List Execution}
  {ran : Ran (σ × List Message)} {P : List Execution → List Message → Prop}

/-- **What holds of executions and of their minutes piece by piece**: if it holds of two pieces, then
also of one after the other. -/
structure Piecewise (P : List Execution → List Message → Prop) : Prop where
  nil : P [] []
  append {es es' : List Execution} {told told' : List Message} (first : P es told)
    (second : P es' told') : P (es ++ es') (told ++ told')

/-- **What holds of single executions and of what they tell holds of a slice.** -/
theorem Slice.tells (pieces : Piecewise P)
    (each : ∀ {m : Machine} {s s' : σ × List Message} {pos : Nat} {e : Execution},
      e.IsAt h.transcribed t m s pos s' → ∃ told, s'.2 = s.2 ++ told ∧ P [e] told)
    (slice : Slice h.transcribed t fuel m s pos es ran) :
    ∃ told, ran.host.2 = s.2 ++ told ∧ P es told := by
  induction slice with
  | exhausted | unread => exact ⟨[], (List.append_nil _).symm, pieces.nil⟩
  | failed here | yields here => exact each here
  | continues here _ _ _ ih =>
    obtain ⟨told, minutes, now⟩ := each here
    obtain ⟨later, minutes', rest⟩ := ih
    refine ⟨told ++ later, ?_, pieces.append now rest⟩
    rw [minutes', minutes, List.append_assoc]

/-- **And of the slices of some threads**, if it does not matter where they begin and end. -/
theorem Turns.tells (pieces : Piecewise P)
    (each : ∀ {t : Fin threadCount} {m : Machine} {s s' : σ × List Message} {pos : Nat}
      {e : Execution}, e.IsAt h.transcribed t m s pos s' →
        ∃ told, s'.2 = s.2 ++ told ∧ P [e] told)
    (begins : ∀ t pc, P [] [.step (.slice t pc)]) (ends : ∀ t pc, P [] [.step (.yielded t pc)])
    (turns : Turns h.transcribed ts fuel m s es ran) :
    ∃ told, ran.host.2 = s.2 ++ told ∧ P es told := by
  induction turns with
  | done => exact ⟨[], (List.append_nil _).symm, pieces.nil⟩
  | skips _ _ ih => exact ih
  | @fails t _ _ m _ _ _ _ _ _ slice =>
    obtain ⟨told, minutes, now⟩ := slice.tells pieces each
    exact ⟨.step (.slice t (m.thread t).pc) :: told, minutes.trans (List.append_assoc _ _ _),
      pieces.append (begins t _) now⟩
  | @serves t _ _ _ m m' s s' _ _ _ _ slice _ ih =>
    obtain ⟨told, minutes, now⟩ := slice.tells pieces each
    obtain ⟨later, minutes', rest⟩ := ih
    have framed := pieces.append (pieces.append (begins t (m.thread t).pc) now)
      (pieces.append (ends t (m'.thread t).pc) rest)
    refine ⟨_, ?_, framed⟩
    rw [minutes']
    simp only [Host.transcribed] at minutes ⊢
    simp [minutes]

end Pieces

/-! ### Slices -/

section Slice

variable {σ : Type} {h : Host σ} {t : Fin threadCount} {fuel : Nat} {m : Machine} {s : σ}
  {pos : Nat} {es : List Execution} {ran : Ran σ}

theorem Slice.offset_head (slice : Slice h t fuel m s pos es ran) :
    ∀ e ∈ es.head?, e.offset = pos.toUInt16 := by
  cases slice with
  | exhausted | unread =>
    intro e member
    cases member
  | failed here | yields here | continues here =>
    rintro e ⟨⟩
    rw [Execution.offset, here.position]

/-- **A slice that ends well ends with the instruction that ends it**, and has no other such. -/
theorem Slice.exists_last (slice : Slice h t fuel m s pos es ran) {left : Nat}
    (done : ran.result = .ok left) :
    ∃ earlier last, es = earlier ++ [last] ∧ last.instruction.EndsSlice ∧
      ∀ e ∈ earlier, ¬ e.instruction.EndsSlice := by
  induction slice with
  | exhausted | unread | failed => cases done
  | @yields _ _ _ _ _ _ _ e here _ last =>
    refine ⟨[], e, rfl, e.endsSlice_iff.2 last, ?_⟩
    intro e' member
    cases member
  | @continues _ _ _ _ _ _ _ e es ran here _ more _ ih =>
    obtain ⟨earlier, last, rfl, ends, going⟩ := ih done
    refine ⟨e :: earlier, last, rfl, ends, ?_⟩
    intro e' member
    rcases List.mem_cons.1 member with rfl | later
    · rw [Execution.endsSlice_iff, more]
      exact Bool.false_ne_true
    · exact going e' later

/-- A slice that fails has no instruction that ends it. -/
theorem Slice.not_endsSlice (slice : Slice h t fuel m s pos es ran) {x : RuntimeError}
    (failed : ran.result = .error x) : ∀ e ∈ es, ¬ e.instruction.EndsSlice := by
  induction slice with
  | exhausted | unread =>
    intro e member
    cases member
  | failed here fails =>
    intro e member
    obtain rfl := List.mem_singleton.1 member
    rw [Execution.endsSlice_iff, fails.not_yields]
    exact Bool.false_ne_true
  | yields => cases failed
  | continues here _ more _ ih =>
    intro e member
    rcases List.mem_cons.1 member with rfl | later
    · rw [Execution.endsSlice_iff, more]
      exact Bool.false_ne_true
    · exact ih failed e later

end Slice

section Shown

variable {σ : Type} {h : Host σ} {t : Fin threadCount} {ts : List (Fin threadCount)} {fuel : Nat}
  {m m' : Machine} {s s' : σ × List Message} {pc : UInt16} {es : List Execution}

/-- A slice shows its instructions. -/
theorem Slice.shown {pos : Nat} {ran : Ran (σ × List Message)}
    (slice : Slice h.transcribed t fuel m s pos es ran) :
    stepsOf ran.host = stepsOf s ++ instructionSteps t (es.map Execution.placed) := by
  induction slice with
  | exhausted | unread => exact (List.append_nil _).symm
  | failed here | yields here => exact here.shown
  | continues here _ _ _ ih =>
    rw [ih, here.shown, List.append_assoc]
    rfl

theorem Slice.placed_head {ran : Ran (σ × List Message)}
    (slice : Slice h.transcribed t fuel m s pc.toNat es ran) :
    ∀ x ∈ (es.map Execution.placed).head?, x.1 = pc := by
  intro x member
  rw [List.head?_map] at member
  obtain ⟨e, first, rfl⟩ := Option.map_eq_some_iff.1 member
  exact (slice.offset_head e first).trans UInt16.ofNat_toNat

theorem Slice.sliceShown {left : Nat}
    (slice : Slice h.transcribed t fuel m (h.transcribed.observe s (.slice t pc)) pc.toNat es
      ⟨m', s', .ok left⟩) (resume : UInt16) :
    ∃ now, SliceShown t pc resume now ∧
      stepsOf (h.transcribed.observe s' (.yielded t resume)) = stepsOf s ++ now := by
  obtain ⟨earlier, last, rfl, ends, going⟩ := slice.exists_last rfl
  have first := slice.placed_head
  have shown := slice.shown
  rw [List.map_append, List.map_singleton] at first shown
  refine ⟨_, .intro _ last.placed first ?_ ends, ?_⟩
  · intro x member
    obtain ⟨e, executed, rfl⟩ := List.mem_map.1 member
    exact going e executed
  · rw [stepsOf_observe, shown, stepsOf_observe]
    simp

theorem Slice.sliceBegun {x : RuntimeError}
    (slice : Slice h.transcribed t fuel m (h.transcribed.observe s (.slice t pc)) pc.toNat es
      ⟨m', s', .error x⟩) :
    ∃ now, SliceBegun t pc now ∧ stepsOf s' = stepsOf s ++ now := by
  refine ⟨_, .intro _ slice.placed_head ?_, ?_⟩
  · intro x member
    obtain ⟨e, executed, rfl⟩ := List.mem_map.1 member
    exact slice.not_endsSlice rfl e executed
  · rw [slice.shown, stepsOf_observe]
    simp

/-! ### Passes -/

/-- **The turns of some threads follow what was known of them beforehand**: if these threads are due
as `due` tells and stand where `start` tells, they show the schedule of those that are due. -/
theorem Turns.schedule {ran : Ran (σ × List Message)}
    (turns : Turns h.transcribed ts fuel m s es ran) (nodup : ts.Nodup)
    {start : Fin threadCount → UInt16} {due : Fin threadCount → Bool}
    (known : ∀ j ∈ ts, (m.thread j).pc = start j ∧ (m.thread j).isRunnable = due j) :
    ∃ events, stepsOf ran.host = stepsOf s ++ events ∧
      Schedule start (fun j => (ran.machine.thread j).pc) (ts.filter due) ran.result.isOk
        events := by
  induction turns with
  | done => exact ⟨[], (List.append_nil _).symm, .done⟩
  | skips idle _ ih =>
    have idle := (known _ List.mem_cons_self).2.symm.trans idle
    rw [List.filter_cons_of_neg (by rw [idle]; exact Bool.false_ne_true)]
    exact ih nodup.of_cons fun j member => known j (List.mem_cons_of_mem _ member)
  | @fails t rest _ _ _ _ _ _ _ runs slice =>
    obtain ⟨place, same⟩ := known t List.mem_cons_self
    rw [place] at slice
    obtain ⟨now, begun, shown⟩ := slice.sliceBegun
    rw [List.filter_cons_of_pos (same.symm.trans runs)]
    exact ⟨now, shown, .cut begun⟩
  | @serves t rest _ _ m m' _ _ es es' ran runs slice others ih =>
    obtain ⟨fresh, nodup⟩ := List.nodup_cons.1 nodup
    obtain ⟨place, same⟩ := known t List.mem_cons_self
    rw [place] at slice
    -- this slice has changed nothing that is known of the threads to come
    have known' : ∀ j ∈ rest, (m'.thread j).pc = start j ∧ (m'.thread j).isRunnable = due j := by
      intro j member
      have other : j ≠ t := by
        rintro rfl
        exact fresh member
      obtain ⟨before, due⟩ := known j (List.mem_cons_of_mem _ member)
      exact ⟨(slice.pc_of_ne other).trans before, (slice.isRunnable_of_ne other).trans due⟩
    obtain ⟨later, shown', schedule⟩ := ih nodup known'
    -- and their slices leave this thread where it is
    have stays : (ran.machine.thread t).pc = (m'.thread t).pc := others.pc_of_not_mem fresh
    obtain ⟨now, slices, shown⟩ := slice.sliceShown (m'.thread t).pc
    rw [← stays] at slices
    rw [List.filter_cons_of_pos (same.symm.trans runs)]
    refine ⟨now ++ later, ?_, .serves slices schedule⟩
    rw [shown', shown, List.append_assoc]

end Shown

section Pass

variable {σ : Type}

/-- **Taking minutes makes no difference to a pass.** -/
theorem step_transcribed (h : Host σ) (m : Machine) (c : Controls) (s : σ)
    (minutes : List Message) :
    (step h.transcribed m c (s, minutes)).machine = (step h m c s).machine ∧
      (step h.transcribed m c (s, minutes)).result = (step h m c s).result := by
  have related : s = (s, minutes).1 := rfl
  obtain ⟨machine, result, -⟩ := step_related h.alike_transcribed m c related
  exact ⟨machine, result⟩

/-- **What a pass shows to its host**, in the order of time. -/
def trace (h : Host σ) (m : Machine) (c : Controls) (s : σ) : List TraceEvent :=
  stepsOf (step h.transcribed m c (s, [])).host

/-- **The schedule of a pass is settled by its commit.** A pass shows its number and then the slices
of just those threads that are runnable after the commit, in the order of their numbers, each from
its place at the commit to where the thread stands in the end. If the pass fails, one of these
slices is cut, and what is shown is the beginning of such a schedule. No execution moves another
thread, makes it runnable or keeps it from running. -/
theorem step_schedule (h : Host σ) (m : Machine) (c : Controls) (s : σ) :
    let due := (List.finRange threadCount).filter fun t => ((m.commit c).thread t).isRunnable
    let start (t : Fin threadCount) := ((m.commit c).thread t).pc
    let resume (t : Fin threadCount) := ((step h m c s).machine.thread t).pc
    (∃ events, trace h m c s = .pass m.passes :: events ∧
      Schedule start resume due (step h m c s).result.isOk events ∧
      ∃ missing, Schedule start resume due true (events ++ missing)) ∧
      ∀ e ∈ executions h m c s, ∀ j, j ≠ e.thread →
        (e.after.thread j).pc = (e.before.thread j).pc ∧
          (e.after.thread j).isRunnable = (e.before.thread j).isRunnable := by
  intro due start resume
  refine ⟨?_, fun e _ j other => ⟨e.after_pc_of_ne other, e.after_isRunnable_of_ne other⟩⟩
  obtain ⟨result, turns, same⟩ := step_turns h.transcribed m c (s, [])
  obtain ⟨machine, outcome⟩ := step_transcribed h m c s []
  obtain ⟨events, shown, schedule⟩ := turns.schedule (List.nodup_finRange threadCount)
    fun j _ => ⟨rfl, rfl⟩
  have ends : (step h m c s).result.isOk = result.isOk := by
    rw [← outcome, same]
    cases result with
    | error x => rfl
    | ok left => rfl
  rw [stepsOf_observe] at shown
  dsimp only at schedule
  rw [machine, ← ends] at schedule
  exact ⟨events, shown, schedule, schedule.exists_whole⟩

/-- Thread 1 has been asked to start. Now thread 0 asks it to end and thread 2 to start, and still
thread 1 has a slice and thread 2 has none. -/
theorem step_schedule_started :
    let m : Machine :=
      { (powerOn .standard 0).install #[0x0c, 1, 1, 2, 0x08, 2, 0, 8, 0x11] with
        threads := initialThreads.set 1 { Thread.halted with requestedPc := 8 } (by decide) }
    let start (t : Fin threadCount) := ((m.commit .neutral).thread t).pc
    let resume (t : Fin threadCount) :=
      ((step Rehearsal.host m .neutral (.start [])).machine.thread t).pc
    let due : List (Fin threadCount) := [⟨0, by decide⟩, ⟨1, by decide⟩]
    due.map start = [0, 8] ∧
      ∃ events, trace Rehearsal.host m .neutral (.start []) = .pass 0 :: events ∧
        Schedule start resume due true events := by
  intro m start resume due
  have threads : ((List.finRange threadCount).filter fun t =>
      ((m.commit .neutral).thread t).isRunnable) = due := by
    decide +kernel
  have ends : (step Rehearsal.host m .neutral (.start [])).result.isOk = true := by
    decide +kernel
  obtain ⟨⟨events, shown, schedule, -⟩, -⟩ := step_schedule Rehearsal.host m .neutral (.start [])
  rw [threads, ends] at schedule
  exact ⟨by decide +kernel, events, shown, schedule⟩

end Pass

end Machine

end Cinematic
