import Cinematic.Proofs.Machine.Execution

/-!
# What executions do to threads

A thread that executes an instruction is put to another place. Apart from that, executions leave no
trace on threads but requests: the place of every **other** thread, and the activity of **every**
thread, are what they were (`Cinematic.Execution.after_pc_of_ne`,
`Cinematic.Execution.after_activity`). So nothing that happens in a pass has an influence on which
of the threads to come will run in it, and where they will begin.

Requests accumulate in a simple way, since each overwrites the one before it. What is requested at
the end of a course is what was asked for last (`Cinematic.Machine.Course.requestedPc`,
`Cinematic.Machine.Course.requestedActivity`).
-/

namespace Cinematic

open Bytecode

namespace Machine

variable {m : Machine} {t j : Fin threadCount}

theorem setPc_thread_self (m : Machine) (t : Fin threadCount) (pc : UInt16) :
    (m.setPc t pc).thread t = { m.thread t with pc := pc } := by
  simp [setPc]

theorem setPc_thread_of_ne (other : j ≠ t) (pc : UInt16) :
    (m.setPc t pc).thread j = m.thread j := by
  have : (t : Nat) ≠ j := fun same => other (Fin.ext same.symm)
  simp [setPc, this]

/-- Putting a thread to a place changes nothing else about any thread. -/
theorem setPc_thread (m : Machine) (t j : Fin threadCount) (pc : UInt16) :
    (m.setPc t pc).thread j = { m.thread j with pc := ((m.setPc t pc).thread j).pc } := by
  by_cases same : j = t
  · rw [same, setPc_thread_self]
  · rw [setPc_thread_of_ne same]

@[simp] theorem commit_thread (m : Machine) (c : Controls) (j : Fin threadCount) :
    (m.commit c).thread j = (m.thread j).commit := by
  simp [commit]

end Machine

namespace Execution

variable {j : Fin threadCount}

/-- What an execution has asked about the place of a thread. A failing one has asked nothing. -/
def placeAsked? (j : Fin threadCount) (e : Execution) : Option PlaceRequest :=
  if e.isCompleted then e.instruction.placeRequest? j else none

/-- What an execution has asked about the activity of a thread. -/
def activityAsked? (j : Fin threadCount) (e : Execution) : Option Activity :=
  if e.isCompleted then e.instruction.activityRequest? j else none

/-- **What an execution leaves of a thread.** Apart from its place, only the requests change. -/
theorem after_thread (e : Execution) (j : Fin threadCount) :
    e.after.thread j = { (e.before.thread j).noting (e.placeAsked? j) (e.activityAsked? j) with
      pc := (e.after.thread j).pc } := by
  rcases e.fails_or_ok with ⟨x, fails⟩ | ⟨resume, m, done⟩
  · rw [fails.after, placeAsked?, activityAsked?, fails.isCompleted]
    rfl
  · have completed := isCompleted_of_ok done
    rw [after_of_ok done, Machine.setPc_thread, (e.effect done).threads, placeAsked?,
      activityAsked?, if_pos completed, if_pos completed]

/-- **An execution moves no thread but its own.** -/
theorem after_pc_of_ne (e : Execution) (other : j ≠ e.thread) :
    (e.after.thread j).pc = (e.before.thread j).pc := by
  rcases e.fails_or_ok with ⟨x, fails⟩ | ⟨resume, m, done⟩
  · rw [fails.after]
  · rw [after_of_ok done, Machine.setPc_thread_of_ne other, (e.effect done).threads]
    rfl

/-- **An execution neither pauses nor resumes a thread.** -/
theorem after_activity (e : Execution) (j : Fin threadCount) :
    (e.after.thread j).activity = (e.before.thread j).activity := by
  rw [after_thread]
  rfl

/-- **An execution makes no other thread runnable, nor keeps one from running.** -/
theorem after_isRunnable_of_ne (e : Execution) (other : j ≠ e.thread) :
    (e.after.thread j).isRunnable = (e.before.thread j).isRunnable := by
  rw [Thread.isRunnable, Thread.isRunnable, after_pc_of_ne e other, after_activity]

/-- The thread of a completed execution stands where it goes on. -/
theorem after_pc_self {e : Execution} {m : Machine} {resume : Nat}
    (done : e.outcome = .ok resume m) :
    (e.after.thread e.thread).pc = resume.toUInt16 := by
  rw [after_of_ok done, Machine.setPc_thread_self]

theorem after_requestedPc (e : Execution) (j : Fin threadCount) :
    (e.after.thread j).requestedPc
      = ((e.placeAsked? j).map PlaceRequest.word).getD (e.before.thread j).requestedPc := by
  rw [after_thread]
  rfl

theorem after_requestedActivity (e : Execution) (j : Fin threadCount) :
    (e.after.thread j).requestedActivity
      = (e.activityAsked? j).getD (e.before.thread j).requestedActivity := by
  rw [after_thread]
  rfl

/-! ### The last request -/

/-- What a list of executions has last asked about the place of a thread. -/
def lastPlace? (j : Fin threadCount) (es : List Execution) : Option PlaceRequest :=
  ((completed es).filterMap fun e => e.instruction.placeRequest? j).getLast?

/-- What a list of executions has last asked about the activity of a thread. -/
def lastActivity? (j : Fin threadCount) (es : List Execution) : Option Activity :=
  ((completed es).filterMap fun e => e.instruction.activityRequest? j).getLast?

theorem lastActivity?_append (j : Fin threadCount) (es es' : List Execution) :
    lastActivity? j (es ++ es') = (lastActivity? j es').or (lastActivity? j es) := by
  rw [lastActivity?, completed_append, List.filterMap_append, List.getLast?_append]
  rfl

/-- **Of words that overwrite each other the last one remains.** -/
theorem foldl_overwrite {β : Type} (word? : Execution → Option β) (es : List Execution) (old : β) :
    es.foldl (fun old e => (word? e).getD old) old = (es.filterMap word?).getLast?.getD old := by
  induction es generalizing old with
  | nil => rfl
  | cons e es ih =>
    rw [List.foldl_cons, ih]
    cases asked : word? e with
    | none => rw [List.filterMap_cons_none asked, Option.getD_none]
    | some word => rw [List.filterMap_cons_some asked, List.getLast?_cons]; rfl

end Execution

namespace Machine.Course

open Execution

variable {m m' : Machine} {es : List Execution} (course : Course m es m') (j : Fin threadCount)

include course

/-- **The place that is requested in the end is the one that was asked for last.** -/
theorem requestedPc : (m'.thread j).requestedPc
    = ((lastPlace? j es).map PlaceRequest.word).getD (m.thread j).requestedPc := by
  have folded := course.foldl (fun m => (m.thread j).requestedPc)
    (fun old e => ((e.placeAsked? j).map PlaceRequest.word).getD old)
    fun e => e.after_requestedPc j
  rw [folded, foldl_overwrite, lastPlace?, completed, List.filterMap_filter, ← List.getLast?_map,
    List.map_filterMap]
  rfl

/-- **The activity that is requested in the end is the one that was asked for last.** -/
theorem requestedActivity : (m'.thread j).requestedActivity
    = (lastActivity? j es).getD (m.thread j).requestedActivity := by
  have folded := course.foldl (fun m => (m.thread j).requestedActivity)
    (fun old e => (e.activityAsked? j).getD old) fun e => e.after_requestedActivity j
  rw [folded, foldl_overwrite, lastActivity?, completed, List.filterMap_filter]
  rfl

/-- The activity itself is what it was. -/
theorem activity : (m'.thread j).activity = (m.thread j).activity :=
  course.unchanged (fun m => (m.thread j).activity) fun e _ => e.after_activity j

/-- A thread that executes nothing stays where it is. -/
theorem pc_of_forall_ne (others : ∀ e ∈ es, j ≠ e.thread) :
    (m'.thread j).pc = (m.thread j).pc :=
  course.unchanged (fun m => (m.thread j).pc) fun e member => e.after_pc_of_ne (others e member)

end Machine.Course

/-! ### Other threads -/

namespace Machine

variable {σ : Type} {h : Host σ} {t j : Fin threadCount} {ts : List (Fin threadCount)} {fuel : Nat}
  {m : Machine} {s : σ} {pos : Nat} {es : List Execution} {ran : Ran σ}

/-- **A slice moves no other thread.** -/
theorem Slice.pc_of_ne (slice : Slice h t fuel m s pos es ran) (other : j ≠ t) :
    (ran.machine.thread j).pc = (m.thread j).pc := by
  refine slice.course.pc_of_forall_ne j ?_
  intro e member
  rw [slice.thread e member]
  exact other

/-- **A slice makes no other thread runnable, nor keeps one from running.** -/
theorem Slice.isRunnable_of_ne (slice : Slice h t fuel m s pos es ran) (other : j ≠ t) :
    (ran.machine.thread j).isRunnable = (m.thread j).isRunnable := by
  rw [Thread.isRunnable, Thread.isRunnable, slice.pc_of_ne other, slice.course.activity j]

/-- A thread that has no turn stays where it is. -/
theorem Turns.pc_of_not_mem (turns : Turns h ts fuel m s es ran) (absent : j ∉ ts) :
    (ran.machine.thread j).pc = (m.thread j).pc := by
  refine turns.course.pc_of_forall_ne j ?_
  rintro e member rfl
  exact absent (turns.thread e member)

end Machine

end Cinematic
