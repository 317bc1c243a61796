import Cinematic.Proofs.Bytecode.Decode
import Cinematic.Proofs.Machine.Effect

/-!
# The executions of a pass

A pass gives back a machine, a host and a result, and does not tell what happened on the way. This
module tells it: `Cinematic.Machine.executions` is the list of all instructions that a pass
executes, of all threads in the order of time, each with the machine that it finds and what comes
of it. An instruction that fails is in the list too, as its last member, and the machine that it
leaves is the one that the pass ends with: it is the machine that it has found
(`Cinematic.Execution.Fails.after`).

Every member of the list is a real execution, because the type has no others
(`Cinematic.Execution`): the instruction stands in the segment at the given place, and what comes
of it is what executing it gives.

The loops of a pass are described by two relations, `Cinematic.Machine.Slice` and
`Cinematic.Machine.Turns`, which have one constructor for each way in which the loop can go and
mention the list and the outcome together. **What is proved of passes is proved by induction on
these relations**, and the two functions of the loop are not opened again
(`Cinematic.Machine.slice_spec`, `Cinematic.Machine.turns_spec`).

What the machine is like in between is the business of `Cinematic.Machine.Course`: the executions
of a pass form a chain, from the machine just after the commit to the machine at the end of the
pass (`Cinematic.Machine.step_course`).
-/

namespace Cinematic

open Bytecode

/-- **An instruction that a thread executes.** -/
structure Execution where
  /-- The thread. -/
  thread : Fin threadCount
  /-- The machine that the instruction finds. -/
  before : Machine
  /-- The position at which it begins. -/
  pos : Nat
  /-- The instruction. -/
  instruction : Instruction
  /-- The position just past its operands. -/
  next : Nat
  /-- How the instruction ends: where to go on or why it fails, and the machine that is left. -/
  outcome : Machine.Ended
  /-- The instruction stands in the segment. -/
  decoded : ∃ c, Instruction.decode ⟨before.segment, pos⟩ = .ok instruction c ∧ c.pos = next
  /-- The outcome is what executing it gives, with some host. -/
  executed : ∃ (σ : Type) (h : Host σ) (s : σ),
    (Machine.execute h before s thread pos.toUInt16 instruction next).2 = outcome

namespace Execution

/-- The offset at which the instruction begins. -/
def offset (e : Execution) : UInt16 := e.pos.toUInt16

/-- Whether the instruction is completed. -/
def isCompleted (e : Execution) : Bool :=
  match e.outcome with
  | .ok _ _ => true
  | .error _ _ => false

/-- The instruction fails for a reason, whatever machine it leaves. -/
def Fails (e : Execution) (x : RuntimeError) : Prop := ∃ m, e.outcome = .error x m

/-- **The machine that is left.** If the instruction is completed, the thread has been put to where it
goes on. -/
def after (e : Execution) : Machine :=
  match e.outcome with
  | .ok resume m => m.setPc e.thread resume.toUInt16
  | .error _ m => m

/-- The executions that are completed. -/
def completed (es : List Execution) : List Execution := es.filter isCompleted

@[simp] theorem completed_nil : completed [] = [] := rfl

@[simp] theorem completed_append (es es' : List Execution) :
    completed (es ++ es') = completed es ++ completed es' :=
  List.filter_append es es'

/-- The execution of the instruction at a position, and the host afterwards. There is none if the
segment ends before the instruction does. -/
def at? {σ : Type} (h : Host σ) (t : Fin threadCount) (m : Machine) (s : σ) (pos : Nat) :
    Option (Execution × σ) :=
  match read : Instruction.decode ⟨m.segment, pos⟩ with
  | .error _ _ => none
  | .ok i c =>
    let s := h.observe s (.instruction t pos.toUInt16 i)
    let x := Machine.execute h m s t pos.toUInt16 i c.pos
    some (⟨t, m, pos, i, c.pos, x.2, ⟨c, read, rfl⟩, ⟨σ, h, s, rfl⟩⟩, x.1)

/-- What is known of an execution found at a position. -/
structure IsAt {σ : Type} (h : Host σ) (t : Fin threadCount) (m : Machine) (s : σ) (pos : Nat)
    (e : Execution) (s' : σ) : Prop where
  thread : e.thread = t
  before : e.before = m
  position : e.pos = pos
  execute : Machine.execute h m (h.observe s (.instruction t pos.toUInt16 e.instruction)) t
    pos.toUInt16 e.instruction e.next = (s', e.outcome)

theorem isAt_of_at? {σ : Type} {h : Host σ} {t : Fin threadCount} {m : Machine} {s s' : σ}
    {pos : Nat} {e : Execution} (here : at? h t m s pos = some (e, s')) :
    IsAt h t m s pos e s' := by
  unfold at? at here
  split at here
  · cases here
  · cases here
    exact ⟨rfl, rfl, rfl, rfl⟩

variable {e : Execution}

theorem yields_iff (e : Execution) :
    e.instruction.yields = true ↔ e.instruction = .yield ∨ e.instruction = .kill := by
  obtain ⟨c, read, -⟩ := e.decoded
  exact Instruction.decode_yields_iff read

theorem isCompleted_of_ok {m : Machine} {resume : Nat} (done : e.outcome = .ok resume m) :
    e.isCompleted = true := by
  rw [isCompleted, done]

/-- **An execution fails or is completed.** -/
theorem fails_or_ok (e : Execution) :
    (∃ x, e.Fails x) ∨ ∃ resume m, e.outcome = .ok resume m := by
  cases result : e.outcome with
  | error x m => exact .inl ⟨x, m, result⟩
  | ok resume m => exact .inr ⟨resume, m, rfl⟩

theorem Fails.isCompleted {x : RuntimeError} (fails : e.Fails x) : e.isCompleted = false := by
  obtain ⟨m, failed⟩ := fails
  rw [Execution.isCompleted, failed]

theorem Fails.unique {x x' : RuntimeError} (fails : e.Fails x) (fails' : e.Fails x') : x = x' := by
  obtain ⟨m, failed⟩ := fails
  obtain ⟨m', failed'⟩ := fails'
  cases failed.symm.trans failed'
  rfl

theorem not_fails_of_ok {m : Machine} {resume : Nat} (done : e.outcome = .ok resume m)
    {x : RuntimeError} : ¬ e.Fails x := by
  rintro ⟨m', failed⟩
  cases done.symm.trans failed

theorem after_of_ok {m : Machine} {resume : Nat} (done : e.outcome = .ok resume m) :
    e.after = m.setPc e.thread resume.toUInt16 := by
  rw [after, done]

/-- A completed execution has just the effect of its instruction. -/
theorem effect {m : Machine} {resume : Nat} (done : e.outcome = .ok resume m) :
    Machine.Effect e.instruction e.next resume e.before m := by
  obtain ⟨σ, h, s, gives⟩ := e.executed
  exact Machine.execute_effect (gives.trans done)

/-- A failing execution has one of the causes of its instruction. -/
theorem Fails.cause {x : RuntimeError} (fails : e.Fails x) :
    Machine.Failure e.before e.thread e.offset e.instruction x := by
  obtain ⟨m, failed⟩ := fails
  obtain ⟨σ, h, s, gives⟩ := e.executed
  exact (Machine.execute_eq_error (gives.trans failed)).1

/-- **A failing execution leaves the machine as it found it.** -/
theorem Fails.after {x : RuntimeError} (fails : e.Fails x) : e.after = e.before := by
  obtain ⟨m, failed⟩ := fails
  obtain ⟨σ, h, s, gives⟩ := e.executed
  rw [Execution.after, failed]
  exact (Machine.execute_eq_error (gives.trans failed)).2

/-- All but registers, threads and stack is what it was. -/
theorem after_kept (e : Execution) : e.after = { e.before with
    registers := e.after.registers, threads := e.after.threads, stack := e.after.stack } := by
  rcases e.fails_or_ok with ⟨x, fails⟩ | ⟨resume, m, done⟩
  · rw [fails.after]
  · have kept := (e.effect done).kept
    rw [after_of_ok done]
    unfold Machine.setPc
    rw [kept]

/-- An instruction that ends the slice does not fail. -/
theorem Fails.not_yields {x : RuntimeError} (fails : e.Fails x) :
    e.instruction.yields = false := by
  have cause := fails.cause
  rw [Bool.eq_false_iff]
  intro yields
  rcases e.yields_iff.1 yields with same | same <;> rw [same] at cause <;> cases cause

end Execution

namespace Machine

open Execution (at?)

/-! ### Slices -/

/-- The executions of a slice. -/
def sliceExecutions {σ : Type} (h : Host σ) (t : Fin threadCount) :
    Nat → Machine → σ → Nat → List Execution
  | 0, _, _, _ => []
  | fuel + 1, m, s, pos =>
    match at? h t m s pos with
    | none => []
    | some (e, s) =>
      match e.outcome with
      | .error _ _ => [e]
      | .ok resume _ =>
        if e.instruction.yields then [e]
        else e :: sliceExecutions h t fuel e.after s resume

/-- **How a slice can go**: from fuel, a machine, a host and a position to the executions and what
is left behind. -/
inductive Slice {σ : Type} (h : Host σ) (t : Fin threadCount) :
    Nat → Machine → σ → Nat → List Execution → Ran σ → Prop
  /-- There is no fuel. -/
  | exhausted (m : Machine) (s : σ) (pos : Nat) :
    Slice h t 0 m s pos [] ⟨m, s, .error (.fuelExhausted t pos.toUInt16)⟩
  /-- There is no instruction. -/
  | unread {fuel : Nat} {m : Machine} {s : σ} {pos : Nat} {x : ReadError} {c : Cursor}
    (read : Instruction.decode ⟨m.segment, pos⟩ = .error x c) :
    Slice h t (fuel + 1) m s pos [] ⟨m, s, .error (.bytecode t x)⟩
  /-- The instruction fails. -/
  | failed {fuel : Nat} {m : Machine} {s s' : σ} {pos : Nat} {e : Execution} {x : RuntimeError}
    (here : e.IsAt h t m s pos s') (fails : e.Fails x) :
    Slice h t (fuel + 1) m s pos [e] ⟨e.after, s', .error x⟩
  /-- The instruction ends the slice. -/
  | yields {fuel : Nat} {m m' : Machine} {s s' : σ} {pos resume : Nat} {e : Execution}
    (here : e.IsAt h t m s pos s') (done : e.outcome = .ok resume m')
    (last : e.instruction.yields = true) :
    Slice h t (fuel + 1) m s pos [e] ⟨e.after, s', .ok fuel⟩
  /-- Another instruction follows. -/
  | continues {fuel : Nat} {m m' : Machine} {s s' : σ} {pos resume : Nat} {e : Execution}
    {es : List Execution} {ran : Ran σ}
    (here : e.IsAt h t m s pos s') (done : e.outcome = .ok resume m')
    (more : e.instruction.yields = false) (rest : Slice h t fuel e.after s' resume es ran) :
    Slice h t (fuel + 1) m s pos (e :: es) ran

section

variable {σ : Type} {h : Host σ} {t : Fin threadCount}

theorem slice_spec (fuel : Nat) (m : Machine) (s : σ) (pos : Nat) :
    Slice h t fuel m s pos (sliceExecutions h t fuel m s pos) (slice h t fuel m s pos) := by
  induction fuel generalizing m s pos with
  | zero => exact .exhausted m s pos
  | succ fuel ih =>
    rw [sliceExecutions, slice]
    cases found : at? h t m s pos with
    | none =>
      -- no execution is found only where reading fails
      unfold at? at found
      split at found
      · next x c read =>
        rw [read]
        exact .unread read
      · cases found
    | some found' =>
      obtain ⟨e, s'⟩ := found'
      have here := Execution.isAt_of_at? found
      have decoded := e.decoded
      rw [here.before, here.position] at decoded
      obtain ⟨c, read, position⟩ := decoded
      -- the loop reads the instruction that has been found
      rw [read]
      dsimp only
      rw [position, here.execute]
      cases done : e.outcome with
      | error x m' =>
        have fails : Slice h t (fuel + 1) m s pos [e] ⟨e.after, s', .error x⟩ :=
          .failed here ⟨m', done⟩
        rwa [Execution.after, done] at fails
      | ok resume m' =>
        dsimp only
        have put : m'.setPc t resume.toUInt16 = e.after := by
          rw [Execution.after_of_ok done, here.thread]
        rw [put]
        by_cases last : e.instruction.yields = true
        · rw [if_pos last, if_pos last]
          exact .yields here done last
        · rw [if_neg last, if_neg last]
          exact .continues here done (Bool.eq_false_iff.2 last) (ih _ _ _)

end

/-! ### Passes -/

/-- The executions of the slices of some threads. -/
def turnsExecutions {σ : Type} (h : Host σ) :
    List (Fin threadCount) → Nat → Machine → σ → List Execution
  | [], _, _, _ => []
  | t :: rest, fuel, m, s =>
    if (m.thread t).isRunnable then
      let pc := (m.thread t).pc
      let begun := h.observe s (.slice t pc)
      sliceExecutions h t fuel m begun pc.toNat ++
        match turn h t fuel m s with
        | ⟨m, s, .ok fuel⟩ => turnsExecutions h rest fuel m s
        | _ => []
    else turnsExecutions h rest fuel m s

/-- **How the slices of some threads can go.** -/
inductive Turns {σ : Type} (h : Host σ) :
    List (Fin threadCount) → Nat → Machine → σ → List Execution → Ran σ → Prop
  | done (fuel : Nat) (m : Machine) (s : σ) : Turns h [] fuel m s [] ⟨m, s, .ok fuel⟩
  /-- A thread that is not runnable is passed over. -/
  | skips {t : Fin threadCount} {rest : List (Fin threadCount)} {fuel : Nat} {m : Machine} {s : σ}
    {es : List Execution} {ran : Ran σ} (idle : (m.thread t).isRunnable = false)
    (others : Turns h rest fuel m s es ran) : Turns h (t :: rest) fuel m s es ran
  /-- The slice of a thread fails, and with it the pass. -/
  | fails {t : Fin threadCount} {rest : List (Fin threadCount)} {fuel : Nat} {m m' : Machine}
    {s s' : σ} {es : List Execution} {x : RuntimeError} (due : (m.thread t).isRunnable = true)
    (slice : Slice h t fuel m (h.observe s (.slice t (m.thread t).pc)) (m.thread t).pc.toNat es
      ⟨m', s', .error x⟩) : Turns h (t :: rest) fuel m s es ⟨m', s', .error x⟩
  /-- The slice of a thread ends, and the other threads follow. -/
  | serves {t : Fin threadCount} {rest : List (Fin threadCount)} {fuel fuel' : Nat}
    {m m' : Machine} {s s' : σ} {es es' : List Execution} {ran : Ran σ}
    (due : (m.thread t).isRunnable = true)
    (slice : Slice h t fuel m (h.observe s (.slice t (m.thread t).pc)) (m.thread t).pc.toNat es
      ⟨m', s', .ok fuel'⟩)
    (others : Turns h rest fuel' m' (h.observe s' (.yielded t (m'.thread t).pc)) es' ran) :
    Turns h (t :: rest) fuel m s (es ++ es') ran

/-- **The executions of a pass**, in the order of time. -/
def executions {σ : Type} (h : Host σ) (m : Machine) (c : Controls) (s : σ) : List Execution :=
  turnsExecutions h (List.finRange threadCount) m.config.fuel.toNat (m.commit c)
    (h.observe s (.pass m.passes))

section

variable {σ : Type} {h : Host σ}

theorem turns_spec (ts : List (Fin threadCount)) (fuel : Nat) (m : Machine) (s : σ) :
    Turns h ts fuel m s (turnsExecutions h ts fuel m s) (turns h ts fuel m s) := by
  induction ts generalizing fuel m s with
  | nil => exact .done fuel m s
  | cons t rest ih =>
    rw [turnsExecutions, turns]
    by_cases due : (m.thread t).isRunnable = true
    · rw [if_pos due, if_pos due]
      have spec := slice_spec (h := h) (t := t) fuel m (h.observe s (.slice t (m.thread t).pc))
        (m.thread t).pc.toNat
      dsimp only [turn]
      generalize slice h t fuel m (h.observe s (.slice t (m.thread t).pc))
        (m.thread t).pc.toNat = ran at spec ⊢
      obtain ⟨m', s', result⟩ := ran
      cases result with
      | error x =>
        dsimp only
        rw [List.append_nil]
        exact .fails due spec
      | ok fuel' => exact .serves due spec (ih _ _ _)
    · rw [if_neg due, if_neg due]
      exact .skips (Bool.eq_false_iff.2 due) (ih _ _ _)

/-- **A pass is the turns of all threads**, from the machine just after the commit on. -/
theorem step_turns (h : Host σ) (m : Machine) (c : Controls) (s : σ) :
    ∃ result, Turns h (List.finRange threadCount) m.config.fuel.toNat (m.commit c)
        (h.observe s (.pass m.passes)) (executions h m c s)
        ⟨(step h m c s).machine, (step h m c s).host, result⟩ ∧
      (step h m c s).result = result.map fun _ => () :=
  ⟨_, turns_spec _ _ _ _, rfl⟩

end

/-! ### Courses -/

/-- **A chain of executions from a machine to another**: each finds what the one before it has
left. -/
inductive Course : Machine → List Execution → Machine → Prop
  | nil (m : Machine) : Course m [] m
  | cons {e : Execution} {es : List Execution} {m' : Machine} (rest : Course e.after es m') :
    Course e.before (e :: es) m'

/-- The machine just before the executions `rest`, if they lead to `m`. -/
def machineBefore (rest : List Execution) (m : Machine) : Machine :=
  match rest with
  | [] => m
  | e :: _ => e.before

namespace Course

variable {m m' m'' : Machine} {es es' : List Execution}

theorem append (first : Course m es m') (second : Course m' es' m'') :
    Course m (es ++ es') m'' := by
  induction first with
  | nil m => exact second
  | cons rest ih => exact .cons (ih second)

/-- A course begins with the machine that its first execution finds. -/
theorem machineBefore_eq (course : Course m es m') : machineBefore es m' = m := by
  cases course with
  | nil => rfl
  | cons => rfl

/-- **A course can be cut anywhere.** -/
theorem cut (past : List Execution) {rest : List Execution} (course : Course m (past ++ rest) m') :
    Course m past (machineBefore rest m') := by
  induction past generalizing m with
  | nil =>
    cases course with
    | nil => exact .nil _
    | cons => exact .nil _
  | cons first past ih =>
    cases course with
    | cons course => exact .cons (ih course)

/-- **What each execution does to something that can be seen of the machine, a course does one after
the other.** -/
theorem foldl {α : Type} (view : Machine → α) (change : α → Execution → α)
    (each : ∀ e : Execution, view e.after = change (view e.before) e)
    (course : Course m es m') : view m' = es.foldl change (view m) := by
  induction course with
  | nil m => rfl
  | cons rest ih => rw [ih, each, List.foldl_cons]

/-- All but registers, threads and stack is what it was. -/
theorem kept (course : Course m es m') : m' = { m with
    registers := m'.registers, threads := m'.threads, stack := m'.stack } := by
  induction course with
  | nil m => rfl
  | @cons e es m' rest ih =>
    rw [e.after_kept] at ih
    exact ih

/-- What no execution of a course changes is the same at its end. -/
theorem unchanged {α : Type} (view : Machine → α)
    (course : Course m es m') (each : ∀ e ∈ es, view e.after = view e.before) :
    view m' = view m := by
  induction course with
  | nil m => rfl
  | cons rest ih =>
    rw [ih fun e member => each e (List.mem_cons_of_mem _ member), each _ List.mem_cons_self]

end Course

section

variable {σ : Type} {h : Host σ} {t : Fin threadCount} {ts : List (Fin threadCount)} {fuel : Nat}
  {m : Machine} {s : σ} {pos : Nat} {es : List Execution} {ran : Ran σ}

theorem Slice.course (slice : Slice h t fuel m s pos es ran) : Course m es ran.machine := by
  induction slice with
  | exhausted | unread => exact .nil _
  | failed here | yields here =>
    rw [← here.before]
    exact .cons (.nil _)
  | continues here _ _ _ ih =>
    rw [← here.before]
    exact .cons ih

theorem Turns.course (turns : Turns h ts fuel m s es ran) : Course m es ran.machine := by
  induction turns with
  | done => exact .nil _
  | skips _ _ ih => exact ih
  | fails _ slice => exact slice.course
  | serves _ slice _ ih => exact slice.course.append ih

/-- **The executions of a pass are a course** from the machine just after the commit to the machine
at the end. -/
theorem step_course (h : Host σ) (m : Machine) (c : Controls) (s : σ) :
    Course (m.commit c) (executions h m c s) (step h m c s).machine := by
  obtain ⟨result, turns, -⟩ := step_turns h m c s
  exact turns.course

/-- A pass counts itself, and keeps all but registers, threads and stack. -/
theorem step_kept (h : Host σ) (m : Machine) (c : Controls) (s : σ) :
    (step h m c s).machine = { m with
      passes := m.passes + 1
      registers := (step h m c s).machine.registers
      threads := (step h m c s).machine.threads
      stack := (step h m c s).machine.stack } :=
  (step_course h m c s).kept

/-- A pass that runs only if it is due keeps what a pass keeps. -/
theorem run_kept (h : Host σ) (m : Machine) (c : Controls) (s : σ) :
    (run h m c s).machine.part = m.part ∧ (run h m c s).machine.segment = m.segment := by
  rw [run]
  split
  · exact ⟨rfl, rfl⟩
  · next pacer _ =>
    have kept := step_kept h { m with pacer := pacer } c s
    generalize step h { m with pacer := pacer } c s = stepped at kept ⊢
    obtain ⟨m', c', s', result⟩ := stepped
    dsimp only at kept
    cases result with
    | error x =>
      dsimp only
      rw [kept]
      exact ⟨rfl, rfl⟩
    | ok _ =>
      dsimp only
      rw [kept]
      exact ⟨rfl, rfl⟩

/-! ### Whose executions they are -/

theorem Slice.thread (slice : Slice h t fuel m s pos es ran) : ∀ e ∈ es, e.thread = t := by
  induction slice with
  | exhausted | unread =>
    intro e member
    cases member
  | failed here | yields here =>
    intro e member
    rw [List.mem_singleton.1 member, here.thread]
  | continues here _ _ _ ih =>
    intro e member
    rcases List.mem_cons.1 member with rfl | later
    · exact here.thread
    · exact ih e later

theorem Turns.thread (turns : Turns h ts fuel m s es ran) : ∀ e ∈ es, e.thread ∈ ts := by
  induction turns with
  | done =>
    intro e member
    cases member
  | skips _ _ ih => exact fun e member => List.mem_cons_of_mem _ (ih e member)
  | fails _ slice =>
    intro e member
    rw [slice.thread e member]
    exact List.mem_cons_self
  | serves _ slice _ ih =>
    intro e member
    rcases List.mem_append.1 member with now | later
    · rw [slice.thread e now]
      exact List.mem_cons_self
    · exact List.mem_cons_of_mem _ (ih e later)

/-! ### Failures -/

/-- **A failing execution ends its slice**, which leaves what the execution leaves and fails for the
same reason. -/
theorem Slice.of_failed (slice : Slice h t fuel m s pos es ran) {e : Execution} (member : e ∈ es)
    {x : RuntimeError} (failed : e.Fails x) :
    ran.machine = e.after ∧ ran.result = .error x := by
  induction slice with
  | exhausted | unread => cases member
  | failed here fails =>
    obtain rfl := List.mem_singleton.1 member
    obtain rfl := fails.unique failed
    exact ⟨rfl, rfl⟩
  | yields here done =>
    obtain rfl := List.mem_singleton.1 member
    exact absurd failed (Execution.not_fails_of_ok done)
  | continues here done _ _ ih =>
    rcases List.mem_cons.1 member with rfl | later
    · exact absurd failed (Execution.not_fails_of_ok done)
    · exact ih later

theorem Turns.of_failed (turns : Turns h ts fuel m s es ran) {e : Execution} (member : e ∈ es)
    {x : RuntimeError} (failed : e.Fails x) :
    ran.machine = e.after ∧ ran.result = .error x := by
  induction turns with
  | done => cases member
  | skips _ _ ih => exact ih member
  | fails _ slice => exact slice.of_failed member failed
  | serves _ slice _ ih =>
    rcases List.mem_append.1 member with now | later
    · cases (slice.of_failed now failed).2
    · exact ih later

/-- A slice that ends well has no failing execution. -/
theorem Slice.isCompleted (slice : Slice h t fuel m s pos es ran) {left : Nat}
    (done : ran.result = .ok left) : ∀ e ∈ es, e.isCompleted = true := by
  intro e member
  rcases e.fails_or_ok with ⟨x, fails⟩ | ⟨resume, m, completed⟩
  · cases (slice.of_failed member fails).2.symm.trans done
  · exact Execution.isCompleted_of_ok completed

theorem Turns.isCompleted (turns : Turns h ts fuel m s es ran) {left : Nat}
    (done : ran.result = .ok left) : ∀ e ∈ es, e.isCompleted = true := by
  intro e member
  rcases e.fails_or_ok with ⟨x, fails⟩ | ⟨resume, m, completed⟩
  · cases (turns.of_failed member fails).2.symm.trans done
  · exact Execution.isCompleted_of_ok completed

/-- A failing execution ends the pass. -/
theorem step_of_failed {c : Controls} {e : Execution} (member : e ∈ executions h m c s)
    {x : RuntimeError} (failed : e.Fails x) :
    (step h m c s).machine = e.after ∧ (step h m c s).result = .error x := by
  obtain ⟨result, turns, same⟩ := step_turns h m c s
  obtain ⟨machine, reason⟩ := turns.of_failed member failed
  refine ⟨machine, ?_⟩
  dsimp only at reason
  rw [same, reason]
  rfl

/-- **A slice fails by a failing execution**, or because there is no fuel or no instruction left. -/
theorem Slice.failed_of_result (slice : Slice h t fuel m s pos es ran) {x : RuntimeError}
    (failed : ran.result = .error x) :
    (∃ e ∈ es, e.Fails x) ∨ (∃ pc, x = .fuelExhausted t pc) ∨
      ∃ cause, x = .bytecode t cause := by
  induction slice with
  | exhausted m s pos =>
    cases failed
    exact Or.inr (Or.inl ⟨_, rfl⟩)
  | unread =>
    cases failed
    exact Or.inr (Or.inr ⟨_, rfl⟩)
  | failed here fails =>
    cases failed
    exact Or.inl ⟨_, List.mem_singleton_self _, fails⟩
  | yields => cases failed
  | continues here done _ _ ih =>
    rcases ih failed with ⟨e, member, fails⟩ | other
    · exact Or.inl ⟨e, List.mem_cons_of_mem _ member, fails⟩
    · exact Or.inr other

theorem Turns.failed_of_result (turns : Turns h ts fuel m s es ran) {x : RuntimeError}
    (failed : ran.result = .error x) :
    (∃ e ∈ es, e.Fails x) ∨ (∃ t pc, x = .fuelExhausted t pc) ∨
      ∃ t cause, x = .bytecode t cause := by
  induction turns with
  | done => cases failed
  | skips _ _ ih => exact ih failed
  | fails _ slice =>
    rcases slice.failed_of_result failed with found | other | other
    · exact Or.inl found
    · exact Or.inr (Or.inl ⟨_, other⟩)
    · exact Or.inr (Or.inr ⟨_, other⟩)
  | serves _ _ _ ih =>
    rcases ih failed with ⟨e, member, fails⟩ | other
    · exact Or.inl ⟨e, List.mem_append_right _ member, fails⟩
    · exact Or.inr other

/-- **A pass fails for the reason of a failing execution exactly if it has this execution**, unless
the reason is one that no instruction has. -/
theorem step_result_eq_error_iff {c : Controls} {x : RuntimeError}
    (fuel : ∀ t pc, x ≠ .fuelExhausted t pc) (read : ∀ t cause, x ≠ .bytecode t cause) :
    (step h m c s).result = .error x ↔ ∃ e ∈ executions h m c s, e.Fails x := by
  obtain ⟨result, turns, same⟩ := step_turns h m c s
  rw [same]
  constructor
  · intro failed
    have failed : result = .error x := by
      cases result with
      | error y =>
        cases failed
        rfl
      | ok fuel => cases failed
    rcases turns.failed_of_result failed with found | ⟨t, pc, other⟩ | ⟨t, cause, other⟩
    · exact found
    · exact absurd other (fuel t pc)
    · exact absurd other (read t cause)
  · rintro ⟨e, member, failed⟩
    rw [← same]
    exact (step_of_failed member failed).2

end

end Machine

end Cinematic
