import Cinematic.Host.Rehearsal
import Cinematic.Proofs.Machine.Life
import Cinematic.Proofs.Machine.Threads

/-!
# Calls and returns are brackets

All threads share one stack, so what a return goes back to depends on the order in which the
executions of **all** threads have happened. In this order calls and returns are brackets, and the
usual matching of brackets says which call a return belongs to, whoever has made it. At every moment
since the segment was installed **the stack holds the offsets just past the calls that no return has
matched yet** (`Cinematic.Machine.Life.stack_discipline`).

The matching is defined without a stack. A stretch of executions is *balanced*
(`Cinematic.Execution.Balanced`) if its calls and returns are matched within it, and calls are
*pending* (`Cinematic.Execution.Pending`) if there is nothing between them, and after them, but
balanced stretches. There is never more than one way to see a list of executions so
(`Cinematic.Execution.Pending.unique`).

Only completed executions count. A call that finds the stack full and a return that finds it empty
are not completed, so they are no brackets.
-/

namespace Cinematic

open Bytecode

namespace Execution

/-- Whether the instruction is a call. -/
def isCall (e : Execution) : Bool :=
  match e.instruction with
  | .call _ => true
  | _ => false

/-- Whether the instruction is a return. -/
def isRet (e : Execution) : Bool :=
  match e.instruction with
  | .ret => true
  | _ => false

/-- The offset just past the instruction. -/
def returnOffset (e : Execution) : UInt16 := e.next.toUInt16

theorem isCall_iff {e : Execution} : e.isCall = true ↔ ∃ target, e.instruction = .call target := by
  unfold isCall
  split
  · next target here => exact ⟨fun _ => ⟨target, here⟩, fun _ => rfl⟩
  · next other => exact ⟨fun no => (Bool.false_ne_true no).elim, fun ⟨t, h⟩ => (other t h).elim⟩

theorem isRet_iff {e : Execution} : e.isRet = true ↔ e.instruction = .ret := by
  unfold isRet
  split
  · next here => exact ⟨fun _ => here, fun _ => rfl⟩
  · next other => exact ⟨fun no => (Bool.false_ne_true no).elim, fun h => (other h).elim⟩

theorem isRet_of_isCall {e : Execution} (call : e.isCall = true) : e.isRet = false := by
  obtain ⟨target, here⟩ := isCall_iff.1 call
  rw [isRet, here]

theorem isCall_of_isRet {e : Execution} (ret : e.isRet = true) : e.isCall = false := by
  rw [isCall, isRet_iff.1 ret]

/-! ### Matching -/

/-- **Stretches in which every call and every return is matched.** -/
inductive Balanced : List Execution → Prop
  | nil : Balanced []
  | other {e : Execution} {es : List Execution} (call : e.isCall = false) (ret : e.isRet = false)
    (rest : Balanced es) : Balanced (e :: es)
  /-- A call, the return that matches it, and what is between them and after them. -/
  | pair {call ret : Execution} {inner es : List Execution} (isCall : call.isCall = true)
    (inside : Balanced inner) (isRet : ret.isRet = true) (rest : Balanced es) :
    Balanced (call :: (inner ++ ret :: es))

/-- **The calls that no return has matched**, the latest last. -/
inductive Pending : List Execution → List Execution → Prop
  | none {es : List Execution} (balanced : Balanced es) : Pending es []
  | call {es calls rest : List Execution} {call : Execution} (before : Pending es calls)
    (isCall : call.isCall = true) (after : Balanced rest) :
    Pending (es ++ call :: rest) (calls ++ [call])

/-- The call that a return after `es` matches: since then there is nothing but a balanced
stretch. -/
def Matching (es : List Execution) (call : Execution) : Prop :=
  ∃ earlier inner, es = earlier ++ call :: inner ∧ call.isCall = true ∧ Balanced inner

theorem Balanced.append {es es' : List Execution} (first : Balanced es) (second : Balanced es') :
    Balanced (es ++ es') := by
  induction first with
  | nil => exact second
  | other call ret _ ih => exact .other call ret ih
  | pair calls inside returns _ _ ih =>
    rw [List.cons_append, List.append_assoc, List.cons_append]
    exact .pair calls inside returns ih

theorem Pending.append {es es' calls : List Execution} (pending : Pending es calls)
    (balanced : Balanced es') : Pending (es ++ es') calls := by
  cases pending with
  | none first => exact .none (first.append balanced)
  | call before calls after =>
    rw [List.append_assoc, List.cons_append]
    exact .call before calls (after.append balanced)

/-- The latest of the pending calls is the one that a return would match. -/
theorem Pending.exists_last {es calls : List Execution} {call : Execution}
    (pending : Pending es (calls ++ [call])) :
    ∃ earlier inner, es = earlier ++ call :: inner ∧ call.isCall = true ∧ Balanced inner ∧
      Pending earlier calls := by
  -- the constructors do not know that the list of calls ends with this one
  generalize every : calls ++ [call] = all at pending
  cases pending with
  | none => simp at every
  | call before isCall after =>
    obtain ⟨rfl, last⟩ := List.append_inj' every rfl
    obtain rfl := List.singleton_inj.1 last
    exact ⟨_, _, rfl, isCall, after, before⟩

/-- The pending calls after one more execution. -/
def openAfter (calls : List Execution) (e : Execution) : List Execution :=
  if e.isCall then calls ++ [e] else if e.isRet then calls.dropLast else calls

theorem Balanced.foldl_openAfter {es : List Execution} (balanced : Balanced es)
    (calls : List Execution) : es.foldl openAfter calls = calls := by
  induction balanced generalizing calls with
  | nil => rfl
  | other call ret _ ih =>
    rw [List.foldl_cons, openAfter, call, ret]
    exact ih calls
  | pair isCall _ isRet _ inside rest =>
    rw [List.foldl_cons, List.foldl_append, inside, List.foldl_cons, rest, openAfter, openAfter,
      isCall_of_isRet isRet, isRet, isCall]
    simp

theorem Pending.foldl_openAfter {es calls : List Execution} (pending : Pending es calls) :
    es.foldl openAfter [] = calls := by
  induction pending with
  | none balanced => exact balanced.foldl_openAfter []
  | call _ isCall after ih =>
    rw [List.foldl_append, ih, List.foldl_cons, after.foldl_openAfter, openAfter, if_pos isCall]

/-- **There is one way to match brackets.** -/
theorem Pending.unique {es calls calls' : List Execution} (pending : Pending es calls)
    (pending' : Pending es calls') : calls = calls' :=
  pending.foldl_openAfter.symm.trans pending'.foldl_openAfter

theorem Matching.unique {es : List Execution} {call call' : Execution} (this : Matching es call)
    (that : Matching es call') : call = call' := by
  -- the call that is matched is the one that has been opened last
  have last {call : Execution} (matching : Matching es call) :
      (es.foldl openAfter []).getLast? = some call := by
    obtain ⟨earlier, inner, rfl, isCall, balanced⟩ := matching
    rw [List.foldl_append, List.foldl_cons, balanced.foldl_openAfter, openAfter, if_pos isCall,
      List.getLast?_concat]
  exact Option.some.inj ((last this).symm.trans (last that))

theorem Balanced.count {es : List Execution} (balanced : Balanced es) :
    es.countP isRet = es.countP isCall := by
  induction balanced with
  | nil => rfl
  | other call ret _ ih => simp [call, ret, ih]
  | pair isCall _ isRet _ inside rest =>
    simp [isCall, isRet, isRet_of_isCall isCall, isCall_of_isRet isRet, inside, rest]
    omega

/-- **As many calls are pending as there are more calls than returns.** -/
theorem Pending.count {es calls : List Execution} (pending : Pending es calls) :
    calls.length + es.countP isRet = es.countP isCall := by
  induction pending with
  | none balanced => simpa using balanced.count
  | call _ isCall after ih =>
    simp [isCall, isRet_of_isCall isCall, after.count]
    omega

/-! ### The stack -/

/-- The stack holds the offsets just past the pending calls. -/
def Holds (stack : CallStack) (es : List Execution) : Prop :=
  ∃ calls, Pending es calls ∧ stack.toList = calls.map returnOffset

theorem Holds.depth {stack : CallStack} {es : List Execution} (holds : Holds stack es) :
    stack.depth + es.countP isRet = es.countP isCall := by
  obtain ⟨calls, pending, content⟩ := holds
  rw [← pending.count, ← stack.length_toList, content, List.length_map]

/-- **A return goes back to just past the call that it matches.** -/
theorem Holds.resume {e : Execution} {es : List Execution} (holds : Holds e.before.stack es)
    (ret : e.isRet = true) {m : Machine} {resume : Nat} (done : e.outcome = .ok resume m) :
    ∃ call, Matching es call ∧ resume = call.returnOffset.toNat ∧ Holds m.stack (es ++ [e]) := by
  obtain ⟨calls, pending, content⟩ := holds
  have effect := (e.effect done).stack
  rw [isRet_iff.1 ret] at effect
  obtain ⟨address, popped, rfl⟩ := effect
  rw [content] at popped
  -- the address that has been popped is that of the latest pending call
  rcases List.eq_nil_or_concat calls with rfl | ⟨others, call, rfl⟩
  · simp at popped
  · rw [List.concat_eq_append, List.map_append] at popped
    obtain ⟨left, last⟩ := List.append_inj' popped rfl
    obtain rfl := List.singleton_inj.1 last
    rw [List.concat_eq_append] at pending
    obtain ⟨earlier, inner, rfl, isCall, inside, before⟩ := pending.exists_last
    refine ⟨call, ⟨earlier, inner, rfl, isCall, inside⟩, rfl, others, ?_, left.symm⟩
    rw [List.append_assoc, List.cons_append]
    exact before.append (.pair isCall inside ret .nil)

/-- **Every execution keeps the stack and the brackets together.** -/
theorem Holds.after {e : Execution} {es : List Execution} (holds : Holds e.before.stack es) :
    Holds e.after.stack (es ++ completed [e]) := by
  rcases e.fails_or_ok with ⟨x, fails⟩ | ⟨resume, m, result⟩
  · have none : completed [e] = [] := by simp [completed, fails.isCompleted]
    rw [none, List.append_nil, fails.after]
    exact holds
  · have one : completed [e] = [e] := by simp [completed, isCompleted_of_ok result]
    rw [one, after_of_ok result]
    change Holds m.stack (es ++ [e])
    by_cases call : e.isCall = true
    · obtain ⟨calls, pending, content⟩ := holds
      obtain ⟨target, here⟩ := isCall_iff.1 call
      have effect := (e.effect result).stack
      rw [here] at effect
      refine ⟨calls ++ [e], .call pending call .nil, ?_⟩
      rw [List.map_append, ← content]
      exact effect
    · by_cases ret : e.isRet = true
      · obtain ⟨_, _, _, after⟩ := holds.resume ret result
        exact after
      · -- no other instruction uses the stack
        obtain ⟨calls, pending, content⟩ := holds
        have same : m.stack = e.before.stack := by
          refine (e.effect result).stack.eq_of_ne ?_ ?_
          · intro target here
            exact call (isCall_iff.2 ⟨target, here⟩)
          · intro here
            exact ret (isRet_iff.2 here)
        have neither : Balanced [e] :=
          .other (Bool.eq_false_iff.2 call) (Bool.eq_false_iff.2 ret) .nil
        rw [same]
        exact ⟨calls, pending.append neither, content⟩

theorem Holds.course {m m' : Machine} {es past : List Execution} (holds : Holds m.stack past)
    (course : Machine.Course m es m') : Holds m'.stack (past ++ completed es) := by
  induction course generalizing past with
  | nil m =>
    rw [completed_nil, List.append_nil]
    exact holds
  | @cons e es m' _ ih =>
    have := ih holds.after
    rwa [List.append_assoc, ← completed_append] at this

/-! ### No room, and nothing to return to -/

/-- A call of thread `t` at the offset `pc` finds the stack full. -/
def Overflows (t : Fin threadCount) (pc : UInt16) (e : Execution) : Prop :=
  e.thread = t ∧ e.offset = pc ∧ e.isCall = true ∧ e.before.stack.depth = callStackCapacity

/-- A return of thread `t` at the offset `pc` finds the stack empty. -/
def Underflows (t : Fin threadCount) (pc : UInt16) (e : Execution) : Prop :=
  e.thread = t ∧ e.offset = pc ∧ e.isRet = true ∧ e.before.stack.depth = 0

variable {e : Execution} {t : Fin threadCount} {pc : UInt16}

theorem fails_stackOverflow_iff : e.Fails (.stackOverflow t pc) ↔ e.Overflows t pc := by
  constructor
  · intro failed
    have cause := failed.cause
    generalize here : e.instruction = i at cause
    cases cause with
    | full depth => exact ⟨rfl, rfl, isCall_iff.2 ⟨_, here⟩, depth⟩
  · rintro ⟨rfl, rfl, call, full⟩
    obtain ⟨target, here⟩ := isCall_iff.1 call
    obtain ⟨σ, h, s, gives⟩ := e.executed
    refine ⟨e.before, ?_⟩
    rw [← gives, here]
    change e.before.executeCall e.thread e.offset target e.next = _
    rw [Machine.executeCall, CallStack.push?_eq_none full]

theorem fails_stackUnderflow_iff : e.Fails (.stackUnderflow t pc) ↔ e.Underflows t pc := by
  constructor
  · intro failed
    have cause := failed.cause
    generalize here : e.instruction = i at cause
    cases cause with
    | empty depth => exact ⟨rfl, rfl, isRet_iff.2 here, depth⟩
  · rintro ⟨rfl, rfl, ret, empty⟩
    obtain ⟨σ, h, s, gives⟩ := e.executed
    refine ⟨e.before, ?_⟩
    rw [← gives, isRet_iff.1 ret]
    change e.before.executeRet e.thread e.offset = _
    have none : e.before.stack.pop? = none := by
      rw [CallStack.pop?_eq_none_iff, ← List.length_eq_zero_iff, CallStack.length_toList, empty]
    rw [Machine.executeRet, none]

end Execution

namespace Machine

open Execution

variable {config : MachineConfig} {seed : UInt16} {m : Machine} {history : List Execution}

/-- **At every moment since the segment was installed the stack holds the pending calls.** -/
theorem Life.holds (life : Life config seed m history) {past rest : List Execution}
    (moment : history = past ++ rest) :
    Holds (machineBefore rest m).stack (completed past) := by
  have fresh {m : Machine} (empty : m.stack = .empty) {past rest : List Execution}
      (moment : [] = past ++ rest) : Holds (machineBefore rest m).stack (completed past) := by
    obtain ⟨rfl, rfl⟩ := List.append_eq_nil_iff.1 moment.symm
    exact ⟨[], .none .nil, congrArg CallStack.toList empty⟩
  induction life generalizing past rest with
  | powerOn | install | enterPart => exact fresh rfl moment
  | setRegister _ _ _ ih | pace _ _ ih =>
    cases rest with
    | nil => exact ih moment
    | cons e rest => exact ih moment
  | @step m es _ σ h c s ih =>
    have course := step_course h m c s
    rcases List.append_eq_append_iff.1 moment with ⟨now, rfl, split⟩ | ⟨earlier, rfl, rfl⟩
    · -- a moment of this pass
      rw [split] at course
      have begun : Holds (m.commit c).stack (completed es) := ih (List.append_nil es).symm
      rw [completed_append]
      exact begun.course (course.cut now)
    · cases earlier with
      | nil =>
        -- the moment at which this pass begins
        rw [List.append_nil] at ih
        have begun : Holds (m.commit c).stack (completed past) := ih (List.append_nil past).symm
        have := begun.course (course.cut [])
        rwa [completed_nil, List.append_nil] at this
      | cons e earlier => exact ih rfl

/-- **A pass runs out of stack exactly by a call at a full stack.** -/
theorem step_eq_stackOverflow_iff {σ : Type} (h : Host σ) (m : Machine) (c : Controls) (s : σ)
    (t : Fin threadCount) (pc : UInt16) :
    (step h m c s).result = .error (.stackOverflow t pc) ↔
      ∃ e ∈ executions h m c s, e.Overflows t pc := by
  rw [step_result_eq_error_iff (by simp) (by simp)]
  simp only [fails_stackOverflow_iff]

/-- **A pass fails for want of an address exactly by a return at an empty stack.** -/
theorem step_eq_stackUnderflow_iff {σ : Type} (h : Host σ) (m : Machine) (c : Controls) (s : σ)
    (t : Fin threadCount) (pc : UInt16) :
    (step h m c s).result = .error (.stackUnderflow t pc) ↔
      ∃ e ∈ executions h m c s, e.Underflows t pc := by
  rw [step_result_eq_error_iff (by simp) (by simp)]
  simp only [fails_stackUnderflow_iff]

/-- **The shared stack over whole runs.** At every moment since the segment was installed the stack
holds the offsets just past the calls that no return has matched yet, of whichever threads, and its
depth is the number of calls less that of returns. A return goes on just past the call that it
matches. In the pass that comes next, a call fails for want of room exactly if it finds the stack
full, a return fails exactly if it finds it empty, and both leave it as it is. -/
theorem Life.stack_discipline (life : Life config seed m history) :
    (∀ past rest, history = past ++ rest →
      ∃ calls, Pending (completed past) calls ∧
        (machineBefore rest m).stack.toList = calls.map returnOffset ∧
        (machineBefore rest m).stack.depth + (completed past).countP isRet
          = (completed past).countP isCall ∧
        (machineBefore rest m).stack.depth ≤ callStackCapacity) ∧
      (∀ past e rest, history = past ++ e :: rest → e.isCompleted = true → e.isRet = true →
        ∃ call m', Matching (completed past) call ∧
          e.outcome = .ok call.returnOffset.toNat m' ∧
          (e.after.thread e.thread).pc = call.returnOffset) ∧
      ∀ {σ : Type} (h : Host σ) (c : Controls) (s : σ) (t : Fin threadCount) (pc : UInt16),
        ((Machine.step h m c s).result = .error (.stackOverflow t pc) ↔
          ∃ e ∈ executions h m c s, e.Overflows t pc) ∧
        ((Machine.step h m c s).result = .error (.stackUnderflow t pc) ↔
          ∃ e ∈ executions h m c s, e.Underflows t pc) ∧
        ∀ e ∈ executions h m c s, e.Overflows t pc ∨ e.Underflows t pc →
          (Machine.step h m c s).machine.stack = e.before.stack := by
  refine ⟨?_, ?_, ?_⟩
  · intro past rest moment
    obtain ⟨calls, pending, content⟩ := life.holds moment
    exact ⟨calls, pending, content, (life.holds moment).depth, CallStack.size_le _⟩
  · intro past e rest moment isCompleted isRet
    have holds : Holds e.before.stack (completed past) := life.holds moment
    rcases e.fails_or_ok with ⟨x, fails⟩ | ⟨resume, m', result⟩
    · rw [fails.isCompleted] at isCompleted
      cases isCompleted
    · obtain ⟨call, matching, rfl, -⟩ := holds.resume isRet result
      refine ⟨call, m', matching, result, ?_⟩
      rw [after_pc_self result]
      exact UInt16.ofNat_toNat
  · intro σ h c s t pc
    refine ⟨step_eq_stackOverflow_iff h m c s t pc, step_eq_stackUnderflow_iff h m c s t pc, ?_⟩
    rintro e member (overflows | underflows)
    · have fails := fails_stackOverflow_iff.2 overflows
      rw [(step_of_failed member fails).1, fails.after]
    · have fails := fails_stackUnderflow_iff.2 underflows
      rw [(step_of_failed member fails).1, fails.after]

/-- Thread 0 calls and yields, and in the next pass thread 1 returns to where thread 0 has
called. -/
theorem stack_discipline_across :
    let start := (powerOn .standard 0).install
      #[0x08, 1, 0, 10, 0x04, 0, 8, 0x11, 0x06, 0x11, 0x05]
    let first := step Rehearsal.host start .neutral (.start [])
    let history := executions Rehearsal.host start .neutral (.start [])
      ++ executions Rehearsal.host first.machine .neutral first.host
    ∃ past call ret rest, history = past ++ ret :: rest ∧ Matching (completed past) call ∧
      call.thread.val = 0 ∧ ret.thread.val = 1 ∧
      (ret.after.thread ret.thread).pc = call.returnOffset := by
  intro start first history
  have fresh : Life .standard 0 start [] := Life.powerOn.install _
  have life := (fresh.step Rehearsal.host .neutral (.start [])).step Rehearsal.host .neutral
    first.host
  rw [List.nil_append] at life
  change Life _ _ _ history at life
  have shape : history.map (fun e => (e.thread.val, e.isRet, e.isCompleted))
      = [(0, false, true), (0, false, true), (0, false, true), (0, false, true), (1, true, true),
        (1, false, true)] := by
    decide +kernel
  -- from here on it does not matter where the six executions come from
  generalize history = history at life shape ⊢
  simp only [List.map_eq_cons_iff, List.map_eq_nil_iff, Prod.mk.injEq] at shape
  obtain ⟨a, _, rfl, ⟨a0, -⟩, b, _, rfl, ⟨b0, -⟩, c, _, rfl, ⟨c0, -⟩, d, _, rfl, ⟨d0, -⟩,
    ret, _, rfl, ⟨ret1, isRet, isCompleted⟩, _⟩ := shape
  obtain ⟨call, -, matching, -, resumes⟩ :=
    life.stack_discipline.2.1 [a, b, c, d] ret _ rfl isCompleted isRet
  refine ⟨[a, b, c, d], call, ret, _, rfl, matching, ?_, ret1, resumes⟩
  have all : ∀ e ∈ [a, b, c, d], e.thread.val = 0 := by simp [a0, b0, c0, d0]
  obtain ⟨earlier, inner, here, -⟩ := matching
  have member : call ∈ completed [a, b, c, d] := by simp [here]
  exact all call (List.mem_filter.1 member).1

end Machine

end Cinematic
