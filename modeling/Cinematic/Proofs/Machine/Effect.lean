import Cinematic.Machine.Pass

/-!
# What an instruction can do to the machine

Of the 64 threads an instruction changes only what is **requested** of those that it addresses, and
of the stack only a call and a return change anything. `Cinematic.Machine.Effect` says this once
for all instructions; whatever is true of a whole pass, or of many passes, is derived from it and
never from the instructions again (`Cinematic.Machine.execute_effect`).

What an instruction asks of a thread is a function of the instruction alone
(`Cinematic.Bytecode.Instruction.placeRequest?`,
`Cinematic.Bytecode.Instruction.activityRequest?`), so it can be read off a list of instructions
without running them.

The failures have the same treatment: `Cinematic.Machine.Failure` lists for every cause the
instructions that can have it, and under which condition. **An instruction that fails leaves the
machine as it found it**, in all of these cases (`Cinematic.Machine.execute_eq_error`).
-/

namespace Cinematic

open Bytecode

/-! ### Requests -/

/-- What can be asked about the place of a thread. -/
inductive PlaceRequest where
  /-- To start at the target. Two targets are no places, and ask for something else. -/
  | start (target : UInt16)
  /-- To end. -/
  | halt
deriving Repr, DecidableEq

/-- The word that notes a request in the thread. -/
def PlaceRequest.word : PlaceRequest → UInt16
  | start target => target
  | halt => Thread.haltRequest

namespace Bytecode

/-- What a mode of `reset` asks about the place of a thread. -/
def ResetMode.place? : ResetMode → Option PlaceRequest
  | halt => some .halt
  | _ => none

/-- What a mode of `reset` asks about the activity of a thread. -/
def ResetMode.activity? : ResetMode → Option Activity
  | resume => some .running
  | pause => some .paused
  | _ => none

namespace Instruction

/-- What an instruction, once completed, has asked about the place of a thread. -/
def placeRequest? (j : Fin threadCount) : Instruction → Option PlaceRequest
  | init index target => if index.toNat = j then some (.start target) else none
  | reset first last mode => if first.toNat ≤ j ∧ j ≤ last.toNat then mode.place? else none
  | _ => none

/-- What an instruction, once completed, has asked about the activity of a thread. -/
def activityRequest? (j : Fin threadCount) : Instruction → Option Activity
  | reset first last mode => if first.toNat ≤ j ∧ j ≤ last.toNat then mode.activity? else none
  | _ => none

end Instruction

end Bytecode

/-- The thread with requests noted in it. -/
def Thread.noting (t : Thread) (place : Option PlaceRequest) (activity : Option Activity) :
    Thread :=
  { t with
    requestedPc := (place.map PlaceRequest.word).getD t.requestedPc
    requestedActivity := activity.getD t.requestedActivity }

@[simp] theorem Thread.noting_none (t : Thread) : t.noting none none = t := rfl

namespace Machine

/-- A thread of the machine. -/
abbrev thread (m : Machine) (t : Fin threadCount) : Thread := getElem m.threads t t.isLt

theorem request_eq_noting (mode : ResetMode) (t : Thread) :
    request mode t = t.noting mode.place? mode.activity? := by
  cases mode <;> rfl

/-! ### What an instruction leaves -/

/-- What becomes of the stack: a call appends the offset of what follows it, and a return takes the
latest address off and goes on there. -/
def StackEffect (i : Instruction) (next resume : Nat) (stack stack' : CallStack) : Prop :=
  match i with
  | .call _ => stack'.toList = stack.toList ++ [next.toUInt16]
  | .ret => ∃ address : UInt16, stack.toList = stack'.toList ++ [address] ∧ resume = address.toNat
  | _ => stack' = stack

/-- Only calls and returns use the stack. -/
theorem StackEffect.eq_of_ne {i : Instruction} {next resume : Nat} {stack stack' : CallStack}
    (effect : StackEffect i next resume stack stack') (call : ∀ target, i ≠ .call target)
    (ret : i ≠ .ret) : stack' = stack := by
  cases i with
  | call target => exact absurd rfl (call target)
  | ret => exact absurd rfl ret
  | _ => exact effect

/-- **What an instruction leaves of a machine.** It is followed by `next`, and the thread goes on at
`resume`. -/
structure Effect (i : Instruction) (next resume : Nat) (m m' : Machine) : Prop where
  /-- All else is kept. -/
  kept : m' = { m with registers := m'.registers, threads := m'.threads, stack := m'.stack }
  /-- Threads are changed by what is requested of them, and in no other way. -/
  threads (j : Fin threadCount) :
    m'.thread j = (m.thread j).noting (i.placeRequest? j) (i.activityRequest? j)
  stack : StackEffect i next resume m.stack m'.stack

/-- An instruction that neither addresses a thread nor uses the stack may write registers. -/
theorem effect_registers {i : Instruction} {next resume : Nat} (m : Machine) (r : RegisterFile)
    (place : ∀ j, i.placeRequest? j = none) (activity : ∀ j, i.activityRequest? j = none)
    (stack : StackEffect i next resume m.stack m.stack) :
    Effect i next resume m { m with registers := r } where
  kept := rfl
  threads j := by rw [place, activity, Thread.noting_none]
  stack := stack

/-! ### What a completed instruction has done

Each of the instructions that can fail is opened here once, in case it is completed. -/

theorem executeCall_eq_ok {m m' : Machine} {t : Fin threadCount} {pc target : UInt16}
    {next resume : Nat} (done : m.executeCall t pc target next = .ok resume m') :
    ∃ stack, m.stack.push? next.toUInt16 = some stack ∧ m' = { m with stack := stack } ∧
      resume = target.toNat := by
  unfold executeCall at done
  split at done
  · next stack pushed =>
    cases done
    exact ⟨stack, pushed, rfl, rfl⟩
  · cases done

theorem executeRet_eq_ok {m m' : Machine} {t : Fin threadCount} {pc : UInt16}
    {resume : Nat} (done : m.executeRet t pc = .ok resume m') :
    ∃ address stack, m.stack.pop? = some (address, stack) ∧ m' = { m with stack := stack } ∧
      resume = address.toNat := by
  unfold executeRet at done
  split at done
  · next address stack popped =>
    cases done
    exact ⟨address, stack, popped, rfl, rfl⟩
  · cases done

theorem executeInit_eq_ok {m m' : Machine} {t : Fin threadCount} {pc target : UInt16}
    {index : UInt8} {next resume : Nat}
    (done : m.executeInit t pc index target next = .ok resume m') :
    ∃ known : index.toNat < threadCount,
      let asked := { m.threads[index.toNat] with requestedPc := target }
      m' = { m with threads := m.threads.set index.toNat asked known } ∧ resume = next := by
  unfold executeInit at done
  split at done
  · next known =>
    cases done
    exact ⟨known, rfl, rfl⟩
  · cases done

/-- A range of threads is empty, or both of its ends are threads and all of it is asked. -/
theorem executeReset_eq_ok {m m' : Machine} {t : Fin threadCount} {pc : UInt16}
    {first last : UInt8} {mode : ResetMode} {next resume : Nat}
    (done : m.executeReset t pc first last mode next = .ok resume m') :
    ((last < first ∧ m' = m) ∨ m' = { m with threads := m.threads.mapIdx fun i thread =>
      if first.toNat ≤ i ∧ i ≤ last.toNat then request mode thread else thread }) ∧
    resume = next := by
  unfold executeReset at done
  split at done
  · cases done
  · split at done
    · next empty =>
      cases done
      exact ⟨Or.inl ⟨empty, rfl⟩, rfl⟩
    · split at done
      · cases done
      · split at done
        · cases done
        · cases done
          exact ⟨Or.inr rfl, rfl⟩

theorem executeCall_effect {m m' : Machine} {t : Fin threadCount} {pc target : UInt16}
    {next resume : Nat} (done : m.executeCall t pc target next = .ok resume m') :
    Effect (.call target) next resume m m' := by
  obtain ⟨stack, pushed, rfl, rfl⟩ := executeCall_eq_ok done
  exact ⟨rfl, fun _ => rfl, CallStack.toList_of_push? pushed⟩

theorem executeRet_effect {m m' : Machine} {t : Fin threadCount} {pc : UInt16}
    {next resume : Nat} (done : m.executeRet t pc = .ok resume m') :
    Effect .ret next resume m m' := by
  obtain ⟨address, stack, popped, rfl, rfl⟩ := executeRet_eq_ok done
  exact ⟨rfl, fun _ => rfl, address, CallStack.toList_of_pop? popped, rfl⟩

theorem executeInit_effect {m m' : Machine} {t : Fin threadCount} {pc target : UInt16}
    {index : UInt8} {next resume : Nat}
    (done : m.executeInit t pc index target next = .ok resume m') :
    Effect (.init index target) next resume m m' := by
  obtain ⟨known, rfl, rfl⟩ := executeInit_eq_ok done
  refine ⟨rfl, fun j => ?_, rfl⟩
  by_cases here : index.toNat = j
  · -- the thread that is addressed
    have request : (Instruction.init index target).placeRequest? j = some (.start target) :=
      if_pos here
    rw [request]
    simp [here, Thread.noting, PlaceRequest.word, Instruction.activityRequest?]
  · have none : (Instruction.init index target).placeRequest? j = none := if_neg here
    rw [none]
    simp [here, Instruction.activityRequest?]

theorem executeReset_effect {m m' : Machine} {t : Fin threadCount} {pc : UInt16}
    {first last : UInt8} {mode : ResetMode} {next resume : Nat}
    (done : m.executeReset t pc first last mode next = .ok resume m') :
    Effect (.reset first last mode) next resume m m' := by
  rcases executeReset_eq_ok done with ⟨⟨empty, rfl⟩ | rfl, rfl⟩
  · refine ⟨rfl, fun j => ?_, rfl⟩
    have outside : ¬ (first.toNat ≤ j ∧ j ≤ last.toNat) := by
      have := UInt8.lt_iff_toNat_lt.1 empty
      omega
    simp [Instruction.placeRequest?, Instruction.activityRequest?, outside]
  · refine ⟨rfl, fun j => ?_, rfl⟩
    by_cases inside : first.toNat ≤ j ∧ j ≤ last.toNat
    · simp [Instruction.placeRequest?, Instruction.activityRequest?, inside, request_eq_noting]
    · simp [Instruction.placeRequest?, Instruction.activityRequest?, inside]

theorem executeCjmp_eq_ok {m m' : Machine} {t : Fin threadCount} {pc target : UInt16}
    {cond : Condition} {reg : UInt8} {operand : Comparand} {next resume : Nat}
    (done : m.executeCjmp t pc cond reg operand target next = .ok resume m') : m' = m := by
  unfold executeCjmp at done
  split at done
  · cases done
  · cases done
    rfl

section Execute

variable {σ : Type} {h : Host σ} {m m' : Machine} {s : σ} {t : Fin threadCount} {pc : UInt16}
  {i : Instruction} {next resume : Nat}

/-- **Every completed instruction has just its effect.** -/
theorem execute_effect (done : (execute h m s t pc i next).2 = .ok resume m') :
    Effect i next resume m m' := by
  cases i with
  | call target => exact executeCall_effect done
  | ret => exact executeRet_effect done
  | init index target => exact executeInit_effect done
  | reset first last mode => exact executeReset_effect done
  | cjmp cond reg operand target =>
    simp only [execute] at done
    split at done
    · cases done
      exact effect_registers m _ (fun _ => rfl) (fun _ => rfl) rfl
    · obtain rfl := executeCjmp_eq_ok done
      exact effect_registers m' _ (fun _ => rfl) (fun _ => rfl) rfl
  | loadres id =>
    simp only [execute] at done
    split at done
    · cases done
      exact effect_registers m _ (fun _ => rfl) (fun _ => rfl) rfl
    · cases done
  | invalid code => cases done
  | _ =>
    -- all others write registers or nothing
    cases done
    exact effect_registers m _ (fun _ => rfl) (fun _ => rfl) rfl

/-! ### Why an instruction fails -/

/-- **The causes of failures**, of an instruction of thread `t` at the offset `pc`. -/
inductive Failure (m : Machine) (t : Fin threadCount) (pc : UInt16) :
    Instruction → RuntimeError → Prop
  /-- A call finds no room for its return address. -/
  | full {target : UInt16} (depth : m.stack.depth = callStackCapacity) :
    Failure m t pc (.call target) (.stackOverflow t pc)
  /-- A return finds no address. -/
  | empty (depth : m.stack.depth = 0) : Failure m t pc .ret (.stackUnderflow t pc)
  | condition (code reg : UInt8) (operand : Comparand) (target : UInt16) :
    Failure m t pc (.cjmp (.undefined code) reg operand target) (.invalidCondition t pc code)
  | mode (first last code : UInt8) :
    Failure m t pc (.reset first last (.invalid code)) (.invalidResetMode t pc code)
  | thread {index : UInt8} (target : UInt16) (unknown : threadCount ≤ index.toNat) :
    Failure m t pc (.init index target) (.invalidThread t pc index)
  /-- An end of a range is no thread. -/
  | range {first last index : UInt8} (mode : ResetMode) (bound : index = first ∨ index = last)
    (unknown : threadCount ≤ index.toNat) :
    Failure m t pc (.reset first last mode) (.invalidThread t pc index)
  | resource (id : UInt16) (cause : String) : Failure m t pc (.loadres id) (.resource id cause)
  | opcode (code : UInt8) : Failure m t pc (.invalid code) (.invalidOpcode t pc code)

theorem executeCall_eq_error {target : UInt16} {x : RuntimeError}
    (failed : m.executeCall t pc target next = .error x m') :
    Failure m t pc (.call target) x ∧ m' = m := by
  unfold executeCall at failed
  split at failed
  · cases failed
  · next refused =>
    cases failed
    exact ⟨.full ((CallStack.push?_eq_none_iff _ _).1 refused), rfl⟩

theorem executeRet_eq_error {x : RuntimeError} (failed : m.executeRet t pc = .error x m') :
    Failure m t pc .ret x ∧ m' = m := by
  unfold executeRet at failed
  split at failed
  · cases failed
  · next none =>
    cases failed
    refine ⟨.empty ?_, rfl⟩
    rw [← CallStack.length_toList, (CallStack.pop?_eq_none_iff _).1 none, List.length_nil]

theorem executeInit_eq_error {index : UInt8} {target : UInt16} {x : RuntimeError}
    (failed : m.executeInit t pc index target next = .error x m') :
    Failure m t pc (.init index target) x ∧ m' = m := by
  unfold executeInit at failed
  split at failed
  · cases failed
  · next unknown =>
    cases failed
    exact ⟨.thread target (Nat.not_lt.1 unknown), rfl⟩

/-- Both ends of a range are looked at before any of its threads is asked. -/
theorem executeReset_eq_error {first last : UInt8} {mode : ResetMode} {x : RuntimeError}
    (failed : m.executeReset t pc first last mode next = .error x m') :
    Failure m t pc (.reset first last mode) x ∧ m' = m := by
  unfold executeReset at failed
  split at failed
  · cases failed
    exact ⟨.mode first last _, rfl⟩
  · split at failed
    · cases failed
    · split at failed
      · next unknown =>
        cases failed
        exact ⟨.range mode (Or.inl rfl) unknown, rfl⟩
      · split at failed
        · next unknown =>
          cases failed
          exact ⟨.range mode (Or.inr rfl) unknown, rfl⟩
        · cases failed

theorem executeCjmp_eq_error {cond : Condition} {reg : UInt8} {operand : Comparand}
    {target : UInt16} {x : RuntimeError}
    (failed : m.executeCjmp t pc cond reg operand target next = .error x m') :
    Failure m t pc (.cjmp cond reg operand target) x ∧ m' = m := by
  unfold executeCjmp at failed
  split at failed
  · cases failed
    exact ⟨.condition _ _ _ _, rfl⟩
  · cases failed

theorem executeLoad_failure {id : UInt16} {x : RuntimeError}
    (failed : (executeLoad h s id).1 = .error x) : Failure m t pc (.loadres id) x := by
  unfold executeLoad at failed
  split at failed
  · cases failed
    exact .resource id _
  · split at failed
    · cases failed
    · split at failed
      · cases failed
      · cases failed

/-- **Every failure has one of these causes, and the machine is left as it was found.** -/
theorem execute_eq_error {x : RuntimeError}
    (failed : (execute h m s t pc i next).2 = .error x m') : Failure m t pc i x ∧ m' = m := by
  cases i with
  | call target => exact executeCall_eq_error failed
  | ret => exact executeRet_eq_error failed
  | init index target => exact executeInit_eq_error failed
  | reset first last mode => exact executeReset_eq_error failed
  | cjmp cond reg operand target =>
    simp only [execute] at failed
    split at failed
    · cases failed
    · exact executeCjmp_eq_error failed
  | loadres id =>
    simp only [execute] at failed
    split at failed
    · cases failed
    · next x' s' loaded =>
      cases failed
      exact ⟨executeLoad_failure (h := h) (s := s) (by rw [loaded]), rfl⟩
  | invalid code =>
    cases failed
    exact ⟨.opcode code, rfl⟩
  | _ => cases failed

end Execute

end Machine

end Cinematic
