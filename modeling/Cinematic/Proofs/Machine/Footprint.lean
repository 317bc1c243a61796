import Cinematic.Proofs.Machine.Media
import Cinematic.Proofs.Machine.Rest

/-!
# What an instruction touches

What one instruction can change is little, and can be read off the instruction
(`Cinematic.Machine.Footprint`). It writes the register that it names as its destination; only the
check of the code wheel, where it is answered for the player, writes six. A call puts one address
onto the stack and a return takes one off. Of a thread no more than **one request** changes, and only
if the thread is addressed. Everything else stays what it was, whether the instruction is completed
or fails.

What a host is asked to do is as little: nothing, or one thing to show or to play; and where
something is to be loaded, the loading and perhaps a new background (`Cinematic.Asks`). That the
host is asked for no more is told by the minutes that it takes. Both are said of one instruction in
`Cinematic.Machine.execute_confined`.

A footprint is a bound from above. The one place where it is not enough is a range of threads, which
is asked **as a whole or not at all** and may be empty: that is part of the footprint, too.

Footprints of instructions add up to the footprint of a pass, even of one that fails:

| footprint | of an instruction | of a pass |
|---|---|---|
| registers | `Cinematic.Execution.after_registers` | `Cinematic.Machine.step_registers` |
| requests to the host | `Cinematic.Machine.execute_asks` | `Cinematic.Machine.step_asks` |
-/

namespace Cinematic

open Bytecode

/-! ### Requests to the host -/

namespace Bytecode.Instruction

/-- Whether the instruction asks its host to do something, whatever the host knows. -/
def insists : Instruction → Bool
  | palette _ | page _ | fill _ _ | copy _ _ | blit _ | print _ _ _ _ | poly _ _ _ _ _ _ => true
  | loadres _ => true
  | _ => false

/-- **The calls that an instruction can make.** Every call belongs to one kind of instruction. The
background is missing here, because it comes after something else has been asked. -/
inductive MayCall : Instruction → HostCall → Prop
  | palette (w : UInt16) (palette : UInt8) : MayCall (.palette w) (.selectPalette palette)
  | page (n : UInt8) : MayCall (.page n) (.selectPage n)
  | fill (n color : UInt8) : MayCall (.fill n color) (.fillPage n color)
  | copy (src dst : UInt8) (scrollY : Int16) : MayCall (.copy src dst) (.copyPage dst src scrollY)
  | blit (n : UInt8) : MayCall (.blit n) (.blitPage n)
  | print (string : UInt16) (x y color : UInt8) :
    MayCall (.print string x y color) (.drawString string x y color)
  | poly (code : UInt8) (offset : UInt16) (x y : Coordinate) (zoom : Zoom) (shapes : PolygonSet)
    (left top : Int16) (scale : UInt16) :
    MayCall (.poly code offset x y zoom shapes) (.drawPolygons shapes offset left top scale)
  | sound (id : UInt16) (frequency volume channel : UInt8) :
    MayCall (.sound id frequency volume channel) (.playSound id channel volume frequency)
  | play (id delay : UInt16) (position : UInt8) :
    MayCall (.music id delay position) (.playMusic id position delay)
  | adjust (id delay : UInt16) (position : UInt8) :
    MayCall (.music id delay position) (.adjustMusic position delay)
  | stop (id delay : UInt16) (position : UInt8) : MayCall (.music id delay position) .stopMusic

end Bytecode.Instruction

/-- Whether the message asks the host to do something. -/
def Message.isRequest : Message → Bool
  | call _ | load _ => true
  | step _ | note _ => false

/-- What messages ask the host to do. -/
def requestsOf (told : List Message) : List Message := told.filter Message.isRequest

@[simp] theorem requestsOf_append (told later : List Message) :
    requestsOf (told ++ later) = requestsOf told ++ requestsOf later :=
  List.filter_append told later

/-- **What an instruction may ask its host to do**, in the order of time. -/
inductive Asks : Instruction → List Message → Prop
  /-- Nothing, unless it draws or loads. -/
  | nothing {i : Instruction} (quiet : i.insists = false) : Asks i []
  /-- One thing to show or to play. -/
  | call {i : Instruction} {c : HostCall} (own : i.MayCall c) : Asks i [.call c]
  | load (id : UInt16) : Asks (.loadres id) [.load id]
  /-- What has been loaded becomes the background. -/
  | background (id : UInt16) : Asks (.loadres id) [.load id, .call (.drawBitmap id)]

theorem Asks.length_le {i : Instruction} {asked : List Message} (asks : Asks i asked) :
    asked.length ≤ 2 := by
  cases asks with
  | nothing | call | load => exact Nat.le_add_left _ _
  | background => exact Nat.le_refl 2

namespace Machine

section Asks

variable {σ : Type} (h : Host σ) (s : σ × List Message)

theorem executeSound_asks (id : UInt16) (frequency volume channel : UInt8) :
    ∃ told, (executeSound h.transcribed s id frequency volume channel).2 = s.2 ++ told ∧
      Asks (.sound id frequency volume channel) (requestsOf told) := by
  rcases executeSound_spec h.transcribed s id frequency volume channel with
    ⟨-, played⟩ | ⟨-, e, passed⟩
  · rw [played]
    exact ⟨_, rfl, .call (.sound id frequency volume channel)⟩
  · rw [passed]
    exact ⟨_, rfl, .nothing rfl⟩

theorem executeMusic_asks (id delay : UInt16) (position : UInt8) :
    ∃ told, (executeMusic h.transcribed s id delay position).2 = s.2 ++ told ∧
      Asks (.music id delay position) (requestsOf told) := by
  by_cases current : id = 0 ∨ id = 0xffff
  · rw [executeMusic_of_current h.transcribed s current]
    refine ⟨_, rfl, .call ?_⟩
    split
    · exact .stop id delay position
    · exact .adjust id delay position
  · rcases executeMusic_spec h.transcribed s current delay position with ⟨-, played⟩ | ⟨-, e, passed⟩
    · rw [played]
      exact ⟨_, rfl, .call (.play id delay position)⟩
    · rw [passed]
      exact ⟨_, rfl, .nothing rfl⟩

theorem executeLoad_asks (id : UInt16) :
    ∃ told, (executeLoad h.transcribed s id).2.2 = s.2 ++ told ∧
      Asks (.loadres id) (requestsOf told) := by
  have loads : h.transcribed.load s id
      = ((h.load s.1 id).1, (h.load s.1 id).2, s.2 ++ [.load id]) := rfl
  rw [executeLoad, loads]
  cases (h.load s.1 id).1 with
  | error cause => exact ⟨_, rfl, .load id⟩
  | ok _ =>
    dsimp only
    split
    · -- a part is wanted, which is only told
      exact ⟨[.load id, .note (Log.partRequested id)], List.append_assoc _ _ _, .load id⟩
    · split
      · exact ⟨[.load id, .call (.drawBitmap id)], List.append_assoc _ _ _, .background id⟩
      · exact ⟨_, rfl, .load id⟩

/-- **An instruction asks its host for little**: nothing that is not its own, and that once. -/
theorem execute_asks (m : Machine) (t : Fin threadCount) (pc : UInt16) (i : Instruction)
    (next : Nat) :
    ∃ told, (execute h.transcribed m s t pc i next).1.2 = s.2 ++ told ∧
      Asks i (requestsOf told) := by
  have silent : s.2 = s.2 ++ [] := (List.append_nil _).symm
  cases i with
  | sound id frequency volume channel => exact executeSound_asks h s id frequency volume channel
  | music id delay position => exact executeMusic_asks h s id delay position
  | loadres id =>
    have loaded := executeLoad_asks h s id
    simp only [execute]
    generalize executeLoad h.transcribed s id = answer at loaded ⊢
    obtain ⟨result, s'⟩ := answer
    cases result with
    | error x => exact loaded
    | ok _ => exact loaded
  | cjmp cond reg operand target =>
    simp only [execute]
    split
    · exact ⟨[.note Log.protectionBypassed], rfl, .nothing rfl⟩
    · exact ⟨[], silent, .nothing rfl⟩
  | palette w => exact ⟨_, rfl, .call (.palette w _)⟩
  | page n => exact ⟨_, rfl, .call (.page n)⟩
  | fill n color => exact ⟨_, rfl, .call (.fill n color)⟩
  | copy src dst => exact ⟨_, rfl, .call (.copy src dst _)⟩
  | blit n => exact ⟨_, rfl, .call (.blit n)⟩
  | print string x y color => exact ⟨_, rfl, .call (.print string x y color)⟩
  | poly code offset x y zoom shapes =>
    exact ⟨_, rfl, .call (.poly code offset x y zoom shapes _ _ _)⟩
  | _ => exact ⟨[], silent, .nothing rfl⟩

end Asks

/-! ### Registers -/

/-- The registers into which the code wheel is answered. -/
def codeWheelRegisters : List UInt8 := [0x29, 0x2a, 0x2b, 0x2c, 0x32, 0x64]

/-- **The registers that an instruction writes**, if it is completed. -/
def destinations (m : Machine) : Instruction → List UInt8
  | .immediate _ dst _ | .register _ dst _ => [dst]
  | .djnz reg _ => [reg]
  | .cjmp cond reg operand _ => if m.bypasses cond reg operand then codeWheelRegisters else []
  | _ => []

end Machine

namespace RegisterFile

theorem get_update_of_ne (r : RegisterFile) {reg other : UInt8} (h : other ≠ reg)
    (f : UInt16 → UInt16) : (r.update reg f).get other = r.get other :=
  get_set_of_ne r h _

/-- Words are written into the registers that are listed, and into no others. -/
theorem get_setAll_of_not_mem (values : List (UInt8 × UInt16)) (r : RegisterFile) {other : UInt8}
    (h : other ∉ values.map Prod.fst) : (r.setAll values).get other = r.get other := by
  induction values generalizing r with
  | nil => rfl
  | cons value values ih =>
    obtain ⟨here, later⟩ := not_or.1 (mt List.mem_cons.2 h)
    calc (r.setAll (value :: values)).get other
        = (r.set value.1 value.2).get other := ih _ later
      _ = r.get other := get_set_of_ne r here value.2

end RegisterFile

namespace Machine

variable {σ : Type} {h : Host σ} {m m' : Machine} {s : σ} {t : Fin threadCount} {pc : UInt16}
  {i : Instruction} {next resume : Nat}

/-- **An instruction writes no register but its destinations.** -/
theorem execute_registers (done : (execute h m s t pc i next).2 = .ok resume m') {r : UInt8}
    (other : r ∉ m.destinations i) : m'.registers.get r = m.registers.get r := by
  cases i with
  | immediate op dst imm =>
    cases done
    exact RegisterFile.get_update_of_ne _ (List.ne_of_not_mem_cons other) _
  | register op dst src =>
    cases done
    exact RegisterFile.get_update_of_ne _ (List.ne_of_not_mem_cons other) _
  | djnz reg target =>
    cases done
    exact RegisterFile.get_update_of_ne _ (List.ne_of_not_mem_cons other) _
  | cjmp cond reg operand target =>
    simp only [execute] at done
    simp only [destinations] at other
    split at done
    · next bypassed =>
      cases done
      rw [if_pos bypassed] at other
      exact RegisterFile.get_setAll_of_not_mem _ _ other
    · rw [executeCjmp_eq_ok done]
  | call target =>
    obtain ⟨_, -, rfl, -⟩ := executeCall_eq_ok done
    rfl
  | ret =>
    obtain ⟨_, _, -, rfl, -⟩ := executeRet_eq_ok done
    rfl
  | init index target =>
    obtain ⟨_, rfl, -⟩ := executeInit_eq_ok done
    rfl
  | reset first last mode =>
    rcases executeReset_eq_ok done with ⟨⟨-, rfl⟩ | rfl, -⟩
    · rfl
    · rfl
  | loadres id =>
    simp only [execute] at done
    split at done
    · cases done
      rfl
    · cases done
  | invalid code => cases done
  | _ =>
    cases done
    rfl

/-! ### Footprints -/

/-- **What can become of the stack.** -/
inductive StackChange : Instruction → CallStack → CallStack → Prop
  | none {i : Instruction} {stack : CallStack} : StackChange i stack stack
  | push (target : UInt16) {address : UInt16} {stack stack' : CallStack}
    (pushed : stack'.toList = stack.toList ++ [address]) :
    StackChange (.call target) stack stack'
  | pop {address : UInt16} {stack stack' : CallStack}
    (popped : stack.toList = stack'.toList ++ [address]) : StackChange .ret stack stack'

/-- **What can become of a thread**: one of the requests to it is another. -/
inductive ThreadChange (j : Fin threadCount) (t : Thread) : Instruction → Thread → Prop
  | none {i : Instruction} : ThreadChange j t i t
  | start {index : UInt8} (addressed : index.toNat = j) (target : UInt16) :
    ThreadChange j t (.init index target) { t with requestedPc := target }
  | halt {first last : UInt8} (inside : first.toNat ≤ j ∧ j ≤ last.toNat) :
    ThreadChange j t (.reset first last .halt) { t with requestedPc := Thread.haltRequest }
  | resume {first last : UInt8} (inside : first.toNat ≤ j ∧ j ≤ last.toNat) :
    ThreadChange j t (.reset first last .resume) { t with requestedActivity := .running }
  | pause {first last : UInt8} (inside : first.toNat ≤ j ∧ j ≤ last.toNat) :
    ThreadChange j t (.reset first last .pause) { t with requestedActivity := .paused }

/-- The machine that an instruction leaves, be it completed or not. The pass goes on with it
(`Cinematic.Execution.after_eq_left`). -/
def Ended.left : Ended → Machine
  | .ok _ m | .error _ m => m

/-- **The footprint of an instruction** that is followed by `next`. -/
structure Footprint (i : Instruction) (next : Nat) (m : Machine) (ended : Ended) : Prop where
  /-- All else is kept. -/
  kept : ended.left = { m with
    registers := ended.left.registers
    threads := ended.left.threads
    stack := ended.left.stack }
  registers {r : UInt8} (other : r ∉ m.destinations i) :
    ended.left.registers.get r = m.registers.get r
  stack : StackChange i m.stack ended.left.stack
  threads (j : Fin threadCount) : ThreadChange j (m.thread j) i (ended.left.thread j)
  /-- A range of threads is asked as a whole, if it is asked at all. -/
  whole {first last : UInt8} {mode : ResetMode} (reset : i = .reset first last mode)
    {m' : Machine} {resume : Nat} (done : ended = .ok resume m') {j : Fin threadCount}
    (inside : first.toNat ≤ j ∧ j ≤ last.toNat) :
    m'.thread j = Machine.request mode (m.thread j)
  /-- A range that ends before it begins is empty, and its ends need not be threads. -/
  empty {first last : UInt8} {mode : ResetMode} (reset : i = .reset first last mode)
    (known : ∀ code, mode ≠ .invalid code) (ends : last < first) : ended = .ok next m
  /-- What fails has changed nothing. -/
  failed {x : RuntimeError} {m' : Machine} (fails : ended = .error x m') : m' = m

theorem StackEffect.change {stack stack' : CallStack}
    (effect : StackEffect i next resume stack stack') : StackChange i stack stack' := by
  cases i with
  | call target => exact .push target effect
  | ret =>
    obtain ⟨address, popped, -⟩ := effect
    exact .pop popped
  | _ =>
    obtain rfl : stack' = stack := effect
    exact .none

/-- **What an instruction requests of a thread is one thing at most.** -/
theorem threadChange_noting (i : Instruction) (j : Fin threadCount) (t : Thread) :
    ThreadChange j t i (t.noting (i.placeRequest? j) (i.activityRequest? j)) := by
  cases i with
  | init index target =>
    by_cases addressed : index.toNat = j
    · simp only [Instruction.placeRequest?, if_pos addressed]
      exact .start addressed target
    · simp only [Instruction.placeRequest?, if_neg addressed]
      exact .none
  | reset first last mode =>
    by_cases inside : first.toNat ≤ j ∧ j ≤ last.toNat
    · simp only [Instruction.placeRequest?, Instruction.activityRequest?, if_pos inside]
      cases mode with
      | resume => exact .resume inside
      | pause => exact .pause inside
      | halt => exact .halt inside
      | invalid code => exact .none
    · simp only [Instruction.placeRequest?, Instruction.activityRequest?, if_neg inside]
      exact .none
  | _ => exact .none

/-- A range of threads that ends before it begins is empty. -/
theorem executeReset_of_lt {first last : UInt8} {mode : ResetMode}
    (known : ∀ code, mode ≠ .invalid code) (ends : last < first) :
    m.executeReset t pc first last mode next = .ok next m := by
  cases mode with
  | invalid code => exact absurd rfl (known code)
  | _ => exact if_pos ends

/-- **Every instruction keeps within its footprint.** -/
theorem execute_footprint (h : Host σ) (m : Machine) (s : σ) (t : Fin threadCount) (pc : UInt16)
    (i : Instruction) (next : Nat) : Footprint i next m (execute h m s t pc i next).2 := by
  have empty {first last : UInt8} {mode : ResetMode} (reset : i = .reset first last mode)
      (known : ∀ code, mode ≠ .invalid code) (ends : last < first) :
      (execute h m s t pc i next).2 = .ok next m := by
    rw [reset, execute, executeReset_of_lt known ends]
  cases result : (execute h m s t pc i next).2 with
  | error x m' =>
    obtain ⟨-, rfl⟩ := execute_eq_error result
    refine ⟨rfl, fun _ => rfl, .none, fun _ => .none, ?_, ?_, ?_⟩
    · intro _ _ _ _ _ _ done
      cases done
    · rw [← result]
      exact empty
    · rintro _ _ ⟨⟩
      rfl
  | ok resume m' =>
    have effect := execute_effect result
    refine ⟨effect.kept, execute_registers result, effect.stack.change, fun j => ?_, ?_, ?_, ?_⟩
    · have noted := threadChange_noting i j (m.thread j)
      rw [← effect.threads] at noted
      exact noted
    · rintro first last mode rfl _ _ ⟨⟩ j inside
      rw [effect.threads, request_eq_noting, Instruction.placeRequest?,
        Instruction.activityRequest?, if_pos inside, if_pos inside]
    · rw [← result]
      exact empty
    · intro _ _ fails
      cases fails

/-- **An instruction is confined to its footprint, in the machine and in its host.** In the machine
that it leaves, be it completed or not, no registers have changed but its destinations, nothing of
the stack but the address that a call adds or a return takes off, and of a thread nothing but one
request to it, if the instruction addresses it; nor has anything else changed. Its host is asked for
one thing at most that is the instruction's own, and where something is to be loaded, for the loading
and perhaps the background after it. -/
theorem execute_confined (h : Host σ) (m : Machine) (s : σ) (t : Fin threadCount) (pc : UInt16)
    (i : Instruction) (next : Nat) :
    Footprint i next m (execute h m s t pc i next).2 ∧
      ∃ told, execute h.transcribed m (s, []) t pc i next
          = (((execute h m s t pc i next).1, told), (execute h m s t pc i next).2) ∧
        Asks i (requestsOf told) := by
  refine ⟨execute_footprint h m s t pc i next, ?_⟩
  obtain ⟨outcome, host⟩ := execute_alike h.alike_transcribed.toAnswers
    (show s = (s, ([] : List Message)).1 from rfl) m t pc i next
  obtain ⟨told, minutes, asks⟩ := execute_asks h (s, []) m t pc i next
  rw [List.nil_append] at minutes
  refine ⟨told, ?_, asks⟩
  rw [outcome, host, ← minutes]

/-- A picture that is loaded becomes the background; and threads that do not exist are halted without
complaint, because the range of them is empty. -/
theorem execute_confined_background :
    let m := powerOn .standard 0
    let r := Rehearsal.start [⟨7, ⟨.bitmap, .notNeeded, 4⟩, .load⟩]
    let t : Fin threadCount := ⟨0, by decide⟩
    (∃ told, (execute Rehearsal.host.transcribed m (r, []) t 0 (.loadres 7) 3).1.2 = told ∧
        requestsOf told = [.load 7, .call (.drawBitmap 7)] ∧
        Asks (.loadres 7) (requestsOf told)) ∧
      (execute Rehearsal.host m r t 0 (.reset 0x50 0x48 .halt) 4).2 = .ok 4 m := by
  intro m r t
  obtain ⟨-, told, minutes, asks⟩ := execute_confined Rehearsal.host m r t 0 (.loadres 7) 3
  obtain ⟨footprint, -⟩ := execute_confined Rehearsal.host m r t 0 (.reset 0x50 0x48 .halt) 4
  have told_eq : (execute Rehearsal.host.transcribed m (r, []) t 0 (.loadres 7) 3).1.2 = told := by
    rw [minutes]
  refine ⟨⟨told, told_eq, ?_, asks⟩, footprint.empty rfl nofun (by decide)⟩
  rw [← told_eq]
  decide +kernel

end Machine

/-! ### Passes -/

namespace Execution

/-- **An execution keeps within the footprint of its instruction.** -/
theorem footprint (e : Execution) :
    Machine.Footprint e.instruction e.next e.before e.outcome := by
  obtain ⟨σ, h, s, gives⟩ := e.executed
  rw [← gives]
  exact Machine.execute_footprint h e.before s e.thread e.pos.toUInt16 e.instruction e.next

/-- An execution leaves what its instruction leaves, but for the place of the thread. -/
theorem after_eq_left (e : Execution) :
    e.after = { e.outcome.left with threads := e.after.threads } := by
  rw [after]
  split
  · next result =>
    rw [result]
    rfl
  · next result =>
    rw [result]
    rfl

/-- **An execution writes no register but the destinations of its instruction.** -/
theorem after_registers (e : Execution) {r : UInt8}
    (other : r ∉ e.before.destinations e.instruction) :
    e.after.registers.get r = e.before.registers.get r := by
  rw [after_eq_left]
  exact e.footprint.registers other

/-- **What executions ask of a host**, one after the other. -/
inductive Asked : List Execution → List Message → Prop
  | nil : Asked [] []
  | cons {e : Execution} {es : List Execution} {now later : List Message}
    (asks : Asks e.instruction now) (others : Asked es later) : Asked (e :: es) (now ++ later)

namespace Asked

variable {e : Execution} {es es' : List Execution} {asked asked' : List Message}

theorem singleton (asks : Asks e.instruction asked) : Asked [e] asked := by
  have alone : Asked [e] (asked ++ []) := .cons asks .nil
  rwa [List.append_nil] at alone

theorem append (first : Asked es asked) (second : Asked es' asked') :
    Asked (es ++ es') (asked ++ asked') := by
  induction first with
  | nil => exact second
  | cons asks _ ih =>
    rw [List.append_assoc]
    exact .cons asks ih

/-- No instruction asks for more than two things. -/
theorem length_le (asked : Asked es asked') : asked'.length ≤ 2 * es.length := by
  induction asked with
  | nil => exact Nat.le_refl 0
  | cons asks _ ih =>
    have few := asks.length_le
    rw [List.length_append, List.length_cons]
    omega

end Asked

variable {σ : Type} {h : Host σ} {t : Fin threadCount} {m : Machine} {s s' : σ × List Message}
  {pos : Nat} {e : Execution}

theorem IsAt.asks (here : e.IsAt h.transcribed t m s pos s') :
    ∃ told, s'.2 = s.2 ++ told ∧ Asked [e] (requestsOf told) := by
  obtain ⟨told, minutes, asks⟩ := Machine.execute_asks h
    (h.transcribed.observe s (.instruction t pos.toUInt16 e.instruction)) m t pos.toUInt16
    e.instruction e.next
  rw [here.execute] at minutes
  -- that the instruction is shown asks for nothing
  exact ⟨.step (.instruction t pos.toUInt16 e.instruction) :: told,
    minutes.trans (List.append_assoc _ _ _), .singleton asks⟩

end Execution

namespace Machine

open Execution (Asked)

/-- A register that is no destination of any execution keeps its word. -/
theorem Course.registers {m m' : Machine} {es : List Execution} (course : Course m es m')
    {r : UInt8} (untouched : ∀ e ∈ es, r ∉ e.before.destinations e.instruction) :
    m'.registers.get r = m.registers.get r :=
  course.unchanged (·.registers.get r) fun e member => e.after_registers (untouched e member)

/-- **A pass leaves a register alone** into which no input is written, and which is no destination of
any instruction that it executes. -/
theorem step_registers {σ : Type} (h : Host σ) (m : Machine) (c : Controls) (s : σ) {r : UInt8}
    (quiet : r ∉ inputRegisters)
    (untouched : ∀ e ∈ executions h m c s, r ∉ e.before.destinations e.instruction) :
    (step h m c s).machine.registers.get r = m.registers.get r :=
  calc (step h m c s).machine.registers.get r
      = (m.commit c).registers.get r := (step_course h m c s).registers untouched
    _ = m.registers.get r := c.get_writeTo m.registers quiet

theorem piecewise_asked : Piecewise fun es told => Asked es (requestsOf told) where
  nil := .nil
  append first second := by
    rw [requestsOf_append]
    exact first.append second

section Asked

variable {σ : Type} (h : Host σ) (m : Machine) (c : Controls) (s : σ)

/-- **What a pass asks of its host is what its instructions ask**, one after the other. -/
theorem step_asks :
    Asked (executions h.transcribed m c (s, [])) (requestsOf (minutes h m c s)) := by
  obtain ⟨result, turns, -⟩ := step_turns h.transcribed m c (s, [])
  obtain ⟨told, all, asked⟩ :=
    turns.tells piecewise_asked Execution.IsAt.asks (fun _ _ => .nil) fun _ _ => .nil
  rw [minutes, all]
  exact asked

/-- **A pass has no more work for its host than twice its fuel.** -/
theorem length_requestsOf_minutes_le :
    (requestsOf (minutes h m c s)).length ≤ 2 * m.config.fuel.toNat := by
  obtain ⟨result, turns, -⟩ := step_turns h.transcribed m c (s, [])
  have asked := (step_asks h m c s).length_le
  have limited := turns.length_le
  omega

end Asked

end Machine

end Cinematic
