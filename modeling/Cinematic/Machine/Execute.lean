import Cinematic.Machine.Error
import Cinematic.Machine.State

/-!
# Executing one instruction

An instruction is executed for a thread. It begins at the thread's place and is followed by the
position `next`; executing it gives the machine afterwards and the position to go on at. The
position is a natural number and not an offset, because a thread that runs straight on through
a segment of more than 65536 bytes does not come back to its beginning.

An instruction that fails leaves machine and host as it has made them by then. The host may have
been asked to load something before the failure; the machine is as it was, because every check comes
before the change that it guards.
-/

namespace Cinematic

open Bytecode

namespace Machine

/-- **How an instruction ends**: with the position to go on at or with the reason why it fails, and in
either case with the machine that it leaves. -/
abbrev Ended := EStateM.Result RuntimeError Machine Nat

/-- What an instruction leaves behind: the host, and how it ends for the machine. -/
abbrev Executed (σ : Type) := σ × Ended

/-! ### Instructions that concern the machine alone -/

/-- The machine with one register changed. -/
def updateRegister (m : Machine) (reg : UInt8) (f : UInt16 → UInt16) : Machine :=
  { m with registers := m.registers.update reg f }

/-- Remembers where to return and goes on at the target. -/
def executeCall (m : Machine) (t : Fin threadCount) (pc target : UInt16) (next : Nat) : Ended :=
  match m.stack.push? next.toUInt16 with
  | some stack => .ok target.toNat { m with stack := stack }
  | none => .error (.stackOverflow t pc) m

/-- Goes on at the place remembered last. -/
def executeRet (m : Machine) (t : Fin threadCount) (pc : UInt16) : Ended :=
  match m.stack.pop? with
  | some (address, stack) => .ok address.toNat { m with stack := stack }
  | none => .error (.stackUnderflow t pc) m

/-- Counts a register down and goes on at the target unless it has become zero. -/
def executeDjnz (m : Machine) (reg : UInt8) (target : UInt16) (next : Nat) : Ended :=
  let m := m.updateRegister reg (· - 1)
  .ok (if m.registers.get reg ≠ 0 then target.toNat else next) m

/-- The word that a register is compared with. -/
def comparand (r : RegisterFile) : Comparand → Int16
  | .reg other => r.getSigned other
  | .word value => value.toInt16
  | .byte value => Int16.ofNat value.toNat

/-- Goes on at the target if the condition holds. -/
def executeCjmp (m : Machine) (t : Fin threadCount) (pc : UInt16) (cond : Condition) (reg : UInt8)
    (operand : Comparand) (target : UInt16) (next : Nat) : Ended :=
  match cond with
  | .undefined code => .error (.invalidCondition t pc code) m
  | _ =>
    let holds := cond.holds? (m.registers.getSigned reg) (comparand m.registers operand)
    .ok (if holds = some true then target.toNat else next) m

/-- Asks a thread to start at the target. -/
def executeInit (m : Machine) (t : Fin threadCount) (pc : UInt16) (index : UInt8)
    (target : UInt16) (next : Nat) : Ended :=
  if h : index.toNat < threadCount then
    let asked := { m.threads[index.toNat] with requestedPc := target }
    .ok next { m with threads := m.threads.set index.toNat asked h }
  else .error (.invalidThread t pc index) m

/-- The request that a mode of `reset` makes to a thread. -/
def request (mode : ResetMode) (t : Thread) : Thread :=
  match mode with
  | .resume => { t with requestedActivity := .running }
  | .pause => { t with requestedActivity := .paused }
  | .halt => { t with requestedPc := Thread.haltRequest }
  | .invalid _ => t

/-- **Makes a request to a range of threads.** A range that ends before it begins is empty, even if
its ends are no threads. -/
def executeReset (m : Machine) (t : Fin threadCount) (pc : UInt16) (first last : UInt8)
    (mode : ResetMode) (next : Nat) : Ended :=
  match mode with
  | .invalid code => .error (.invalidResetMode t pc code) m
  | _ =>
    if last < first then .ok next m
    else if threadCount ≤ first.toNat then .error (.invalidThread t pc first) m
    else if threadCount ≤ last.toNat then .error (.invalidThread t pc last) m
    else
      let ask (i : Nat) (thread : Thread) : Thread :=
        if first.toNat ≤ i ∧ i ≤ last.toNat then request mode thread else thread
      .ok next { m with threads := m.threads.mapIdx ask }

/-! ### The code-wheel screen -/

/-- Whether a conditional jump is the one that checks the first symbol of the code wheel, and is to
be answered for the player. -/
def bypasses (m : Machine) (cond : Condition) (reg : UInt8) (operand : Comparand) : Bool :=
  m.config.bypassProtection ∧ m.part = some Part.protectionId ∧ cond = .equal
    ∧ reg = Register.codeWheelInput ∧ operand = .reg Register.codeWheelAnswer

/-- The machine with the right answer given: the four symbols that are expected, and the two counters
that tell how many were entered. -/
def answerCodeWheel (m : Machine) : Machine :=
  let expected (i : UInt8) : UInt8 × UInt16 :=
    (Register.codeWheelInput + i, m.registers.get (Register.codeWheelAnswer + i))
  let answer := [0, 1, 2, 3].map expected ++ [(0x32, 0x06), (0x64, 0x14)]
  { m with registers := m.registers.setAll answer }

/-! ### Instructions that concern the host -/

/-- A coordinate of a drawing. -/
def coordinate (r : RegisterFile) : Coordinate → Int16
  | .imm value => value
  | .reg reg => r.getSigned reg

/-- The magnification of a drawing. -/
def magnification (r : RegisterFile) : Zoom → UInt16
  | .imm value => value
  | .reg reg => r.get reg

/-- Whether a resource can be played as a sound or as music; if not, the log says why. -/
def playable {σ : Type} (h : Host σ) (s : σ) (kind : Resource.Kind) (id : UInt16) : σ × Bool :=
  match h.resource? s id with
  | none => (h.note s (Log.resourceNotFound id), false)
  | some d =>
    if d.kind ≠ kind then (h.note s (Log.resourceMismatch id d.kind kind), false)
    else if d.isLoaded then (s, true)
    else (h.note s (Log.resourceNotLoaded id), false)

/-- Plays a sound if it can be played. -/
def executeSound {σ : Type} (h : Host σ) (s : σ) (id : UInt16) (frequency volume channel : UInt8) :
    σ :=
  match playable h s .sound id with
  | (s, true) => h.call s (.playSound id channel volume frequency)
  | (s, false) => s

/-- **Plays a music if it can be played.** Two ids name no music but the one that plays: it is adjusted,
or stopped if there is nothing to adjust. -/
def executeMusic {σ : Type} (h : Host σ) (s : σ) (id delay : UInt16) (position : UInt8) : σ :=
  if id = 0 ∨ id = 0xffff then
    if position ≠ 0 ∨ delay ≠ 0 then h.call s (.adjustMusic position delay)
    else h.call s .stopMusic
  else
    match playable h s .music id with
    | (s, true) => h.call s (.playMusic id position delay)
    | (s, false) => s

/-- Whether a resource is a picture whose data are in memory. -/
def isLoadedBitmap (d : Option Resource.Descriptor) : Bool :=
  match d with
  | some d => d.kind = .bitmap ∧ d.isLoaded
  | none => false

/-- **Loads a resource or asks for a part.** A picture that has been loaded becomes the background. -/
def executeLoad {σ : Type} (h : Host σ) (s : σ) (id : UInt16) : Except RuntimeError Unit × σ :=
  match h.load s id with
  | (.error cause, s) => (.error (.resource id cause), s)
  | (.ok (), s) =>
    if Part.isId id then (.ok (), h.note s (Log.partRequested id))
    else if isLoadedBitmap (h.resource? s id) then (.ok (), h.call s (.drawBitmap id))
    else (.ok (), s)

/-! ### All instructions -/

/-- **Executes an instruction** that begins at `pc` and is followed by `next`. -/
def execute {σ : Type} (h : Host σ) (m : Machine) (s : σ) (t : Fin threadCount) (pc : UInt16)
    (i : Instruction) (next : Nat) : Executed σ :=
  match i with
  | .immediate op dst imm => (s, .ok next (m.updateRegister dst (op.apply · imm)))
  | .register op dst src =>
    let other := m.registers.get src
    (s, .ok next (m.updateRegister dst (op.apply · other)))
  | .call target => (s, m.executeCall t pc target next)
  | .ret => (s, m.executeRet t pc)
  | .yield => (s, .ok next m)
  | .kill => (s, .ok Thread.noPc.toNat m)
  | .jump target => (s, .ok target.toNat m)
  | .djnz reg target => (s, m.executeDjnz reg target next)
  | .cjmp cond reg operand target =>
    if m.bypasses cond reg operand then
      (h.note s Log.protectionBypassed, .ok target.toNat m.answerCodeWheel)
    else (s, m.executeCjmp t pc cond reg operand target next)
  | .init index target => (s, m.executeInit t pc index target next)
  | .reset first last mode => (s, m.executeReset t pc first last mode next)
  | .palette w => (h.call s (.selectPalette (w >>> 8).toUInt8), .ok next m)
  | .page n => (h.call s (.selectPage n), .ok next m)
  | .fill n color => (h.call s (.fillPage n color), .ok next m)
  | .copy src dst =>
    (h.call s (.copyPage dst src (m.registers.getSigned Register.scrollY)), .ok next m)
  | .blit n => (h.call s (.blitPage n), .ok next m)
  | .print string x y color => (h.call s (.drawString string x y color), .ok next m)
  | .poly _ offset x y zoom shapes =>
    (h.call s (.drawPolygons shapes offset (coordinate m.registers x) (coordinate m.registers y)
      (magnification m.registers zoom)), .ok next m)
  | .sound id frequency volume channel =>
    (executeSound h s id frequency volume channel, .ok next m)
  | .music id delay position => (executeMusic h s id delay position, .ok next m)
  | .loadres id =>
    match executeLoad h s id with
    | (.ok (), s) => (s, .ok next m)
    | (.error e, s) => (s, .error e m)
  | .invalid code => (s, .error (.invalidOpcode t pc code) m)

end Machine

end Cinematic
