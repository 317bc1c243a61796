import Cinematic.Machine.Pass
import Cinematic.Session.Stage

/-!
# Sessions

A **session** plays the game without screen, loudspeaker or player: a machine, the stage that is
its host, and a record of the parts entered. A *frame* waits until the next pass is due, runs it,
and then enters the part that the pass has asked for, if it has asked for one; of several
requests in one pass the last counts.

Entering a part loads its resources and installs its bytecode, in this order, so that a part that
cannot be loaded leaves the machine where it was.
-/

namespace Cinematic

/-- Why a session cannot go on. -/
inductive SessionError where
  /-- Resources cannot be loaded. -/
  | store (cause : StoreError)
  /-- A pass has failed. -/
  | runtime (cause : RuntimeError)
deriving Repr, DecidableEq

/-- The wording of an error. -/
def SessionError.message : SessionError → String
  | store cause => cause.message
  | runtime cause => cause.message

/-- **A game that is being played.** -/
structure Session where
  /-- The machine. -/
  machine : Machine
  /-- The host of the machine. -/
  stage : Stage
  /-- How many passes have been completed. -/
  passes : Nat
  /-- The names of the parts entered, in order. -/
  parts : Array String

/-- A computation on a session. -/
abbrev Playing := EStateM SessionError Session

namespace Session

/-- A session that has entered no part. -/
def fresh (library : Library) (config : MachineConfig) (seed : UInt16) : Session :=
  ⟨.powerOn config seed, .ofLibrary library, 0, #[]⟩

/-- The session with another library. -/
def withLibrary (s : Session) (library : Library) : Session :=
  { s with stage := { s.stage with library := library } }

/-- The session with its steps written down in another way. -/
def withTracing (s : Session) (tracing : Tracing) : Session :=
  { s with stage := { s.stage with tracing := tracing } }

/-- Loads something in a session. -/
def loading {α : Type} (x : Loading α) : Playing α := fun s =>
  match x s.stage.library with
  | .ok a library => .ok a (s.withLibrary library)
  | .error e library => .error (.store e) (s.withLibrary library)

/-- Installs the bytecode of a loaded part. -/
def install (loaded : LoadedPart) : Playing Unit := do
  loading <| (Machine.enterNotes loaded.part loaded.bytecode).forM Library.note
  modify fun s =>
    { s with
      machine := s.machine.enterPart loaded.part loaded.bytecode
      parts := s.parts.push loaded.part.name }

/-- **Enters a part.** -/
def enterPart (id : UInt16) : Playing Unit := do
  let loaded ← loading (Library.loadPart id)
  install loaded

/-- Enters the part that has been asked for, if one has. -/
def switchPart : Playing Unit := do
  match ← loading Library.takeRequest with
  | none => pure ()
  | some id =>
    loading (Library.note (Log.switchingPart id (← get).passes))
    enterPart id

/-- Waits until a pass is due and runs it. -/
def pass : Playing Unit := fun ⟨machine, stage, passes, parts⟩ =>
  match Machine.run Stage.host machine .neutral (stage.waitUntil machine.nextDeadline) with
  | ⟨machine, _, stage, .ok ran⟩ =>
    .ok () ⟨machine, stage, if ran then passes + 1 else passes, parts⟩
  | ⟨machine, _, stage, .error e⟩ => .error (.runtime e) ⟨machine, stage, passes, parts⟩

/-- **One frame.** -/
def frame : Playing Unit := do
  pass
  switchPart

/-- Some frames one after the other. -/
def frames : Nat → Playing Unit
  | 0 => pure ()
  | n + 1 => do
    frame
    frames n

/-- A session that has entered its first part, or what is left of it if the part cannot be entered. -/
def start (library : Library) (config : MachineConfig) (seed part : UInt16) :
    EStateM.Result SessionError Session Unit :=
  enterPart part (fresh library config seed)

/-! ### Opening a session -/

/-- What a session is opened with. -/
structure Options where
  /-- The directory of the game. -/
  dir : String
  /-- The directory to which loaded resources are dumped, if they are. -/
  dumpDir : Option String
  /-- The part to begin with. -/
  part : UInt16
  /-- What the machine is built with. -/
  config : MachineConfig
deriving Repr, DecidableEq

/-- What comes of opening a session. -/
structure Opening where
  /-- The files afterwards. -/
  files : FileTree
  /-- What went into the log. -/
  log : Array Log.Entry
  /-- The session, or why there is none. -/
  session : Except SessionError Session

/-- Starts dumping if a directory is given. -/
def dumping : Option String → Loading Unit
  | some dir => Library.dumpTo dir
  | none => pure ()

/-- **Opens a session.** -/
def openWith (files : FileTree) (o : Options) (seed : UInt16) : Opening :=
  match Library.openDirectory files o.dir with
  | .error e => ⟨files, #[], .error (.store e)⟩
  | .ok library =>
    match dumping o.dumpDir library with
    | .error e library => ⟨library.files, library.log, .error (.store e)⟩
    | .ok _ library =>
      match start library o.config seed o.part with
      | .error e s => ⟨s.stage.library.files, s.stage.library.log, .error e⟩
      | .ok _ s => ⟨s.stage.library.files, s.stage.library.log, .ok s⟩

end Session

end Cinematic
