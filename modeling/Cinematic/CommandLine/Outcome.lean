import Cinematic.Bytecode.Listing
import Cinematic.CommandLine.Command
import Cinematic.MemoryList.Totals
import Cinematic.Packing.Pack
import Cinematic.Session.Summary

/-!
# Carrying commands out

A command is a function of the files, of the random seed that is used if none was given, and of
whether a terminal shows what is printed. Its **outcome** is the files afterwards, the log, what
is printed, and the complaint with which it ends if it fails. A command that fails may have
printed and written something before.

Complaints have a status: 1 if a file, a bank or a resource is to blame, 2 if bytecode is, or the
packer.
-/

namespace Cinematic.CommandLine

/-- Why a command has failed. -/
structure Failure where
  /-- The exit status. -/
  status : Nat
  /-- The complaint. -/
  text : String
deriving Repr, DecidableEq

/-- What comes of a command. -/
structure Outcome where
  /-- The files afterwards. -/
  files : FileTree
  /-- What went into the log. -/
  log : Array Log.Entry
  /-- What is printed. -/
  output : String
  /-- Why the command has failed, if it has. -/
  failure : Option Failure

/-- What a command depends on besides its arguments and the files. -/
structure Surroundings where
  /-- Whether a terminal shows what is printed. -/
  terminal : Bool
  /-- The random seed that is used if none was given. -/
  seed : UInt16
  /-- The filter of the log that the environment asks for, if it does. -/
  logFilter : Option String
deriving Repr, DecidableEq

/-- The complaint about something that a file or the store is to blame for. -/
def complaint (message : String) : Failure := ⟨1, "error: " ++ message⟩

namespace Outcome

/-- The outcome of a command that has printed something. -/
def printed (files : FileTree) (log : Array Log.Entry) (output : String) : Outcome :=
  ⟨files, log, output, none⟩

/-- The outcome of a command that has failed without printing anything. -/
def failed (files : FileTree) (log : Array Log.Entry) (failure : Failure) : Outcome :=
  ⟨files, log, "", some failure⟩

end Outcome

/-- The complaint about a file that cannot be read or written. -/
def fileComplaint (verb path : String) (cause : OsError) : Failure :=
  complaint ("failed to " ++ verb ++ " '" ++ path ++ "': " ++ cause.message)

/-- Opens the store of a directory and does something with it. -/
def withLibrary (files : FileTree) (dir : String) (use : Library → Outcome) : Outcome :=
  match Library.openDirectory files dir with
  | .ok library => use library
  | .error e => .failed files #[] (complaint e.message)

/-- Writes a file and then says so. -/
def writeAndSay (files : FileTree) (log : Array Log.Entry) (path : String) (content : Bytes)
    (line : String) : Outcome :=
  match files.write path content with
  | .ok written => .printed written log (line ++ "\n")
  | .error cause => .failed files log (fileComplaint "write" path cause)

/-! ### The commands -/

/-- Lists the memory list of a directory. -/
def listMemory (files : FileTree) (dir : String) : Outcome :=
  withLibrary files dir fun library =>
    .printed files library.log library.store.list.listing

/-- The data of a resource, and the name of the file that they are dumped to. -/
def extract (id : UInt16) : Loading (Bytes × String) := do
  let e ← Library.entry id
  let data ← Library.read id
  pure (data, e.dumpName)

/-- Extracts a resource. -/
def unpackResource (files : FileTree) (id : UInt16) (dir : String) (output : Option String) :
    Outcome :=
  withLibrary files dir fun library =>
    match extract id library with
    | .error e library => .failed files library.log (complaint e.message)
    | .ok (data, name) library =>
      let path := output.getD name
      writeAndSay files library.log path data
        (Text.hexMarked 2 id.toNat ++ " -> " ++ path ++ " (" ++ toString data.size ++ " bytes)")

/-- The largest size of a resource, which the memory list keeps in sixteen bits. -/
def maxResourceSize : Nat := 65535

/-- What is told when data are packed and the result is checked: the block that was made, how it fared
when it was expanded in place to see whether it can be used, and once more when it is checked. -/
def packingNotes (data : Bytes) : Packing.Plan → List Log.Entry
  | .untried => []
  | .incompressible block => [Log.blockPacked data.size block.size]
  | .overrunning block =>
    [Log.blockPacked data.size block.size, Log.blockOverruns data.size block.size]
  | .packed block =>
    [Log.blockPacked data.size block.size, Log.blockUnpacked data.size,
      Log.blockUnpacked data.size]

/-- Packs some data, checks the result and writes it. -/
def packData (files : FileTree) (input output : String) (data : Bytes) : Outcome :=
  let plan := Packing.plan data
  let log := (packingNotes data plan).toArray
  let packed := plan.stored data
  match Packing.verify packed data with
  | .error e => .failed files log ⟨2, "error: packed data does not unpack: " ++ e.message⟩
  | .ok () =>
    let remark := if packed.size = data.size then " (stored)" else ""
    writeAndSay files log output packed
      (input ++ " -> " ++ output ++ ": " ++ toString data.size ++ " -> " ++ toString packed.size
        ++ " bytes" ++ remark)

/-- Packs a file. -/
def packFile (files : FileTree) (input output : String) : Outcome :=
  match files.read input with
  | .error cause => .failed files #[] (fileComplaint "read" input cause)
  | .ok data =>
    if maxResourceSize < data.size then
      .failed files #[] (complaint ("'" ++ input ++ "' is " ++ toString data.size
        ++ " bytes; bank resources hold at most " ++ toString maxResourceSize))
    else packData files input output data

/-- Lists the bytecode in a file. -/
def dumpFile (files : FileTree) (input : String) (palette : Text.Palette) : Outcome :=
  match files.read input with
  | .error cause => .failed files #[] (fileComplaint "read" input cause)
  | .ok segment => .printed files #[] (Bytecode.listing palette segment)

/-- Lists the bytecode of a part. -/
def dumpPart (files : FileTree) (dir : String) (part : UInt16) (palette : Text.Palette) :
    Outcome :=
  withLibrary files dir fun library =>
    match Library.loadPart part library with
    | .error e library => .failed files library.log (complaint e.message)
    | .ok loaded library =>
      .printed files library.log (Bytecode.listing palette loaded.bytecode)

/-- Opens a session and does something with it. -/
def withSession (files : FileTree) (game : Game) (seed : UInt16) (use : Session → Outcome) :
    Outcome :=
  let opening := Session.openWith files game.options (game.seed.getD seed)
  match opening.session with
  | .ok s => use s
  | .error e => .failed opening.files opening.log (complaint e.message)

/-- The outcome of a session that has come to its end. -/
def sessionOutcome (s : Session) (output : String) (failure : Option Failure) : Outcome :=
  ⟨s.stage.library.files, s.stage.library.log, output, failure⟩

/-- The complaint about a run that has failed. -/
def runFailure : SessionError → Failure
  | .runtime e => ⟨2, "error: " ++ e.message⟩
  | .store e => complaint e.message

/-- The complaint about a trace that has failed. -/
def traceFailure : SessionError → Failure
  | .runtime e => ⟨2, "runtime error: " ++ e.message⟩
  | .store e => complaint e.message

/-- The summary of a session, as it is printed. -/
def printedSummary (json : Bool) (s : Summary) : String :=
  if json then s.json.pretty ++ "\n" else s.text

/-- Runs some frames and summarizes them. -/
def runGame (files : FileTree) (game : Game) (seed : UInt16) (frames : UInt32)
    (json logSteps : Bool) : Outcome :=
  withSession files game seed fun s =>
    match Session.frames frames.toNat (s.withTracing (if logSteps then .log else .off)) with
    | .ok _ s => sessionOutcome s (printedSummary json s.summary) none
    | .error e s => sessionOutcome s "" (some (runFailure e))

/-- The sheet that the steps of a session were written down on, as it is printed. -/
def printedSheet (s : Session) : String :=
  match s.stage.tracing with
  | .sheet sheet => sheet.text
  | _ => ""

/-- Runs some frames and prints every step, also when they fail. -/
def traceGame (files : FileTree) (game : Game) (seed : UInt16) (frames : UInt32)
    (limit : Option Nat) (palette : Text.Palette) : Outcome :=
  withSession files game seed fun s =>
    match Session.frames frames.toNat (s.withTracing (.sheet (.empty palette limit))) with
    | .ok _ s => sessionOutcome s (printedSheet s) none
    | .error e s => sessionOutcome s (printedSheet s) (some (traceFailure e))

/-- **Carries a command out.** -/
def Command.outcome (c : Command) (around : Surroundings) (files : FileTree) : Outcome :=
  let palette (color : ColorChoice) : Text.Palette := .ofBool (color.colored around.terminal)
  match c with
  | .memlist dir => listMemory files dir
  | .unpack id dir output => unpackResource files id dir output
  | .pack input output => packFile files input output
  | .dump (some input) _ _ color => dumpFile files input (palette color)
  | .dump none part dir color => dumpPart files dir part (palette color)
  | .run game frames json logSteps => runGame files game around.seed frames json logSteps
  | .trace game frames limit color =>
    traceGame files game around.seed frames limit (palette color)

/-! ### What is seen of it -/

/-- What a command leaves to be seen. -/
structure Report where
  /-- The exit status. -/
  status : Nat
  /-- What is printed. -/
  output : String
  /-- The log and the complaint. -/
  errorText : String
  /-- The files afterwards. -/
  files : FileTree

/-- The filter of the log: that of the environment if it has a meaning, or else that of the flags. -/
def Invocation.filter (i : Invocation) (around : Surroundings) : Log.Filter :=
  (around.logFilter.bind Log.Filter.ofText?).getD i.verbosity.filter

/-- **Carries an invocation out.** -/
def Invocation.report (i : Invocation) (around : Surroundings) (files : FileTree) : Report :=
  let o := i.command.outcome around files
  { status := match o.failure with
      | some failure => failure.status
      | none => 0
    output := o.output
    errorText :=
      Text.unlines ((i.filter around).lines o.log ++ (o.failure.map Failure.text).toList)
    files := o.files }

end Cinematic.CommandLine
