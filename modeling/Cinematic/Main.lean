import Cinematic.CommandLine.Help
import Cinematic.CommandLine.Outcome
import Cinematic.CommandLine.Reach

/-!
# The program

The program fetches the files that a command may touch, carries the command out on them, writes
back what has changed, and prints what is to be seen. All decisions are made by
`Cinematic.CommandLine.Invocation.report`.
-/

namespace Cinematic.Main

open CommandLine

/-- What stands at a place on the disk; what cannot be read counts as absent. -/
def fetch (place : FileTree.Place) : IO (Option FileTree.Node) := do
  let path := (← IO.currentDir) / place.path
  try
    if ← path.isDir then return some .directory
    else return some (.file (← IO.FS.readBinFile path).data)
  catch _ => return none

/-- The tree of some places on the disk. -/
def fetchAll (places : List FileTree.Place) : IO FileTree :=
  places.foldlM (fun tree place => do
    match ← fetch place with
    | some node => return tree.put place node
    | none => return tree) .empty

/-- Writes to the disk what differs between two trees, directories before what is in them. -/
def save (before after : FileTree) : IO Unit :=
  for (place, node) in (FileTree.changedNodes before after).reverse do
    match node with
    | .directory => IO.FS.createDirAll place.path
    | .file content => IO.FS.writeBinFile place.path ⟨content⟩

/-- Carries an invocation out on the disk. -/
def carryOut (i : Invocation) : IO UInt32 := do
  let out ← IO.getStdout
  let err ← IO.getStderr
  let terminal := (← out.isTty) && (← err.isTty)
  let around : Surroundings :=
    ⟨terminal, (← IO.monoMsNow).toUInt16, ← IO.getEnv "CINEMATIC_LOG"⟩
  let files ← fetchAll i.command.places
  let report := i.report around files
  err.putStr report.errorText
  try
    save files report.files
  catch e =>
    err.putStrLn ("error: " ++ toString e)
    return 1
  out.putStr report.output
  out.flush
  return report.status.toUInt32

/-- Answers a command line that is not understood. -/
def refuse (e : UsageError) : IO UInt32 := do
  let channel ← if e.status = 0 then IO.getStdout else IO.getStderr
  e.lines.forM channel.putStrLn
  return e.status.toUInt32

end Cinematic.Main

/-- Runs the command that the arguments ask for. -/
def main (args : List String) : IO UInt32 :=
  match Cinematic.CommandLine.parse args with
  | .ok i => Cinematic.Main.carryOut i
  | .error e => Cinematic.Main.refuse e
