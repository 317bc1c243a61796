import Cinematic.CommandLine.Command

/-!
# What a command may touch

Commands are functions of a tree of files, and somebody has to fetch that tree from a disk. What
has to be fetched is known from the command alone: the memory list and the banks of its
directory, the file that it reads, and the places where it may write.
-/

namespace Cinematic.CommandLine

/-- The numbers of all banks. -/
def allBanks : List UInt8 := (List.range 256).map Nat.toUInt8

/-- The files that a store may read. -/
def storePaths (dir : String) : List String :=
  FileTree.join dir memoryListFile
    :: allBanks.map fun bank => FileTree.join dir (MemoryEntry.bankName bank)

/-- The files that a session may touch. -/
def gamePaths (game : Game) : List String :=
  storePaths game.options.dir ++ game.options.dumpDir.toList

/-- **The paths that a command may touch.** -/
def Command.paths : Command → List String
  | .memlist dir => storePaths dir
  | .unpack _ dir output => storePaths dir ++ output.toList
  | .pack input output => [input, output]
  | .dump (some input) _ _ _ => [input]
  | .dump none _ dir _ => storePaths dir
  | .run game _ _ _ => gamePaths game
  | .trace game _ _ _ => gamePaths game

/-- The places that a command may touch, and those on the way to them. -/
def Command.places (c : Command) : List FileTree.Place :=
  (c.paths.flatMap fun path => (FileTree.Route.ofPath path).places).eraseDups

end Cinematic.CommandLine
