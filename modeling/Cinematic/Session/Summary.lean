import Cinematic.Session.Basic
import Cinematic.Text.Json

/-!
# Summaries of a session

What a session did is told in a summary: the passes and the time they took, the pages shown, the
parts entered, how often each call was made, and what can be seen of the machine. It is written
for people as a list of lines, or as a JSON document with the same figures and all registers.
-/

namespace Cinematic

open Text (Json)

/-- What a session did. -/
structure Summary where
  /-- How many passes have been completed. -/
  passes : Nat
  /-- The clock, in milliseconds. -/
  elapsed : UInt32
  /-- How many pages were shown. -/
  frames : Nat
  /-- The names of the parts entered, in order. -/
  parts : List String
  /-- The calls made, counted by name. -/
  calls : List (String × Nat)
  /-- What can be seen of the machine. -/
  state : Machine.Snapshot

/-- What a session did. -/
def Session.summary (s : Session) : Summary where
  passes := s.passes
  elapsed := s.stage.now
  frames := s.stage.recorder.frames
  parts := s.parts.toList
  calls := s.stage.recorder.counts
  state := s.machine.snapshot

namespace Summary

/-- The line with the part that the machine is in, if it is one. -/
def currentLine (s : Summary) : List String :=
  match s.state.part.bind Part.ofId? with
  | some part => ["current  " ++ part.name ++ " (" ++ Text.hexMarked 4 part.id.toNat ++ ")"]
  | none => []

/-- The line of a call. -/
def callLine (name : String) (count : Nat) : String :=
  "  " ++ Text.padEnd 15 name ++ " " ++ Text.flushRight 6 count

/-- **The summary for people.** -/
def text (s : Summary) : String :=
  Text.unlines <|
    ["parts    " ++ " -> ".intercalate s.parts]
      ++ s.currentLine
      ++ ["passes   " ++ toString s.passes,
        "elapsed  " ++ toString s.elapsed.toNat ++ " ms",
        "frames   " ++ toString s.frames,
        "threads  " ++ toString s.state.threads.length,
        "calls"]
      ++ s.calls.map fun (name, count) => callLine name count

/-- A thread in the document. -/
def threadJson (t : Machine.ThreadSnapshot) : Json :=
  .object [("index", .number t.index), ("status", .text t.status.name),
    ("pc", .number t.pc.toNat), ("requested_pc", .number t.requestedPc.toNat)]

/-- The state of the machine in the document. -/
def stateJson (s : Machine.Snapshot) : Json :=
  .object
    [("part", match s.part with
      | some id => .number id.toNat
      | none => .null),
    ("registers", .array (s.registers.toList.map fun word => .number word.toNat)),
    ("stack_depth", .number s.stackDepth),
    ("threads", .array (s.threads.map threadJson))]

/-- **The summary as a document.** -/
def json (s : Summary) : Json :=
  .object
    [("passes", .number s.passes),
    ("elapsed_ms", .number s.elapsed.toNat),
    ("frames", .number s.frames),
    ("parts", .array (s.parts.map .text)),
    ("calls", .object (s.calls.map fun (name, count) => (name, .number count))),
    ("state", stateJson s.state)]

end Summary

end Cinematic
