import Cinematic.Host.Recorder
import Cinematic.Host.Trace

/-!
# A host without files

To try out a piece of bytecode one needs no game: a **rehearsal** is a host that holds a table of
resources without data, and that was told for each of them what becomes of a request to load
it. Whatever it is asked to show or play it records.

Ids outside its table are those of parts, which a rehearsal always grants, or of nothing.
-/

namespace Cinematic

/-- What becomes of a request to load a resource. -/
inductive LoadReply where
  /-- The resource is loaded. -/
  | load
  /-- The request is granted, but nothing happens. -/
  | stay
  /-- The request fails. -/
  | fail
deriving Repr, DecidableEq

/-- A resource of a rehearsal. -/
structure StagedResource where
  /-- The id of the resource. -/
  id : UInt16
  /-- What is known about it. -/
  descriptor : Resource.Descriptor
  /-- What becomes of a request to load it. -/
  reply : LoadReply
deriving Repr, DecidableEq

/-- The state of a rehearsal. -/
structure Rehearsal where
  /-- The resources; an id belongs to the first one that has it. -/
  resources : List StagedResource
  /-- The ids that were asked for, in order. -/
  loads : Array UInt16
  /-- What was shown and played. -/
  recorder : Recorder
  /-- What went into the log. -/
  log : Array Log.Entry
  /-- Where the steps of a pass are written down. -/
  tracing : Tracing
  /-- The clock. -/
  now : UInt32

namespace Rehearsal

/-- A rehearsal in which nothing has happened. -/
def start (resources : List StagedResource) : Rehearsal := ⟨resources, #[], .empty, #[], .off, 0⟩

/-- The resource with an id. -/
def find? (r : Rehearsal) (id : UInt16) : Option StagedResource :=
  r.resources.find? (·.id == id)

/-- The rehearsal with the resources of an id loaded. -/
def markLoaded (r : Rehearsal) (id : UInt16) : Rehearsal :=
  { r with resources := r.resources.map fun s =>
      if s.id = id then { s with descriptor := { s.descriptor with state := .loaded } } else s }

/-- Answers a request to load a resource; the request is noted first. -/
def load (r : Rehearsal) (id : UInt16) : Except String Unit × Rehearsal :=
  let r := { r with loads := r.loads.push id }
  match r.find? id with
  | some s =>
    match s.reply with
    | .load => (.ok (), r.markLoaded id)
    | .stay => (.ok (), r)
    | .fail => (.error ("load of " ++ Text.hexMarked 2 id.toNat ++ " failed"), r)
  | none =>
    if Part.isId id then (.ok (), r)
    else (.error ("no resource " ++ Text.hexMarked 2 id.toNat), r)

/-- Writes a step down. -/
def observe (r : Rehearsal) (e : TraceEvent) : Rehearsal :=
  match r with
  | ⟨resources, loads, recorder, log, tracing, now⟩ =>
    let (tracing, log) := tracing.observe log e
    ⟨resources, loads, recorder, log, tracing, now⟩

/-- **The host of a rehearsal.** -/
def host : Host Rehearsal where
  resource? r id := (r.find? id).map (·.descriptor)
  load := load
  call r c := { r with recorder := r.recorder.record c }
  observe := observe
  note r e := { r with log := r.log.push e }
  ticks r := r.now

end Rehearsal

end Cinematic
