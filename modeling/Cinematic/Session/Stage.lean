import Cinematic.Host.Recorder
import Cinematic.Host.Trace
import Cinematic.Store.Library

/-!
# The host of a session

A game that runs without a screen needs a host all the same. The **stage** answers for resources
from a library, records what is shown and played, and has a clock that stands still until
somebody sets it. Its log is that of its library, so that what the machine tells and what
loading tells stand in one order.
-/

namespace Cinematic

/-- The state of a session's host. -/
structure Stage where
  /-- The resources, the files and the log. -/
  library : Library
  /-- What was shown and played. -/
  recorder : Recorder
  /-- Where the steps of a pass are written down. -/
  tracing : Tracing
  /-- The clock, in milliseconds. -/
  now : UInt32

namespace Stage

/-- A stage on which nothing has happened. -/
def ofLibrary (library : Library) : Stage := ⟨library, .empty, .off, 0⟩

/-- Answers a request to load a resource or to note a part. -/
def load (s : Stage) (id : UInt16) : Except String Unit × Stage :=
  match Library.request id s.library with
  | .ok _ library => (.ok (), { s with library := library })
  | .error e library => (.error e.message, { s with library := library })

/-- Records something that is shown or played. -/
def call (s : Stage) (c : HostCall) : Stage :=
  match s with
  | ⟨library, recorder, tracing, now⟩ => ⟨library, recorder.record c, tracing, now⟩

/-- Writes a step down. -/
def observe (s : Stage) (e : TraceEvent) : Stage :=
  match s with
  | ⟨⟨store, files, log⟩, recorder, tracing, now⟩ =>
    let (tracing, log) := tracing.observe log e
    ⟨⟨store, files, log⟩, recorder, tracing, now⟩

/-- Puts an entry into the log. -/
def note (s : Stage) (e : Log.Entry) : Stage :=
  { s with library := { s.library with log := s.library.log.push e } }

/-- The stage with its clock put forward to a tick; it is never put back. -/
def waitUntil (s : Stage) (tick : UInt32) : Stage := { s with now := max s.now tick }

/-- **The host of a session.** -/
def host : Host Stage where
  resource? s id := s.library.store.resource? id
  load := load
  call := call
  observe := observe
  note := note
  ticks s := s.now

end Stage

end Cinematic
