import Cinematic.Bytecode.Instruction
import Cinematic.Log.Entry
import Cinematic.Machine.Thread

/-!
# Hosts

The machine draws nothing, plays nothing and loads nothing itself. It hands the decoded operands
of every such instruction to its **host**, and asks it what it knows about a resource before it
uses one. A host also watches: it is shown every step of a pass, and it is told what goes into
the log.

A host is a record of functions on a state of the host's own (`Cinematic.Host`). Loading is the
only request that may fail, and a host may change its state even then.
-/

namespace Cinematic

open Bytecode (Instruction PolygonSet)

/-- What the machine asks a host to show or to play. -/
inductive HostCall where
  | selectPalette (palette : UInt8)
  /-- Draws to another page from here on. -/
  | selectPage (page : UInt8)
  | fillPage (page color : UInt8)
  /-- Copies a page onto another, shifted by a number of rows. -/
  | copyPage (dst src : UInt8) (scrollY : Int16)
  /-- Shows a page on screen. -/
  | blitPage (page : UInt8)
  | drawString (string : UInt16) (x y color : UInt8)
  | drawPolygons (shapes : PolygonSet) (offset : UInt16) (x y : Int16) (zoom : UInt16)
  /-- Makes a picture that has just been loaded the background. -/
  | drawBitmap (resource : UInt16)
  | playSound (id : UInt16) (channel volume frequency : UInt8)
  | playMusic (id : UInt16) (position : UInt8) (delay : UInt16)
  /-- Changes the position or the tempo of the music that plays; zero changes nothing. -/
  | adjustMusic (position : UInt8) (delay : UInt16)
  | stopMusic
deriving Repr, DecidableEq

/-- The name of a call, by which calls are counted. -/
def HostCall.name : HostCall → String
  | selectPalette _ => "select_palette"
  | selectPage _ => "select_page"
  | fillPage _ _ => "fill_page"
  | copyPage _ _ _ => "copy_page"
  | blitPage _ => "blit_page"
  | drawString _ _ _ _ => "draw_string"
  | drawPolygons _ _ _ _ _ => "draw_polygons"
  | drawBitmap _ => "draw_bitmap"
  | playSound _ _ _ _ => "play_sound"
  | playMusic _ _ _ => "play_music"
  | adjustMusic _ _ => "adjust_music"
  | stopMusic => "stop_music"

/-- The names of all calls in alphabetical order. -/
def HostCall.names : List String :=
  ["adjust_music", "blit_page", "copy_page", "draw_bitmap", "draw_polygons", "draw_string",
   "fill_page", "play_music", "play_sound", "select_page", "select_palette", "stop_music"]

/-- A step of a pass, as it is shown to a host. -/
inductive TraceEvent where
  /-- A pass begins; so many have begun before it. -/
  | pass (number : Nat)
  /-- A thread begins its slice at a place. -/
  | slice (thread : Fin threadCount) (pc : UInt16)
  /-- A thread is about to execute the instruction at a place. -/
  | instruction (thread : Fin threadCount) (pc : UInt16) (i : Instruction)
  /-- A thread has ended its slice and will go on at a place. -/
  | yielded (thread : Fin threadCount) (pc : UInt16)
deriving Repr, DecidableEq

/-- **What the machine needs from its surroundings.** -/
structure Host (σ : Type) where
  /-- What is known about a resource, if there is one with the id. -/
  resource? : σ → UInt16 → Option Resource.Descriptor
  /-- Loads a resource or notes that a part is wanted; the text says why it failed. -/
  load : σ → UInt16 → Except String Unit × σ
  /-- Shows or plays something. -/
  call : σ → HostCall → σ
  /-- Sees a step of a pass. -/
  observe : σ → TraceEvent → σ
  /-- Is told what goes into the log. -/
  note : σ → Log.Entry → σ
  /-- The clock, in milliseconds. -/
  ticks : σ → UInt32

end Cinematic
