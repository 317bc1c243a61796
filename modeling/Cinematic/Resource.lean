/-!
# Resources

Everything the game is made of – sounds, music, pictures, palettes, bytecode and polygons – is
a numbered **resource**. A table gives for each what kind of data it is and how far it has been
brought into memory, both as one byte.

Kinds beyond the seven known ones are kept with their byte (`Cinematic.Resource.Kind.unknown`),
so that a damaged or foreign table can still be listed; states beyond the two that a byte can
announce read as *not needed*. The one byte that is no kind is `Cinematic.Resource.Kind.endMark`,
which closes a table.
-/

namespace Cinematic.Resource

/-- What a resource holds. -/
inductive Kind where
  /-- A sampled sound. -/
  | sound
  /-- A music module. -/
  | music
  /-- A full-screen picture. -/
  | bitmap
  /-- The colour palettes of a part. -/
  | palette
  /-- The bytecode segment of a part. -/
  | bytecode
  /-- The polygons of a part's scenes. -/
  | cinematic
  /-- The polygons of characters and objects. -/
  | characters
  /-- Data of another kind, with its byte. -/
  | unknown (code : UInt8)
deriving Repr, DecidableEq

namespace Kind

/-- The byte that closes a table of resources. -/
def endMark : UInt8 := 0xff

/-- The kinds that have a meaning, in the order of their bytes. -/
def known : List Kind := [sound, music, bitmap, palette, bytecode, cinematic, characters]

/-- The kind that a byte announces. -/
def ofByte (b : UInt8) : Kind :=
  match b with
  | 0 => sound
  | 1 => music
  | 2 => bitmap
  | 3 => palette
  | 4 => bytecode
  | 5 => cinematic
  | 6 => characters
  | _ => unknown b

/-- The byte of a kind. -/
def toByte : Kind → UInt8
  | sound => 0
  | music => 1
  | bitmap => 2
  | palette => 3
  | bytecode => 4
  | cinematic => 5
  | characters => 6
  | unknown code => code

/-- The word that listings and file names use for a kind. -/
def name : Kind → String
  | sound => "sound"
  | music => "music"
  | bitmap => "bitmap"
  | palette => "palette"
  | bytecode => "bytecode"
  | cinematic => "polygon1"
  | characters => "polygon2"
  | unknown _ => "unknown"

/-- No byte is lost by reading it as a kind. -/
theorem toByte_ofByte (b : UInt8) : (ofByte b).toByte = b := by
  unfold ofByte
  split <;> rfl

end Kind

/-- How far a resource has been brought into memory. -/
inductive State where
  /-- Nobody has asked for it. -/
  | notNeeded
  /-- Somebody has asked for it. -/
  | needed
  /-- Its data are in memory. -/
  | loaded
deriving Repr, DecidableEq

namespace State

/-- The state that a byte announces; all but two bytes mean that the resource is not needed. -/
def ofByte (b : UInt8) : State :=
  match b with
  | 1 => needed
  | 2 => loaded
  | _ => notNeeded

/-- The byte of a state. -/
def toByte : State → UInt8
  | notNeeded => 0
  | needed => 1
  | loaded => 2

theorem ofByte_toByte (s : State) : ofByte s.toByte = s := by cases s <;> rfl

end State

/-- What bytecode can learn about a resource before it uses it. -/
structure Descriptor where
  /-- What the resource holds. -/
  kind : Kind
  /-- How far it has been brought into memory. -/
  state : State
  /-- Its size in bytes, unpacked. -/
  size : UInt16
deriving Repr, DecidableEq

/-- Whether the data of the resource are in memory. -/
def Descriptor.isLoaded (d : Descriptor) : Bool := d.state = .loaded

end Cinematic.Resource
