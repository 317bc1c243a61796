import Cinematic.Text.Numeral

/-!
# The parts of the game

A **part** is a chapter: a palette set, a bytecode segment and one or two polygon sets, each a
resource. Parts have ids of their own (`Cinematic.Part.isId`), far above those of resources, so
that bytecode can ask for a part by the instruction that loads a resource. The two readings of an
id do not overlap as long as the memory list ends before the first part.

Two ids share the password screen. A part asked for by name is the first of that name.
-/

namespace Cinematic

/-- A chapter of the game and the resources that it is made of. -/
structure Part where
  /-- The id by which bytecode asks for the part. -/
  id : UInt16
  /-- The word by which a person asks for it. -/
  name : String
  /-- The resource with its palettes. -/
  palettes : UInt8
  /-- The resource with its bytecode. -/
  bytecode : UInt8
  /-- The resource with the polygons of its scenes. -/
  cinematic : UInt8
  /-- The resource with its character polygons, or zero if it has none. -/
  characters : UInt8
deriving Repr, DecidableEq

namespace Part

/-- The id of the code-wheel screen, with which the game begins. -/
def protectionId : UInt16 := 0x3e80

/-- The id of the first part. -/
def firstId : UInt16 := 0x3e80

/-- The id of the last part. -/
def lastId : UInt16 := 0x3e89

/-- All parts, in the order of their ids. -/
def all : List Part :=
  [⟨0x3e80, "protection", 0x14, 0x15, 0x16, 0x00⟩,
   ⟨0x3e81, "introduction", 0x17, 0x18, 0x19, 0x00⟩,
   ⟨0x3e82, "water", 0x1a, 0x1b, 0x1c, 0x11⟩,
   ⟨0x3e83, "jail", 0x1d, 0x1e, 0x1f, 0x11⟩,
   ⟨0x3e84, "cite", 0x20, 0x21, 0x22, 0x11⟩,
   ⟨0x3e85, "arena", 0x23, 0x24, 0x25, 0x00⟩,
   ⟨0x3e86, "luxe", 0x26, 0x27, 0x28, 0x11⟩,
   ⟨0x3e87, "final", 0x29, 0x2a, 0x2b, 0x11⟩,
   ⟨0x3e88, "password", 0x7d, 0x7e, 0x7f, 0x00⟩,
   ⟨0x3e89, "password", 0x7d, 0x7e, 0x7f, 0x00⟩]

/-- Whether an id names a part rather than a resource. -/
def isId (id : UInt16) : Bool := firstId ≤ id ∧ id ≤ lastId

/-- The part with an id. -/
def ofId? (id : UInt16) : Option Part := all.find? (·.id == id)

/-- The first part with a name. -/
def ofName? (name : String) : Option Part := all.find? (·.name == name)

/-- **How a person names a part**: by its name, or by its id in hexadecimal with or without `0x`,
in upper or lower case. -/
def ofText? (s : String) : Option Part :=
  let lower := s.toLower
  match ofName? lower with
  | some part => some part
  | none =>
    let digits := match lower.toList with
      | '0' :: 'x' :: rest => rest
      | cs => cs
    (Text.naturalBelow? 16 65536 digits).bind fun id => ofId? id.toUInt16

/-- The resources of a part in the order in which they are loaded. -/
def resources (p : Part) : List UInt8 :=
  [p.palettes, p.bytecode, p.cinematic, p.characters].filter (· ≠ 0)

end Part

end Cinematic
