import Cinematic.Log.Pattern.Set
import Cinematic.Text.Alphanumeric

/-!
# Patterns of values

A filter can ask for the value of a field by a **pattern**: characters that stand for themselves,
`.`, sets between brackets, groups, alternatives, and repetitions. Entries are never matched with a
pattern (`Cinematic.Log.Directive`), but a filter with a pattern that is not well formed has no
meaning, so this module says which patterns are.

A pattern is read once from left to right (`Reading`). What is remembered is which modes are on, how
deep the parts read so far are nested, what there was before each group that is open, and the names
given to groups. **Nothing may be nested deeper than 250 levels**: groups, repetitions, sets, and
parts side by side or in alternatives are one level each.

The case of characters of all scripts is not known, so where letters stand for themselves in either
case there may be no characters. A value ends at the first closing brace, so that a number of
repetitions, which would stand between braces, is never complete.
-/

namespace Cinematic.Log.Pattern

/-- A part of a pattern. -/
structure Piece where
  /-- How deep it is nested. -/
  depth : Nat
  /-- Whether it can be repeated. -/
  repeatable : Bool
deriving Repr, DecidableEq

/-- What stands between the parentheses of a group that is open, or at the top. -/
structure Level where
  /-- The parts of the last alternative, last one first. -/
  pieces : List Piece
  /-- How deep the alternatives before it are nested. -/
  branches : List Nat
deriving Repr, DecidableEq

namespace Level

/-- Nothing read. -/
def empty : Level := ⟨[], []⟩

/-- A part has been read. -/
def add (l : Level) (piece : Piece) : Level := { l with pieces := piece :: l.pieces }

/-- How deep the last alternative is nested. -/
def lastDepth (l : Level) : Nat := depthOf (l.pieces.map (·.depth))

/-- The last alternative has come to its end. -/
def divide (l : Level) : Level := ⟨[], l.lastDepth :: l.branches⟩

/-- How deep everything is nested. -/
def depth (l : Level) : Nat := depthOf (l.lastDepth :: l.branches)

end Level

/-- What is remembered of a pattern while it is read. -/
structure Reading where
  /-- The modes that are on. -/
  modes : Modes
  /-- What has been read in the innermost open group. -/
  level : Level
  /-- What had been read, and which modes were on, before each open group, innermost first. -/
  outer : List (Modes × Level)
  /-- The names given to groups. -/
  names : List (List Char)
deriving Repr, DecidableEq

namespace Reading

/-- Nothing read. -/
def initial : Reading := ⟨.initial, .empty, [], []⟩

/-- A part has been read. -/
def add (r : Reading) (piece : Piece) : Reading := { r with level := r.level.add piece }

/-- Something has been read that can be repeated and has no parts. -/
def addItem (r : Reading) : Reading := r.add ⟨0, true⟩

/-- A group has been opened, in which some modes are on. -/
def enter (r : Reading) (modes : Modes) : Reading :=
  { r with modes := modes, level := .empty, outer := (r.modes, r.level) :: r.outer }

/-- A group has been closed. -/
def leave? (r : Reading) : Option Reading :=
  match r.outer with
  | [] => none
  | (modes, level) :: outer =>
    some { r with
      modes := modes
      level := level.add ⟨r.level.depth + 1, true⟩
      outer := outer }

/-- The last part is repeated. -/
def repeat? (r : Reading) : Option Reading :=
  match r.level.pieces with
  | [] => none
  | piece :: pieces =>
    if piece.repeatable then
      some { r with level := { r.level with pieces := ⟨piece.depth + 1, true⟩ :: pieces } }
    else none

/-- The largest depth of a pattern. -/
def maxDepth : Nat := 250

/-- Whether a pattern can end here. -/
def isComplete (r : Reading) : Bool := r.outer.isEmpty && r.level.depth ≤ maxDepth

end Reading

/-- Whether a group may have a name. -/
def isGroupName : List Char → Bool
  | [] => false
  | c :: rest =>
    (c = '_' || Text.isAlphabetic c)
      && rest.all fun d => Text.isAlphanumeric d || d ∈ ['_', '.', '[', ']']

/-- What is read of a group with a name, from the name on. No two groups have the same name. -/
def namedGroup? (r : Reading) (cs : List Char) : Option (Reading × List Char) :=
  let name := cs.takeWhile (· ≠ '>')
  match cs.dropWhile (· ≠ '>') with
  | [] => none
  | _ :: rest =>
    if isGroupName name ∧ name ∉ r.names then
      some ({ r.enter r.modes with names := name :: r.names }, rest)
    else none

/-- What is read of a group behind its opening parenthesis. A question mark announces a name or a
switch of modes, which holds in the group or, if there is none, up to the end of the group around. -/
def group? (r : Reading) (cs : List Char) : Option (Reading × List Char) :=
  match r.modes.skip cs with
  | '?' :: 'P' :: '<' :: rest => namedGroup? r rest
  | '?' :: '<' :: rest => namedGroup? r rest
  | '?' :: rest =>
    match r.modes.switch true [] rest with
    | some (modes, ':', rest) => some (r.enter modes, rest)
    | some (modes, _, rest) => some ({ r.add ⟨0, false⟩ with modes := modes }, rest)
    | none => none
  | rest => some (r.enter r.modes, rest)

/-- What is read of a pattern behind a backslash. -/
def escaped? (r : Reading) (cs : List Char) : Option (Reading × List Char) :=
  match escape? r.modes cs with
  | some (.character _, rest) => if r.modes.foldsCase then none else some (r.addItem, rest)
  | some (_, rest) => some (r.addItem, rest)
  | none => none

/-- What is read of a repetition. A question mark right behind its sign belongs to it. -/
def repetition? (r : Reading) (cs : List Char) : Option (Reading × List Char) :=
  r.repeat?.map fun r =>
    match cs with
    | '?' :: rest => (r, rest)
    | rest => (r, rest)

/-- **One step of reading a pattern**: its next character, with all that belongs to it. -/
def step? (r : Reading) (c : Char) (rest : List Char) : Option (Reading × List Char) :=
  if c = '(' then group? r rest
  else if c = ')' then r.leave?.map fun r => (r, rest)
  else if c = '|' then some ({ r with level := r.level.divide }, rest)
  else if c = '*' ∨ c = '+' ∨ c = '?' then repetition? r rest
  else if c = '\x7b' then none
  else if c = '\\' then escaped? r rest
  else if c = '^' ∨ c = '$' then some (r.addItem, rest)
  else if c = '.' then if r.modes.unicode then some (r.addItem, rest) else none
  else if c = '[' then
    (readSet? r.modes rest).map fun (depth, rest) => (r.add ⟨depth, true⟩, rest)
  else if r.modes.foldsCase then none
  else some (r.addItem, rest)

/-- Whether the rest of a pattern is well formed. -/
def readOn : Nat → Reading → List Char → Bool
  | 0, _, _ => false
  | fuel + 1, r, cs =>
    match r.modes.skip cs with
    | [] => r.isComplete
    | c :: rest =>
      match step? r c rest with
      | some (r, rest) => readOn fuel r rest
      | none => false

/-- **Whether a pattern is well formed.** Each step reads a character, so there are no more steps
than characters. -/
def isWellFormed (cs : List Char) : Bool := readOn (cs.length + 1) .initial cs

end Cinematic.Log.Pattern
