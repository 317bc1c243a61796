import Cinematic.Log.Pattern.Escape

/-!
# Sets in patterns

Between brackets stands a **set** of characters: characters, ranges of them, sets that have names,
other sets between brackets, and the signs for what two sets have in common (`&&`), for what one has
and another has not (`--`), and for what only one of them has (`~~`). The signs bind to the left and
weaker than writing side by side.

A set is read from left to right with what is remembered of the brackets that are open
(`Bracket`). What comes of it is how deep its parts are nested. Side by side, several parts are one
level deeper than a single one; a sign and a pair of brackets are one level each.

Where letters stand for themselves in either case, a set may have no character in it, since the case
of characters of all scripts is not known. Only sets made of nothing are possible.
-/

namespace Cinematic.Log.Pattern

/-- The deepest of some parts. -/
def deepest (depths : List Nat) : Nat := depths.foldl Nat.max 0

/-- How deep some parts are nested that stand side by side. -/
def depthOf : List Nat → Nat
  | [] => 0
  | [depth] => depth
  | depths => deepest depths + 1

/-- What is remembered of an open bracket. -/
structure Bracket where
  /-- How deep the parts behind the last sign are nested, last one first. -/
  parts : List Nat
  /-- How deep what stands on the left of the last sign is nested, if there is a sign. -/
  left : Option Nat
deriving Repr, DecidableEq

namespace Bracket

/-- How deep everything in a bracket is nested so far. -/
def depth (b : Bracket) : Nat :=
  match b.left with
  | none => depthOf b.parts
  | some left => Nat.max left (depthOf b.parts) + 1

/-- A part has been read. -/
def add (b : Bracket) (depth : Nat) : Bracket := { b with parts := depth :: b.parts }

/-- A sign has been read. -/
def sign (b : Bracket) : Bracket := ⟨[], some b.depth⟩

end Bracket

/-- The names of the sets that can be had by name. -/
def setNames : List String :=
  ["alnum", "alpha", "ascii", "blank", "cntrl", "digit", "graph", "lower", "print", "punct",
    "space", "upper", "word", "xdigit"]

/-- Whether the set behind an opening bracket has a name and stands for what is not in the set of
that name, and what follows it; `none` if no name of a set stands there. -/
def namedSet? : List Char → Option (Bool × List Char)
  | ':' :: rest =>
    let negated := rest.head? = some '^'
    let rest := if negated then rest.drop 1 else rest
    let name := rest.takeWhile (· ≠ ':')
    match rest.dropWhile (· ≠ ':') with
    | ':' :: ']' :: rest =>
      if String.ofList name ∈ setNames then some (negated, rest) else none
    | _ => none
  | _ => none

/-- The number of hyphens at the beginning, and what follows them. -/
def hyphens (m : Modes) : Nat → List Char → Nat × List Char
  | fuel + 1, '-' :: rest =>
    let (more, rest) := hyphens m fuel (m.skip rest)
    (more + 1, rest)
  | _, cs => (0, cs)

/-- What is remembered of a bracket that has just been opened, and what follows. A circumflex makes it
the set of what is not in it, which for bytes reaches beyond ASCII. Hyphens, or else a closing
bracket, at the beginning stand for themselves. -/
def openBracket? (m : Modes) (cs : List Char) : Option (Bracket × List Char) :=
  let cs := m.skip cs
  let negated := cs.head? = some '^'
  let cs := if negated then m.skip (cs.drop 1) else cs
  let (count, rest) := hyphens m cs.length cs
  let (count, rest) :=
    match count, rest with
    | 0, ']' :: rest => (1, m.skip rest)
    | count, rest => (count, rest)
  if (negated ∧ ¬ m.unicode) ∨ (count ≠ 0 ∧ m.foldsCase) then none
  else some (⟨List.replicate count 0, none⟩, rest)

/-- One member of a set, if it is a single character, and what follows it. -/
def member? (m : Modes) : List Char → Option (Option Char × List Char)
  | [] => none
  | '\\' :: rest =>
    match escape? m rest with
    | some (.character c, rest) =>
      if ¬ m.unicode ∧ 127 < c.toNat then none else some (some c, rest)
    | some (.set, rest) => some (none, rest)
    | some (.edge, _) => none
    | none => none
  | c :: rest => if ¬ m.unicode ∧ 127 < c.toNat then none else some (some c, rest)

/-- What follows a member of a set, or a range from one to another. -/
def range? (m : Modes) (cs : List Char) : Option (List Char) := do
  let (low, rest) ← member? m cs
  match m.skip rest with
  | '-' :: more =>
    let next := m.peek more
    if next = some ']' ∨ next = some '-' then return m.skip rest
    let (high, rest) ← member? m (m.skip more)
    match low, high with
    | some low, some high => if low ≤ high then return rest else none
    | _, _ => none
  | rest => return rest

/-- How deep a set is nested whose innermost open bracket is `b`, inside of the brackets `outer`, and
what follows its last bracket. -/
def set? (m : Modes) : Nat → Bracket → List Bracket → List Char → Option (Nat × List Char)
  | 0, _, _, _ => none
  | fuel + 1, b, outer, cs =>
    match m.skip cs with
    | [] => none
    | '[' :: rest =>
      match namedSet? rest with
      | some (negated, rest) =>
        if m.foldsCase ∨ (negated ∧ ¬ m.unicode) then none
        else set? m fuel (b.add 0) outer rest
      | none =>
        match openBracket? m rest with
        | some (inner, rest) => set? m fuel inner (b :: outer) rest
        | none => none
    | ']' :: rest =>
      match outer with
      | [] => some (b.depth + 1, rest)
      | around :: outer => set? m fuel (around.add (b.depth + 1)) outer rest
    | '&' :: '&' :: rest => set? m fuel b.sign outer rest
    | '-' :: '-' :: rest => set? m fuel b.sign outer rest
    | '~' :: '~' :: rest => set? m fuel b.sign outer rest
    | cs =>
      if m.foldsCase then none
      else
        match range? m cs with
        | some rest => set? m fuel (b.add 0) outer rest
        | none => none

/-- **How deep a set is nested** whose opening bracket has been read, and what follows it. Each step
reads a character, so there are no more steps than characters. -/
def readSet? (m : Modes) (cs : List Char) : Option (Nat × List Char) :=
  match openBracket? m cs with
  | some (b, rest) => set? m (cs.length + 1) b [] rest
  | none => none

end Cinematic.Log.Pattern
