import Cinematic.Log.Pattern.Modes
import Cinematic.Text.Numeral

/-!
# Escapes in patterns

A backslash makes a sign out of a letter and a letter out of a sign. Behind it stands a character
that has another meaning otherwise, the name of one that is hard to write, its number, a class of
characters, or a place between characters.

The words for classes (`\d`, `\s`, `\w`, `\p`) and the edges of words would need tables of all
scripts. There are none, so **a pattern about characters of all scripts has no such words**; a pattern
about bytes has those for ASCII, except for what reaches beyond it.
-/

namespace Cinematic.Log.Pattern

/-- What a backslash and the characters after it stand for. -/
inductive Escape where
  /-- A character. -/
  | character (c : Char)
  /-- A class of characters. -/
  | set
  /-- A place between characters. -/
  | edge
deriving Repr, DecidableEq

/-- The number that so many hexadecimal digits spell, appended to those before them, and what follows
them. Blanks between the digits do not count where blanks do not count. -/
def hexDigits? (m : Modes) : Nat → Nat → List Char → Option (Nat × List Char)
  | 0, n, cs => some (n, cs)
  | _ + 1, _, [] => none
  | more + 1, n, c :: rest =>
    match Text.digitBelow? 16 c with
    | some d => hexDigits? m more (n * 16 + d) (m.skip rest)
    | none => none

/-- The character with a number of exactly so many hexadecimal digits, and what follows it. -/
def hexCharacter? (m : Modes) (digits : Nat) (cs : List Char) : Option (Char × List Char) :=
  match hexDigits? m digits 0 (m.skip cs) with
  | some (n, rest) => if n.isValidChar then some (Char.ofNat n, rest) else none
  | none => none

/-- The characters that have names of one letter. -/
def namedCharacter? (c : Char) : Option Char :=
  if c = 'a' then some '\x07'
  else if c = 'f' then some '\x0c'
  else if c = 'n' then some '\n'
  else if c = 'r' then some '\r'
  else if c = 't' then some '\t'
  else if c = 'v' then some '\x0b'
  else none

/-- What stands behind a backslash, and what follows it. A number of two digits is a byte where the
pattern is about bytes, and then it must be one of ASCII. -/
def escape? (m : Modes) : List Char → Option (Escape × List Char)
  | [] => none
  | c :: rest =>
    if c = 'x' then
      (hexCharacter? m 2 rest).bind fun (d, rest) =>
        if ¬ m.unicode ∧ 127 < d.toNat then none else some (.character d, rest)
    else if c = 'u' then (hexCharacter? m 4 rest).map fun (d, rest) => (.character d, rest)
    else if c = 'U' then (hexCharacter? m 8 rest).map fun (d, rest) => (.character d, rest)
    else if c = 'A' ∨ c = 'z' then some (.edge, rest)
    else if c ∈ ['b', 'B', '<', '>'] then if m.unicode then none else some (.edge, rest)
    else if c ∈ ['d', 's', 'w'] then if m.unicode then none else some (.set, rest)
    else
      match namedCharacter? c with
      | some d => some (.character d, rest)
      | none => if 127 < c.toNat ∨ c.isAlphanum then none else some (.character c, rest)

end Cinematic.Log.Pattern
