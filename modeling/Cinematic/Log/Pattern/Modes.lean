import Cinematic.Text.Blank

/-!
# Modes of patterns

A pattern has **modes** that letters turn on and off, from where they are written to the end of the
group around. Most of them only change what a pattern matches. Three decide what is well formed:
whether blanks and comments count (`x`), whether letters stand for themselves in either case
(`i`), and whether the pattern is about characters of all scripts or about bytes (`u`).
-/

namespace Cinematic.Log.Pattern

/-- The modes that decide what is well formed. -/
structure Modes where
  /-- Blanks and comments between the parts of a pattern do not count. -/
  spaced : Bool := false
  /-- Letters stand for themselves in either case. -/
  caseless : Bool := false
  /-- The pattern is about characters of all scripts. -/
  unicode : Bool := true
deriving Repr, DecidableEq

namespace Modes

/-- The modes at the beginning of a pattern. -/
def initial : Modes := {}

/-- The letters of all modes, and the sign that turns off those after it. -/
def letters : List Char := ['i', 'm', 's', 'U', 'u', 'R', 'x', '-']

/-- The modes with one of them turned on or off. -/
def turn (m : Modes) (letter : Char) (on : Bool) : Modes :=
  if letter = 'x' then { m with spaced := on }
  else if letter = 'i' then { m with caseless := on }
  else if letter = 'u' then { m with unicode := on }
  else m

/-- Whether characters would have to be matched in either case of any script. -/
def foldsCase (m : Modes) : Bool := m.caseless && m.unicode

/-- The modes that some letters switch, up to the closing character, with that character and what
follows it. Each letter occurs once, and the sign has letters after it. A parenthesis has letters
before it. -/
def switch (m : Modes) (on : Bool) (seen : List Char) :
    List Char → Option (Modes × Char × List Char)
  | [] => none
  | c :: rest =>
    if c = ':' ∨ (c = ')' ∧ seen ≠ []) then
      if seen.head? = some '-' then none else some (m, c, rest)
    else if c ∈ letters ∧ c ∉ seen then switch (m.turn c on) (on && c ≠ '-') (c :: seen) rest
    else none

/-! ### Blanks and comments -/

/-- What follows blanks and comments, from inside a comment or from outside. A comment goes from a
number sign to the end of the line. -/
def skipSpace : Bool → List Char → List Char
  | _, [] => []
  | inside, c :: rest =>
    if inside then skipSpace (c ≠ '\n') rest
    else if Text.isBlank c then skipSpace false rest
    else if c = '#' then skipSpace true rest
    else c :: rest

/-- What follows the blanks and comments that do not count. -/
def skip (m : Modes) (cs : List Char) : List Char :=
  if m.spaced then skipSpace false cs else cs

/-- The first character behind blanks and one number sign. -/
def firstBehind? : Bool → List Char → Option Char
  | _, [] => none
  | inside, c :: rest =>
    if Text.isBlank c then firstBehind? inside rest
    else if c = '#' ∧ ¬ inside then firstBehind? true rest
    else some c

/-- The character that is looked at to see what a hyphen in a set means. Blanks do not count, but the
text of a comment does; if there is nothing else, the blank itself is looked at. -/
def peek (m : Modes) (cs : List Char) : Option Char :=
  if m.spaced then (firstBehind? false cs).or cs.head? else cs.head?

end Modes

end Cinematic.Log.Pattern
