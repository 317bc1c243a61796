/-!
# Reading numerals

Arguments and part names are numbers written by people, and every one of them obeys one
grammar: **an optional sign, then one or more digits**, leading zeros as many as one likes.
There is no white space, no separator between digits, and no empty numeral. A sign alone is
not a numeral, and which signs there are is the caller's choice: `Cinematic.Text.natural?`
takes a plus only, `Cinematic.Text.integer?` takes either.

The readers give a number of any size; a bound is a question of its own, asked by
`Cinematic.Text.naturalBelow?`.
-/

namespace Cinematic.Text

/-- The value of a digit in base sixteen, in either case. -/
def digitValue? (c : Char) : Option Nat :=
  if '0' ≤ c ∧ c ≤ '9' then some (c.toNat - '0'.toNat)
  else if 'a' ≤ c ∧ c ≤ 'f' then some (c.toNat - 'a'.toNat + 10)
  else if 'A' ≤ c ∧ c ≤ 'F' then some (c.toNat - 'A'.toNat + 10)
  else none

/-- The value of a digit in a base of at most sixteen. -/
def digitBelow? (base : Nat) (c : Char) : Option Nat :=
  (digitValue? c).filter (· < base)

/-- Appends the digits of a list to a number, most significant first; `none` when one of them is
no digit of the base. -/
def appendDigits? (base : Nat) : Nat → List Char → Option Nat
  | n, [] => some n
  | n, c :: rest =>
    match digitBelow? base c with
    | some d => appendDigits? base (n * base + d) rest
    | none => none

/-- One or more digits. -/
def digits? (base : Nat) : List Char → Option Nat
  | [] => none
  | cs@(_ :: _) => appendDigits? base 0 cs

/-- One or more digits after an optional plus. -/
def natural? (base : Nat) : List Char → Option Nat
  | '+' :: rest => digits? base rest
  | cs => digits? base cs

/-- One or more digits after an optional plus or minus. -/
def integer? (base : Nat) : List Char → Option Int
  | '-' :: rest => (digits? base rest).map fun n => -(n : Int)
  | cs => (natural? base cs).map Int.ofNat

/-- A natural number smaller than `bound`. -/
def naturalBelow? (base bound : Nat) (cs : List Char) : Option Nat :=
  (natural? base cs).filter (· < bound)

theorem digits?_cons (base : Nat) (c : Char) (rest : List Char) :
    digits? base (c :: rest) = appendDigits? base 0 (c :: rest) := rfl

theorem natural?_plus (base : Nat) (rest : List Char) :
    natural? base ('+' :: rest) = digits? base rest := rfl

theorem natural?_of_ne_plus (base : Nat) {c : Char} (h : c ≠ '+') (rest : List Char) :
    natural? base (c :: rest) = digits? base (c :: rest) := by
  unfold natural?
  split
  · next heq => exact absurd (List.cons.inj heq).1 h
  · rfl

/-- **A word argument** is decimal, or hexadecimal after `0x` or `0X`, and below 65536. -/
def word? (s : String) : Option UInt16 :=
  (match s.toList with
    | '0' :: 'x' :: rest => naturalBelow? 16 65536 rest
    | '0' :: 'X' :: rest => naturalBelow? 16 65536 rest
    | cs => naturalBelow? 10 65536 cs).map Nat.toUInt16

end Cinematic.Text
