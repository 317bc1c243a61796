/-!
# Columns and hexadecimal numerals

The listings of this library are laid out in columns: a mnemonic fills seven places, an
offset always shows four hexadecimal digits, a size is flush right. What is common to all of
them is a text widened to a number of places, on the left or on the right, and **a width is
a minimum**: nothing is ever cut, so a resource whose number needs three digits shows three.

Hexadecimal numerals are lower case. The two families that occur are the bare ones of a
listing's margin (`Cinematic.Text.hex`) and those marked by `0x` (`Cinematic.Text.hexMarked`).
-/

namespace Cinematic.Text

/-- Widens a text to `width` places by writing `fill` before it. -/
def padStart (width : Nat) (fill : Char) (text : String) : String :=
  String.ofList (List.replicate (width - text.length) fill) ++ text

/-- Widens a text to `width` places by writing spaces after it. -/
def padEnd (width : Nat) (text : String) : String :=
  text ++ String.ofList (List.replicate (width - text.length) ' ')

/-- A number flush right in `width` places. -/
def flushRight (width n : Nat) : String := padStart width ' ' (toString n)

/-- A number in lower-case hexadecimal with at least `width` digits. -/
def hex (width n : Nat) : String := padStart width '0' (String.ofList (Nat.toDigits 16 n))

/-- A hexadecimal numeral of at least `width` digits, marked by a leading `0x`. -/
def hexMarked (width n : Nat) : String := "0x" ++ hex width n

/-- A number in upper-case hexadecimal with at least `width` digits, as bank files are named. -/
def hexUpper (width n : Nat) : String := (hex width n).map Char.toUpper

/-- A text without the spaces at its end. -/
def trimEnd (text : String) : String :=
  String.ofList (text.toList.reverse.dropWhile (· == ' ')).reverse

/-- The lines of a text, each closed by a line feed. -/
def unlines (lines : List String) : String :=
  lines.foldl (fun text line => text ++ line ++ "\n") ""

end Cinematic.Text
