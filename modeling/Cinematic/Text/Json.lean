/-!
# Indented JSON

The summary of a run can be asked for as a JSON document. The document is written with two
spaces of indentation for each level, one member or element on a line, and `": "` between a
name and its value; **an object or an array without members is written closed**, on one line.
-/

namespace Cinematic.Text

/-- A JSON value with the numbers that a summary needs: the natural ones. -/
inductive Json where
  /-- The absent value. -/
  | null
  /-- A natural number. -/
  | number (n : Nat)
  /-- A text. -/
  | text (s : String)
  /-- An array. -/
  | array (items : List Json)
  /-- An object, its members in the order in which they are written. -/
  | object (members : List (String × Json))
deriving Repr

namespace Json

/-- One character of a quoted text: a quote and a backslash take a backslash, control characters
are written by their short escape or their number, and all else stands for itself. -/
def quoteChar (c : Char) : String :=
  if c = '"' then "\\\""
  else if c = '\\' then "\\\\"
  else if c = '\n' then "\\n"
  else if c = '\r' then "\\r"
  else if c = '\t' then "\\t"
  else if c.toNat = 8 then "\\b"
  else if c.toNat = 12 then "\\f"
  else if c.toNat < 32 then
    "\\u00" ++ String.ofList [Nat.digitChar (c.toNat / 16), Nat.digitChar (c.toNat % 16)]
  else c.toString

/-- A text between quotes. -/
def quote (s : String) : String :=
  s.toList.foldl (fun out c => out ++ quoteChar c) "\"" ++ "\""

/-- The white space before a line at a nesting depth. -/
def indent (depth : Nat) : String := String.ofList (List.replicate (2 * depth) ' ')

mutual

/-- A value written at a nesting depth; its first line carries no indentation. -/
def write (depth : Nat) : Json → String
  | .null => "null"
  | .number n => toString n
  | .text s => quote s
  | .array [] => "[]"
  | .array (x :: xs) =>
    "[\n" ++ indent (depth + 1) ++ write (depth + 1) x ++ writeItems (depth + 1) xs
      ++ "\n" ++ indent depth ++ "]"
  | .object [] => "\x7b\x7d"
  | .object ((name, value) :: rest) =>
    "\x7b\n" ++ indent (depth + 1) ++ quote name ++ ": " ++ write (depth + 1) value
      ++ writeMembers (depth + 1) rest ++ "\n" ++ indent depth ++ "\x7d"

/-- The elements of an array after its first. -/
def writeItems (depth : Nat) : List Json → String
  | [] => ""
  | x :: xs => ",\n" ++ indent depth ++ write depth x ++ writeItems depth xs

/-- The members of an object after its first. -/
def writeMembers (depth : Nat) : List (String × Json) → String
  | [] => ""
  | (name, value) :: rest =>
    ",\n" ++ indent depth ++ quote name ++ ": " ++ write depth value ++ writeMembers depth rest

end

/-- The indented document of a value. -/
def pretty (value : Json) : String := value.write 0

end Json

end Cinematic.Text
