/-!
# Cutting a text at a separator

Paths are cut at slashes, filters at commas, and what is printed at the ends of lines. A text has
**one piece more than it has separators**, so that neighbouring separators have an empty piece
between them, and the empty text is one empty piece. Whoever does not want empty pieces drops
them.
-/

namespace Cinematic.Text

/-- The pieces of some characters between the occurrences of a separator. -/
def piecesOf (separator : Char) : List Char → List (List Char)
  | [] => [[]]
  | c :: rest =>
    if c = separator then [] :: piecesOf separator rest
    else
      match piecesOf separator rest with
      | [] => [[c]]
      | first :: others => (c :: first) :: others

/-- The pieces of a text between the occurrences of a separator. -/
def pieces (separator : Char) (text : String) : List String :=
  (piecesOf separator text.toList).map String.ofList

/-- A line without the carriage return at its end. -/
def dropReturn (line : String) : String :=
  match line.toList.reverse with
  | '\r' :: rest => String.ofList rest.reverse
  | _ => line

/-- **The lines of a text.** A line feed closes a line, together with a carriage return before it.
What follows the last line feed is a line of its own unless it is empty. -/
def lines (text : String) : List String :=
  match (pieces '\n' text).reverse with
  | [] => []
  | last :: closed => (closed.map dropReturn).reverse ++ (if last.isEmpty then [] else [last])

theorem piecesOf_separator (separator : Char) (rest : List Char) :
    piecesOf separator (separator :: rest) = [] :: piecesOf separator rest := by
  simp [piecesOf]

/-- A text without separators is its own only piece. -/
theorem piecesOf_of_not_mem {separator : Char} {cs : List Char} (h : separator ∉ cs) :
    piecesOf separator cs = [cs] := by
  induction cs with
  | nil => rfl
  | cons c rest ih =>
    have first : c ≠ separator := fun e => h (e ▸ List.mem_cons_self)
    have others : piecesOf separator rest = [rest] := ih fun m => h (List.mem_cons_of_mem c m)
    simp [piecesOf, first, others]

end Cinematic.Text
