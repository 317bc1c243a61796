import Cinematic.Text.Split

/-!
# Paths

A **path** is what a person types: names between slashes. A **place** is where it leads: the
names passed on the way, innermost first, so that the names of a directory's files differ from
each other in their first element only.

A path that begins with a slash starts at the top of all directories, any other at the working
directory. One dot stays where it is and two dots lead one directory up; the places above the
working directory have no other names than those two dots.
-/

namespace Cinematic.FileTree

/-- Where a path leads: the names on the way, innermost first. -/
abbrev Place := List String

namespace Place

/-- The working directory. -/
def here : Place := []

/-- The top of all directories. -/
def top : Place := ["/"]

/-- The directory that a place is in. -/
def parent : Place → Place
  | [] => [".."]
  | name :: outer =>
    if name = ".." then ".." :: name :: outer
    else if name = "/" then top
    else outer

/-- Where a name leads from a directory. -/
def child (place : Place) (name : String) : Place :=
  if name = "." then place
  else if name = ".." then place.parent
  else name :: place

/-- Whether a place is a directory whatever the tree: the working directory, those above it, and the
top. -/
def isBase (place : Place) : Bool := place = top ∨ place.all (· == "..")

/-- Whether a place is inside a directory. The way to it leads through names only, never up or back to
the top. -/
def isInside (place dir : Place) : Bool :=
  dir.isSuffixOf place
    && (place.take (place.length - dir.length)).all fun name => name ≠ ".." && name ≠ "/"

/-- The places passed when some names are followed. -/
def along (place : Place) : List String → List Place
  | [] => []
  | name :: rest => place.child name :: along (place.child name) rest

/-- The path of a place. -/
def path (place : Place) : String :=
  match place.reverse with
  | [] => "."
  | "/" :: names => "/" ++ "/".intercalate names
  | names => "/".intercalate names

theorem child_of_ne {place : Place} {name : String} (one : name ≠ ".") (two : name ≠ "..") :
    place.child name = name :: place := by
  simp [child, one, two]

end Place

/-- A path taken apart. -/
structure Route where
  /-- Where the path starts. -/
  start : Place
  /-- The names to follow. -/
  names : List String
  /-- Whether the path ends in a slash and therefore means a directory. -/
  closed : Bool
deriving Repr, DecidableEq

/-- A path taken apart; slashes may be doubled. -/
def Route.ofPath (path : String) : Route where
  start := if path.toList.head? = some '/' then Place.top else Place.here
  names := (Text.pieces '/' path).filter (· ≠ "")
  closed := path.toList.getLast? = some '/'

/-- The places that a route passes. -/
def Route.places (route : Route) : List Place := route.start.along route.names

/-- The path of a name in a directory. -/
def join (dir name : String) : String :=
  if dir.isEmpty then name
  else if dir.toList.getLast? = some '/' then dir ++ name
  else dir ++ "/" ++ name

end Cinematic.FileTree
