import Cinematic.Bytes
import Cinematic.FileTree.Path

/-!
# File trees

What is read from files and written to them is read from and written to a **tree** that is
passed along like any other value. A tree is a table of places, each with a file or a directory,
and every operation begins by following a path through it: all names but the last must be
directories that exist.

An operation that cannot be carried out says why in the words of the operating system, number
included. A path that cannot be handed to the operating system at all has no number.
-/

namespace Cinematic

/-- Why a file operation is refused. -/
inductive OsError where
  /-- Something on the path does not exist. -/
  | noSuchFile
  /-- A directory was to be made where a file stands. -/
  | fileExists
  /-- Something on the path is a file and ought to be a directory. -/
  | notDirectory
  /-- The path leads to a directory and ought to lead to a file. -/
  | isDirectory
  /-- The path or a name on it is too long. -/
  | nameTooLong
  /-- The path has a zero byte in it. -/
  | zeroByte
deriving Repr, DecidableEq

/-- The number of an error, if the operating system has one for it. -/
def OsError.number? : OsError → Option Nat
  | noSuchFile => some 2
  | fileExists => some 17
  | notDirectory => some 20
  | isDirectory => some 21
  | nameTooLong => some 36
  | zeroByte => none

/-- The description of an error. -/
def OsError.description : OsError → String
  | noSuchFile => "No such file or directory"
  | fileExists => "File exists"
  | notDirectory => "Not a directory"
  | isDirectory => "Is a directory"
  | nameTooLong => "File name too long"
  | zeroByte => "file name contained an unexpected NUL byte"

/-- The wording of an error. -/
def OsError.message (e : OsError) : String :=
  match e.number? with
  | some number => e.description ++ " (os error " ++ toString number ++ ")"
  | none => e.description

/-- What stands at a place. -/
inductive FileTree.Node where
  /-- A file with its content. -/
  | file (content : Bytes)
  /-- A directory. -/
  | directory
deriving Repr, DecidableEq

/-- Files in directories. -/
structure FileTree where
  /-- What stands where. -/
  nodes : List (FileTree.Place × FileTree.Node)
deriving Repr

namespace FileTree

/-- An empty working directory. -/
def empty : FileTree := ⟨[]⟩

/-- What stands at a place. -/
def node? (t : FileTree) (place : Place) : Option Node :=
  if place.isBase then some .directory
  else (t.nodes.find? (·.1 = place)).map (·.2)

/-- The tree with something else at a place. -/
def put (t : FileTree) (place : Place) (node : Node) : FileTree :=
  ⟨(place, node) :: t.nodes.filter (·.1 ≠ place)⟩

/-- The tree with nothing at a place. -/
def erase (t : FileTree) (place : Place) : FileTree := ⟨t.nodes.filter (·.1 ≠ place)⟩

/-- The largest number of bytes in a name. -/
def maxNameLength : Nat := 255

/-- The largest number of bytes in a path. -/
def maxPathLength : Nat := 4095

/-- A path taken apart, if it can be followed at all. -/
def routeOf (path : String) : Except OsError Route :=
  if path.toList.contains '\x00' then .error .zeroByte
  else if maxPathLength < path.utf8ByteSize then .error .nameTooLong
  else .ok (Route.ofPath path)

/-- What a name stands for in a directory, if it stands for anything. -/
def lookUp (t : FileTree) (place : Place) (name : String) : Except OsError (Option Node) :=
  if maxNameLength < name.utf8ByteSize then .error .nameTooLong
  else .ok (t.node? (place.child name))

/-- Where a name leads from a directory, if that is a directory too. -/
def enter (t : FileTree) (place : Place) (name : String) : Except OsError Place :=
  match t.lookUp place name with
  | .error cause => .error cause
  | .ok none => .error .noSuchFile
  | .ok (some (.file _)) => .error .notDirectory
  | .ok (some .directory) => .ok (place.child name)

/-- Where names lead, all of which must be directories. -/
def walk (t : FileTree) (place : Place) (names : List String) : Except OsError Place :=
  names.foldlM t.enter place

/-- The directory that the last name of a route is looked up in. -/
def lastDirectory (t : FileTree) (route : Route) : Except OsError Place :=
  t.walk route.start route.names.dropLast

/-- **What stands at the end of a path.** -/
def find (t : FileTree) (path : String) : Except OsError Node := do
  let route ← routeOf path
  match route.names.getLast? with
  | none => if route.closed then .ok .directory else .error .noSuchFile
  | some name =>
    let place ← t.lastDirectory route
    match ← t.lookUp place name with
    | none => .error .noSuchFile
    | some (.file content) => if route.closed then .error .notDirectory else .ok (.file content)
    | some .directory => .ok .directory

/-- **The content of a file.** -/
def read (t : FileTree) (path : String) : Except OsError Bytes :=
  match t.find path with
  | .ok (.file content) => .ok content
  | .ok .directory => .error .isDirectory
  | .error e => .error e

/-- Why the bytes asked for cannot be read from a file. -/
inductive RangeError where
  /-- The file cannot be read. -/
  | os (cause : OsError)
  /-- The file ends before they do. -/
  | short
deriving Repr, DecidableEq

/-- Some bytes of a file. No bytes can be read from anything that exists. -/
def readRange (t : FileTree) (path : String) (start count : Nat) : Except RangeError Bytes :=
  match t.find path with
  | .error e => .error (.os e)
  | .ok node =>
    if count = 0 then .ok #[]
    else
      match node with
      | .directory => .error (.os .isDirectory)
      | .file content =>
        if start + count ≤ content.size then .ok (Bytes.slice content start count)
        else .error .short

/-- **The tree with a file written**, anew or over an old one. The directory must exist. -/
def write (t : FileTree) (path : String) (content : Bytes) : Except OsError FileTree := do
  let route ← routeOf path
  match route.names.getLast? with
  | none => .error (if route.closed then .isDirectory else .noSuchFile)
  | some name =>
    let place ← t.lastDirectory route
    if route.closed then .error .isDirectory
    else
      match ← t.lookUp place name with
      | some .directory => .error .isDirectory
      | _ => .ok (t.put (place.child name) (.file content))

/-- Whether some names lead to a directory. They are given innermost first. -/
def isDirectory (t : FileTree) (start : Place) (inward : List String) : Bool :=
  (t.walk start inward.reverse).isOk

/-- The tree with a directory made at the end of some names, given innermost first. The directory it is
in must exist, and nothing must be in its place. -/
def makeDirectory (t : FileTree) (start : Place) : List String → Except OsError FileTree
  | [] => .error .fileExists
  | name :: outward => do
    let place ← t.walk start outward.reverse
    match ← t.lookUp place name with
    | some _ => .error .fileExists
    | none => .ok (t.put (place.child name) .directory)

/-- The names of the directory that a directory is in, innermost first. A dot that stays where it is
is not a name of its own, except for the directory itself. -/
def outwardNames (inward : List String) : List String :=
  ((inward.dropWhile (· = ".")).drop 1).dropWhile (· = ".")

theorem length_outwardNames_lt {inward : List String} (h : inward ≠ []) :
    (outwardNames inward).length < inward.length := by
  have inner := (List.dropWhile_sublist (l := inward) (· = ".")).length_le
  have outer := (List.dropWhile_sublist
    (l := (inward.dropWhile (· = ".")).drop 1) (· = ".")).length_le
  have := List.length_pos_iff.2 h
  rw [List.length_drop] at outer
  simp only [outwardNames]
  omega

/-- Makes a directory at the end of some names, given innermost first, and those it is in if they are
missing. What has been made stays made when something else cannot be. A directory that is there
already is as good as a new one. -/
def makeDirectories (t : FileTree) (start : Place) (inward : List String) :
    FileTree × Except OsError Unit :=
  match t.makeDirectory start inward with
  | .ok made => (made, .ok ())
  | .error .noSuchFile =>
    if missing : inward = [] then (t, .error .noSuchFile)
    else
      have := length_outwardNames_lt missing
      match t.makeDirectories start (outwardNames inward) with
      | (around, .error cause) => (around, .error cause)
      | (around, .ok ()) =>
        match around.makeDirectory start inward with
        | .ok made => (made, .ok ())
        | .error cause =>
          (around, if around.isDirectory start inward then .ok () else .error cause)
  | .error cause => (t, if t.isDirectory start inward then .ok () else .error cause)
termination_by inward.length

/-- **The tree with a directory and those it is in**, which may exist already. A path that ends in a dot
means a directory that must exist before the dot is followed, so that its last directory is not
made. -/
def createDirectory (t : FileTree) (path : String) : FileTree × Except OsError Unit :=
  match routeOf path with
  | .ok route => t.makeDirectories route.start route.names.reverse
  | .error cause => (t, .error cause)

/-- The tree without a file. Directories, and what does not exist, are left alone. -/
def remove (t : FileTree) (path : String) : FileTree :=
  let route := Route.ofPath path
  match route.names.getLast?, t.lastDirectory route, t.find path with
  | some name, .ok place, .ok (.file _) => t.erase (place.child name)
  | _, _, _ => t

/-- The tree with a file and the directories it is in; a path that ends in a slash gives an empty
directory. A file that cannot be placed is left out. -/
def place (t : FileTree) (path : String) (content : Bytes) : FileTree :=
  let route := Route.ofPath path
  let dirs := if route.closed then route.names else route.names.dropLast
  let (made, _) := t.makeDirectories route.start dirs.reverse
  if route.closed then made
  else
    match made.write path content with
    | .ok written => written
    | .error _ => made

/-- A tree with some files. -/
def ofFiles (files : List (String × Bytes)) : FileTree :=
  files.foldl (fun t (path, content) => t.place path content) empty

/-- The files of some nodes, with their paths. -/
def filesOf (nodes : List (Place × Node)) : List (String × Bytes) :=
  nodes.filterMap fun (place, node) =>
    match node with
    | .file content => some (place.path, content)
    | .directory => none

/-- The files below a directory. -/
def filesBelow (t : FileTree) (dir : String) : List (String × Bytes) :=
  let route := Route.ofPath dir
  match t.walk route.start route.names with
  | .ok place => filesOf (t.nodes.filter fun (inner, _) => inner.isInside place)
  | .error _ => []

/-- What differs from an earlier tree. -/
def changedNodes (before after : FileTree) : List (Place × Node) :=
  after.nodes.filter fun (place, node) => before.node? place ≠ some node

/-- The files inside the working directory that are new or differ from an earlier tree. -/
def changes (before after : FileTree) : List (String × Bytes) :=
  filesOf ((changedNodes before after).filter fun (place, _) => place.isInside .here)

theorem node?_put_self {t : FileTree} {place : Place} (h : place.isBase = false) (node : Node) :
    (t.put place node).node? place = some node := by
  simp [node?, put, h]

theorem node?_put_of_ne {t : FileTree} {place other : Place} (h : other ≠ place) (node : Node) :
    (t.put place node).node? other = t.node? other := by
  simp only [node?, put]
  split
  · rfl
  · congr 1
    rw [List.find?_cons_of_neg (by simpa using Ne.symm h), List.find?_filter]
    congr 1
    funext entry
    by_cases same : entry.1 = other <;> simp [same, h]

end FileTree

end Cinematic
