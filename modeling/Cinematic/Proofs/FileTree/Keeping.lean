import Cinematic.FileTree.Basic
import Cinematic.Proofs.Text.Inline

/-!
# What writing leaves alone

A file that has been read once can be read again as long as nobody writes it, and as long as the
directories on the way to it are still there. Directories are never lost: a file is not written over
one, and a new one is made only where nothing stood. So **what is written under other names leaves
the files of some names alone** (`Cinematic.FileTree.Keeps`), and they are found as before
(`Cinematic.FileTree.Keeps.find`).

Names are compared and not paths, since many paths lead to one file. The last name on the path of a
name in a directory is this name, whatever the directory is called
(`Cinematic.FileTree.Nameable.getLast?_join`), as long as it is a name and does not lead anywhere
else.
-/

namespace Cinematic

/-- How a sequence succeeds. -/
theorem bind_eq_ok_iff {ε α β : Type} {x : Except ε α} {f : α → Except ε β} {b : β} :
    (x >>= f) = .ok b ↔ ∃ a, x = .ok a ∧ f a = .ok b := by
  rcases x with e | a
  · exact ⟨fun failed => (by cases failed), fun ⟨_, failed, _⟩ => (by cases failed)⟩
  · exact ⟨fun done => ⟨a, rfl, done⟩, fun ⟨_, same, done⟩ => Except.ok.inj same ▸ done⟩

namespace FileTree

/-! ### Names -/

/-- **A name that can be looked up in a directory** and leads to what stands there under this
name. -/
structure Nameable (name : String) : Prop where
  single : '/' ∉ name.toList
  proper : name ≠ ""
  /-- It does not stay where it is. -/
  one : name ≠ "."
  /-- It does not lead up. -/
  two : name ≠ ".."

/-- A name of more than two characters. -/
theorem nameable_of_length {name : String} (single : '/' ∉ name.toList) (long : 2 < name.length) :
    Nameable name := by
  refine ⟨single, ?_, ?_, ?_⟩
  all_goals
    rintro rfl
    revert long
    decide

/-- A slash divides the names before it from those behind it. -/
theorem Route.names_of_toList {path front rest : String}
    (shape : path.toList = front.toList ++ '/' :: rest.toList) :
    (Route.ofPath path).names = (Route.ofPath front).names ++ (Route.ofPath rest).names := by
  change (Text.pieces '/' path).filter (· ≠ "") = _
  rw [Text.pieces, shape, Text.piecesOf_append, List.map_append, List.filter_append]
  rfl

namespace Nameable

variable {name : String} (nameable : Nameable name)
include nameable

theorem child (place : Place) : place.child name = name :: place :=
  Place.child_of_ne nameable.one nameable.two

theorem names : (Route.ofPath name).names = [name] := by
  have whole : Text.pieces '/' name = [name] := by
    rw [Text.pieces, Text.piecesOf_of_not_mem nameable.single, List.map_singleton,
      String.ofList_toList]
  change (Text.pieces '/' name).filter (· ≠ "") = [name]
  rw [whole, List.filter_eq_self]
  simp [nameable.proper]

/-- **The names on the path of a name in a directory** are those on the path of the directory, and
this one. -/
theorem names_join (dir : String) :
    (Route.ofPath (join dir name)).names = (Route.ofPath dir).names ++ [name] := by
  unfold join
  split
  · next none =>
    rw [String.isEmpty_iff.1 none]
    exact nameable.names
  · split
    · next slash =>
      obtain ⟨front, shape⟩ := List.getLast?_eq_some_iff.1 slash
      have ends : dir.toList = (String.ofList front).toList ++ '/' :: "".toList := by
        rw [shape, String.toList_ofList]
        rfl
      have continues : (dir ++ name).toList = (String.ofList front).toList ++ '/' :: name.toList := by
        rw [String.toList_append, shape, String.toList_ofList, List.append_assoc]
        rfl
      rw [Route.names_of_toList continues, Route.names_of_toList ends, nameable.names]
      exact congrArg (· ++ [name]) (List.append_nil _).symm
    · have continues : (dir ++ "/" ++ name).toList = dir.toList ++ '/' :: name.toList := by
        rw [String.toList_append, String.toList_append, List.append_assoc]
        rfl
      rw [Route.names_of_toList continues, nameable.names]

/-- **The path of a name in a directory ends with the name.** -/
theorem getLast?_join (dir : String) :
    (Route.ofPath (join dir name)).names.getLast? = some name := by
  rw [nameable.names_join, List.getLast?_concat]

end Nameable

/-! ### Following a path -/

variable {t t' t'' : FileTree} {place place' : Place} {dir name : String} {node : Node}

theorem lookUp_eq_ok_iff {seen : Option Node} : t.lookUp place name = .ok seen ↔
    ¬ maxNameLength < name.utf8ByteSize ∧ t.node? (place.child name) = seen := by
  unfold lookUp
  split
  · next long => exact ⟨fun looked => (by cases looked), fun ⟨short, _⟩ => absurd long short⟩
  · next short => exact ⟨fun looked => ⟨short, Except.ok.inj looked⟩, fun ⟨_, same⟩ => same ▸ rfl⟩

theorem enter_eq_ok_iff : t.enter place name = .ok place' ↔
    t.lookUp place name = .ok (some .directory) ∧ place' = place.child name := by
  unfold enter
  constructor
  · intro entered
    split at entered
    · cases entered
    · cases entered
    · cases entered
    · next looked => exact ⟨looked, (Except.ok.inj entered).symm⟩
  · rintro ⟨looked, rfl⟩
    rw [looked]

theorem routeOf_eq_ok {path : String} {route : Route} (routed : routeOf path = .ok route) :
    route = Route.ofPath path := by
  unfold routeOf at routed
  split at routed
  · cases routed
  · split at routed
    · cases routed
    · exact (Except.ok.inj routed).symm

/-- **What is found under a name in a directory.** -/
theorem find_join_eq_ok_iff (nameable : Nameable name) : t.find (join dir name) = .ok node ↔
    (∃ route, routeOf (join dir name) = .ok route) ∧
      ∃ place, t.lastDirectory (Route.ofPath (join dir name)) = .ok place ∧
        t.lookUp place name = .ok (some node) ∧
        ((Route.ofPath (join dir name)).closed = true → node = .directory) := by
  have last := nameable.getLast?_join dir
  rw [FileTree.find, bind_eq_ok_iff]
  constructor
  · rintro ⟨route, routed, found⟩
    refine ⟨⟨route, routed⟩, ?_⟩
    rw [routeOf_eq_ok routed, last] at found
    obtain ⟨place, walked, found⟩ := bind_eq_ok_iff.1 found
    obtain ⟨seen, looked, found⟩ := bind_eq_ok_iff.1 found
    refine ⟨place, walked, ?_⟩
    rw [looked]
    split at found
    · cases found
    · split at found
      · cases found
      · next opened =>
        cases found
        exact ⟨rfl, fun closed => absurd closed opened⟩
    · cases found
      exact ⟨rfl, fun _ => rfl⟩
  · rintro ⟨⟨route, routed⟩, place, walked, looked, closed⟩
    refine ⟨route, routed, ?_⟩
    rw [routeOf_eq_ok routed, last]
    refine bind_eq_ok_iff.2 ⟨place, walked, bind_eq_ok_iff.2 ⟨some node, looked, ?_⟩⟩
    cases node with
    | directory => rfl
    | file content =>
      have opened : ¬ (Route.ofPath (join dir name)).closed = true := fun h => by cases closed h
      exact if_neg opened

/-! ### Trees that keep files -/

variable {kept : String → Prop}

/-- **Directories, and the files of some names, are where they were.** -/
structure Keeps (kept : String → Prop) (t t' : FileTree) : Prop where
  directory (place : Place) : t.node? place = some .directory → t'.node? place = some .directory
  file (name : String) (outer : Place) (content : Bytes) : kept name →
    t.node? (name :: outer) = some (.file content) → t'.node? (name :: outer) = some (.file content)

theorem Keeps.refl (kept : String → Prop) (t : FileTree) : Keeps kept t t :=
  ⟨fun _ => id, fun _ _ _ _ => id⟩

theorem Keeps.trans (first : Keeps kept t t') (second : Keeps kept t' t'') : Keeps kept t t'' where
  directory place here := second.directory place (first.directory place here)
  file name outer content known here :=
    second.file name outer content known (first.file name outer content known here)

theorem Keeps.enter (keeps : Keeps kept t t') (entered : t.enter place name = .ok place') :
    t'.enter place name = .ok place' := by
  obtain ⟨looked, rfl⟩ := enter_eq_ok_iff.1 entered
  obtain ⟨short, here⟩ := lookUp_eq_ok_iff.1 looked
  exact enter_eq_ok_iff.2 ⟨lookUp_eq_ok_iff.2 ⟨short, keeps.directory _ here⟩, rfl⟩

/-- **Directories that could be walked through still can.** -/
theorem Keeps.walk (keeps : Keeps kept t t') {names : List String}
    (walked : t.walk place names = .ok place') : t'.walk place names = .ok place' := by
  induction names generalizing place with
  | nil => exact walked
  | cons name names ih =>
    rw [FileTree.walk, List.foldlM_cons] at walked ⊢
    obtain ⟨next, entered, walked⟩ := bind_eq_ok_iff.1 walked
    exact bind_eq_ok_iff.2 ⟨next, keeps.enter entered, ih walked⟩

/-- **A file of a kept name is found as before**, and so is a directory. -/
theorem Keeps.find (keeps : Keeps kept t t') (nameable : Nameable name) (known : kept name)
    (found : t.find (join dir name) = .ok node) : t'.find (join dir name) = .ok node := by
  obtain ⟨routed, place, walked, looked, closed⟩ := (find_join_eq_ok_iff nameable).1 found
  obtain ⟨short, here⟩ := lookUp_eq_ok_iff.1 looked
  refine (find_join_eq_ok_iff nameable).2
    ⟨routed, place, keeps.walk walked, lookUp_eq_ok_iff.2 ⟨short, ?_⟩, closed⟩
  rw [nameable.child] at here ⊢
  cases node with
  | directory => exact keeps.directory _ here
  | file content => exact keeps.file _ _ _ known here

/-! ### Writing -/

/-- A directory that is made where nothing stood. -/
theorem keeps_put_directory (vacant : t.node? place = none) :
    Keeps kept t (t.put place .directory) := by
  have apart {other : Place} {node : Node} (here : t.node? other = some node) : other ≠ place := by
    rintro rfl
    cases vacant.symm.trans here
  refine ⟨fun other here => ?_, fun name outer content _ here => ?_⟩
  · rw [node?_put_of_ne (apart here)]
    exact here
  · rw [node?_put_of_ne (apart here)]
    exact here

/-- A file of another name, written where there is no directory. -/
theorem keeps_put_file (other : ¬ kept name) (free : t.node? (name :: place) ≠ some .directory)
    (content : Bytes) : Keeps kept t (t.put (name :: place) (.file content)) := by
  refine ⟨fun place' here => ?_, fun name' outer content' known here => ?_⟩
  · rw [node?_put_of_ne (by rintro rfl; exact free here)]
    exact here
  · rw [node?_put_of_ne (by rintro ⟨⟩; exact other known)]
    exact here

/-- **Writing a file of another name.** -/
theorem keeps_write (nameable : Nameable name) (other : ¬ kept name) {content : Bytes}
    (written : t.write (join dir name) content = .ok t') : Keeps kept t t' := by
  obtain ⟨route, routed, written⟩ := bind_eq_ok_iff.1 written
  rw [routeOf_eq_ok routed, nameable.getLast?_join dir] at written
  obtain ⟨place, walked, written⟩ := bind_eq_ok_iff.1 written
  split at written
  · cases written
  · obtain ⟨seen, looked, written⟩ := bind_eq_ok_iff.1 written
    obtain ⟨-, here⟩ := lookUp_eq_ok_iff.1 looked
    rw [nameable.child] at here written
    split at written
    · cases written
    · next free =>
      cases written
      exact keeps_put_file other (fun directory => free (here.symm.trans directory)) content

theorem keeps_makeDirectory {start : Place} {inward : List String}
    (made : t.makeDirectory start inward = .ok t') : Keeps kept t t' := by
  cases inward with
  | nil => cases made
  | cons name outward =>
    obtain ⟨place, walked, made⟩ := bind_eq_ok_iff.1 made
    obtain ⟨seen, looked, made⟩ := bind_eq_ok_iff.1 made
    split at made
    · cases made
    · cases made
      exact keeps_put_directory (lookUp_eq_ok_iff.1 looked).2

theorem keeps_makeDirectories (t : FileTree) (start : Place) (inward : List String) :
    Keeps kept t (t.makeDirectories start inward).1 := by
  fun_induction makeDirectories t start inward with
  | case1 _ _ made => exact keeps_makeDirectory made
  | case2 => exact .refl kept t
  | case3 _ _ _ _ _ _ around before =>
    rw [around] at before
    exact before
  | case4 _ _ _ _ _ around _ made before =>
    rw [around] at before
    exact before.trans (keeps_makeDirectory made)
  | case5 _ _ _ _ _ around _ _ before =>
    rw [around] at before
    exact before
  | case6 => exact .refl kept t

/-- **Making directories.** -/
theorem keeps_createDirectory (t : FileTree) (path : String) :
    Keeps kept t (t.createDirectory path).1 := by
  unfold createDirectory
  split
  · exact keeps_makeDirectories t _ _
  · exact .refl kept t

end FileTree

end Cinematic
