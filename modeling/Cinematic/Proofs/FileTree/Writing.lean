import Cinematic.Proofs.FileTree.Keeping

/-!
# What writing a file changes

Writing a file adds or changes this one file, and **the directories are just those that were there
before** (`Cinematic.FileTree.beside_write`). So writing does not only keep the files of other names:
whatever is looked for in a directory that is there, under a name that has not been written, is found
as before or missed as before, for the same reason (`Cinematic.FileTree.Beside.find_join`). And a file
that could be written, or could not be, still can or cannot be, even under the same name
(`Cinematic.FileTree.Beside.write_join`).

What has been written is read (`Cinematic.FileTree.read_write_self`).

The directory has to be there. On the way to one that is not, a file that has been written may now
stand where nothing stood, and the reason becomes another one.
-/

namespace Cinematic

/-- Sequences are equal that go on alike where their first part succeeds. -/
theorem bind_congr_of_ok {ε α β : Type} {x : Except ε α} {f g : α → Except ε β}
    (alike : ∀ a, x = .ok a → f a = g a) : (x >>= f) = x >>= g := by
  rcases x with e | a
  · rfl
  · exact alike a rfl

/-- How a sequence fails. -/
theorem bind_eq_error_iff {ε α β : Type} {x : Except ε α} {f : α → Except ε β} {e : ε} :
    (x >>= f) = .error e ↔ x = .error e ∨ ∃ a, x = .ok a ∧ f a = .error e := by
  rcases x with e' | a
  · constructor
    · rintro ⟨⟩
      exact .inl rfl
    · rintro (⟨⟨⟩⟩ | ⟨_, ⟨⟩, _⟩)
      rfl
  · constructor
    · exact fun failed => .inr ⟨a, rfl, failed⟩
    · rintro (⟨⟨⟩⟩ | ⟨_, ⟨⟩, failed⟩)
      exact failed

namespace FileTree

variable {t t' : FileTree} {place place' : Place} {dir name : String} {content : Bytes}

/-! ### Names in a directory -/

/-- The directory at the end of a path. -/
def reach (t : FileTree) (path : String) : Except OsError Place :=
  t.walk (Route.ofPath path).start (Route.ofPath path).names

namespace Nameable

variable (nameable : Nameable name)
include nameable

theorem toList_ne_nil : name.toList ≠ [] := fun none =>
  nameable.proper (String.toList_eq_nil_iff.1 none)

theorem start_join (dir : String) :
    (Route.ofPath (join dir name)).start = (Route.ofPath dir).start := by
  have head : (join dir name).toList.head? = some '/' ↔ dir.toList.head? = some '/' := by
    unfold join
    split
    · next none =>
      rw [String.isEmpty_iff.1 none]
      refine ⟨fun slash => absurd (List.mem_of_mem_head? slash) nameable.single, ?_⟩
      rintro ⟨⟩
    · next some =>
      have some : dir.toList ≠ [] := fun none =>
        some (String.isEmpty_iff.2 (String.toList_eq_nil_iff.1 none))
      split
      · rw [String.toList_append, List.head?_append_of_ne_nil _ some]
      · rw [String.toList_append, String.toList_append, List.append_assoc,
          List.head?_append_of_ne_nil _ some]
  exact if_congr head rfl rfl

theorem closed_join (dir : String) : (Route.ofPath (join dir name)).closed = false := by
  have last : (join dir name).toList.getLast? = name.toList.getLast? := by
    unfold join
    split
    · rfl
    · split
      · rw [String.toList_append, List.getLast?_append_of_ne_nil _ nameable.toList_ne_nil]
      · rw [String.toList_append, List.getLast?_append_of_ne_nil _ nameable.toList_ne_nil]
  change decide ((join dir name).toList.getLast? = some '/') = false
  rw [last, decide_eq_false_iff_not]
  exact fun slash => nameable.single (List.mem_of_getLast? slash)

/-- A name in a directory is looked up where the path of the directory leads. -/
theorem lastDirectory_join (t : FileTree) (dir : String) :
    t.lastDirectory (Route.ofPath (join dir name)) = t.reach dir := by
  rw [lastDirectory, nameable.start_join, nameable.names_join, List.dropLast_concat, reach]

/-- Whatever is found in a directory has been looked for where its path leads. -/
theorem reach_of_find {node : Node} (found : t.find (join dir name) = .ok node) :
    ∃ place, t.reach dir = .ok place := by
  obtain ⟨-, place, walked, -⟩ := (find_join_eq_ok_iff nameable).1 found
  rw [nameable.lastDirectory_join] at walked
  exact ⟨place, walked⟩

/-- **A file that is written** in a directory. -/
theorem write_join_eq_ok (written : t.write (join dir name) content = .ok t') :
    ∃ place, t.reach dir = .ok place ∧ t.node? (name :: place) ≠ some .directory ∧
      t' = t.put (name :: place) (.file content) := by
  obtain ⟨route, routed, written⟩ := bind_eq_ok_iff.1 written
  rw [routeOf_eq_ok routed, nameable.getLast?_join dir] at written
  obtain ⟨place, walked, written⟩ := bind_eq_ok_iff.1 written
  rw [nameable.lastDirectory_join] at walked
  refine ⟨place, walked, ?_⟩
  rw [nameable.closed_join, if_neg Bool.false_ne_true] at written
  obtain ⟨seen, looked, written⟩ := bind_eq_ok_iff.1 written
  obtain ⟨-, here⟩ := lookUp_eq_ok_iff.1 looked
  rw [nameable.child] at here written
  split at written
  · cases written
  · next free =>
    cases written
    exact ⟨fun directory => free (here.symm.trans directory), rfl⟩

end Nameable

/-! ### Trees that differ in some files -/

/-- **The trees have the same directories, and differ in files of some names only.** -/
structure Beside (written : String → Prop) (t t' : FileTree) : Prop where
  directory (place : Place) : t'.node? place = some .directory ↔ t.node? place = some .directory
  other (name : String) (outer : Place) : ¬ written name →
    t'.node? (name :: outer) = t.node? (name :: outer)

variable {written : String → Prop}

theorem Beside.refl (written : String → Prop) (t : FileTree) : Beside written t t :=
  ⟨fun _ => Iff.rfl, fun _ _ _ => rfl⟩

/-- Where there is no directory, there is none that is always there. -/
theorem inner_of_free (free : t.node? place ≠ some .directory) : place.isBase = false := by
  by_contra base
  exact free (if_pos (Bool.not_eq_false _ ▸ base))

/-- **Writing a file.** -/
theorem beside_write (nameable : Nameable name) (named : written name)
    (done : t.write (join dir name) content = .ok t') : Beside written t t' := by
  obtain ⟨place, -, free, rfl⟩ := nameable.write_join_eq_ok done
  constructor
  · intro other
    rcases eq_or_ne other (name :: place) with rfl | apart
    · rw [node?_put_self (inner_of_free free)]
      exact ⟨nofun, fun directory => absurd directory free⟩
    · rw [node?_put_of_ne apart]
  · intro other outer unnamed
    refine node?_put_of_ne ?_ _
    rintro ⟨⟩
    exact unnamed named

namespace Beside

variable (beside : Beside written t t')
include beside

theorem walk_eq_ok_iff {names : List String} :
    t'.walk place names = .ok place' ↔ t.walk place names = .ok place' := by
  induction names generalizing place with
  | nil => exact Iff.rfl
  | cons name names ih =>
    have step {next : Place} : t'.enter place name = .ok next ↔ t.enter place name = .ok next := by
      rw [enter_eq_ok_iff, enter_eq_ok_iff, lookUp_eq_ok_iff, lookUp_eq_ok_iff, beside.directory]
    rw [FileTree.walk, FileTree.walk, List.foldlM_cons, List.foldlM_cons, bind_eq_ok_iff,
      bind_eq_ok_iff]
    exact exists_congr fun next => and_congr step ih

theorem reach_eq_ok_iff : t'.reach dir = .ok place ↔ t.reach dir = .ok place :=
  beside.walk_eq_ok_iff

/-- **Under a name that has not been written** one finds what one found, or misses it for the same
reason. -/
theorem find_join (nameable : Nameable name) (unnamed : ¬ written name)
    (reached : t.reach dir = .ok place) : t'.find (join dir name) = t.find (join dir name) := by
  have reached' := beside.reach_eq_ok_iff.2 reached
  have looked : t'.lookUp place name = t.lookUp place name := by
    rw [lookUp, lookUp, nameable.child, beside.other _ _ unnamed]
  refine bind_congr_of_ok fun route routed => ?_
  rw [routeOf_eq_ok routed, nameable.getLast?_join]
  dsimp only
  rw [nameable.lastDirectory_join, nameable.lastDirectory_join, reached, reached']
  refine bind_congr_of_ok ?_
  rintro _ ⟨⟩
  rw [looked]

/-- **What can be written**, and the reason why it cannot, do not depend on what has been written. -/
theorem write_join (nameable : Nameable name) (reached : t.reach dir = .ok place) (content : Bytes)
    (cause : OsError) : t'.write (join dir name) content = .error cause ↔
      t.write (join dir name) content = .error cause := by
  have reached' := beside.reach_eq_ok_iff.2 reached
  rw [write, write, bind_eq_error_iff, bind_eq_error_iff]
  refine or_congr_right (exists_congr fun route => and_congr_right fun routed => ?_)
  rw [routeOf_eq_ok routed, nameable.getLast?_join]
  dsimp only
  rw [nameable.lastDirectory_join, nameable.lastDirectory_join, reached, reached',
    nameable.closed_join, bind_eq_error_iff, bind_eq_error_iff]
  refine or_congr_right (exists_congr fun last => and_congr_right ?_)
  rintro ⟨⟩
  rw [if_neg Bool.false_ne_true, if_neg Bool.false_ne_true]
  unfold lookUp
  split
  · exact Iff.rfl
  · -- a directory is in the way in both trees or in neither
    rw [nameable.child]
    by_cases directory : t.node? (name :: place) = some .directory
    · rw [directory, (beside.directory _).2 directory]
      exact Iff.rfl
    · have directory' := mt (beside.directory _).1 directory
      rw [bind_eq_error_iff, bind_eq_error_iff]
      constructor
      · rintro (⟨⟨⟩⟩ | ⟨_, ⟨⟩, failed⟩)
        split at failed
        · next here => exact absurd here directory'
        · cases failed
      · rintro (⟨⟨⟩⟩ | ⟨_, ⟨⟩, failed⟩)
        split at failed
        · next here => exact absurd here directory
        · cases failed

end Beside

/-! ### Reading what has been written -/

/-- A file that is written could be looked up, and its place is inside a directory. -/
theorem Nameable.routed_of_write (nameable : Nameable name)
    (written : t.write (join dir name) content = .ok t') :
    (∃ route, routeOf (join dir name) = .ok route) ∧ ¬ maxNameLength < name.utf8ByteSize := by
  obtain ⟨route, routed, written⟩ := bind_eq_ok_iff.1 written
  rw [routeOf_eq_ok routed, nameable.getLast?_join dir] at written
  obtain ⟨place, -, written⟩ := bind_eq_ok_iff.1 written
  rw [nameable.closed_join, if_neg Bool.false_ne_true] at written
  obtain ⟨seen, looked, -⟩ := bind_eq_ok_iff.1 written
  exact ⟨⟨route, routed⟩, (lookUp_eq_ok_iff.1 looked).1⟩

/-- **What has been written is read.** -/
theorem read_write_self (nameable : Nameable name)
    (done : t.write (join dir name) content = .ok t') : t'.read (join dir name) = .ok content := by
  obtain ⟨routed, short⟩ := nameable.routed_of_write done
  have beside : Beside (· = name) t t' := beside_write nameable rfl done
  obtain ⟨place, reached, free, rfl⟩ := nameable.write_join_eq_ok done
  have found : (t.put (name :: place) (.file content)).find (join dir name)
      = .ok (.file content) := by
    refine (find_join_eq_ok_iff nameable).2 ⟨routed, place, ?_, ?_, fun closed => ?_⟩
    · rw [nameable.lastDirectory_join]
      exact beside.reach_eq_ok_iff.2 reached
    · rw [lookUp_eq_ok_iff, nameable.child]
      exact ⟨short, node?_put_self (inner_of_free free) _⟩
    · cases (nameable.closed_join dir).symm.trans closed
  rw [read, found]

/-- **A file of another name** in the same directory is read as before. -/
theorem read_write_of_ne {other : String} (nameable : Nameable name) (nameable' : Nameable other)
    (apart : other ≠ name) (done : t.write (join dir name) content = .ok t') :
    t'.read (join dir other) = t.read (join dir other) := by
  have beside : Beside (· = name) t t' := beside_write nameable rfl done
  obtain ⟨place, reached, -⟩ := nameable.write_join_eq_ok done
  rw [read, read, beside.find_join nameable' apart reached]

end FileTree

end Cinematic
