import Cinematic.MemoryList.Basic
import Cinematic.Text.Hundredths

/-!
# Totals of a memory list

How much space packing saves is shown per kind of resource and for all of them. A **total** is a
number of resources with the sums of their packed and unpacked sizes; the kinds without a
meaning share one total.

Resources are counted one after the other, **in words of 32 bits**: each is added to the tally of its
kind and to the tally of everything. Words wrap around when a sum is too large for them, so a total
is what a tally shows, and not in all cases what was to be summed up
(`Cinematic.MemoryList.totals_exact` says that nothing is lost in a memory list that has been read).

Percentages are single-precision numbers, computed in the order written here.
-/

namespace Cinematic

/-- The resources of some sort, counted and added up. -/
structure Total where
  /-- How many there are. -/
  count : Nat
  /-- Their packed sizes together. -/
  packed : Nat
  /-- Their unpacked sizes together. -/
  unpacked : Nat
deriving Repr, DecidableEq

/-- A total while it is counted. -/
structure Tally where
  /-- How many resources there have been. -/
  count : UInt32
  /-- Their packed sizes together. -/
  packed : UInt32
  /-- Their unpacked sizes together. -/
  unpacked : UInt32
deriving Repr, DecidableEq

namespace Tally

/-- The tally of no resource. -/
def zero : Tally := ⟨0, 0, 0⟩

/-- A tally with one more resource. -/
def add (t : Tally) (e : MemoryEntry) : Tally :=
  ⟨t.count + 1, t.packed + e.packedSize.toUInt32, t.unpacked + e.unpackedSize.toUInt32⟩

/-- What a tally shows. -/
def total (t : Tally) : Total := ⟨t.count.toNat, t.packed.toNat, t.unpacked.toNat⟩

end Tally

/-- A size as a single-precision number. -/
def sizeAsFloat (n : Nat) : Float32 := n.toUInt32.toFloat32

/-- The space saved by packing, in percent; it is negative if packing made things worse. -/
def gain (packed unpacked : Nat) : Float32 :=
  if unpacked = 0 then 0.0 else 100.0 * (1.0 - sizeAsFloat packed / sizeAsFloat unpacked)

/-- What percentage one size is of another. -/
def percent (part whole : Nat) : Float32 :=
  if whole = 0 then 0.0 else 100.0 * sizeAsFloat part / sizeAsFloat whole

/-- The space saved by packing the resources of a total. -/
def Total.gain (t : Total) : Float32 := Cinematic.gain t.packed t.unpacked

namespace MemoryList

/-- The tallies of a memory list while it is counted. -/
structure Tallies where
  /-- One for each known kind, in the order of their bytes, and one for all others together. -/
  rows : List Tally
  /-- The one for everything. -/
  whole : Tally
deriving Repr, DecidableEq

namespace Tallies

/-- Which row the resources of a kind are counted in. -/
def slot (kind : Resource.Kind) : Nat := Resource.Kind.known.findIdx (· = kind)

/-- The names of the rows. -/
def names : List String := Resource.Kind.known.map Resource.Kind.name ++ ["unknown"]

/-- The tallies before any resource has been counted. -/
def zero : Tallies := ⟨names.map fun _ => .zero, .zero⟩

/-- The tally of a row. -/
def row (t : Tallies) (i : Nat) : Tally := t.rows.getD i .zero

/-- The tallies with one more resource counted. -/
def add (t : Tallies) (e : MemoryEntry) : Tallies where
  rows := t.rows.set (slot e.kind) ((t.row (slot e.kind)).add e)
  whole := t.whole.add e

end Tallies

/-- A memory list counted. -/
def tallies (l : MemoryList) : Tallies := l.entries.foldl Tallies.add .zero

/-- **The totals of a memory list**: one for each known kind, one for all others together, and one for
everything. -/
def totals (l : MemoryList) : List (String × Total) :=
  let counted := l.tallies
  Tallies.names.zip (counted.rows.map Tally.total) ++ [("total", counted.whole.total)]

/-! ### The two tables -/

/-- The line between the parts of the table of resources. -/
def entryRule : String := "+------+----------+---------------+---------------+---------+"

/-- The line between the parts of the table of totals. -/
def totalRule : String :=
  "+----------+-------+---------------+---------------+---------+---------+"

/-- A percentage flush right in six places. -/
def percentCell (x : Float32) : String := Text.padStart 6 ' ' (Text.twoDecimals x) ++ "%"

/-- The row of a resource. -/
def entryRow (e : MemoryEntry) : String :=
  "| " ++ Text.hexMarked 2 e.id.toNat ++ " | " ++ Text.padEnd 8 e.kind.name ++ " | "
    ++ Text.flushRight 7 e.packedSize.toNat ++ " bytes | "
    ++ Text.flushRight 7 e.unpackedSize.toNat ++ " bytes | "
    ++ percentCell (gain e.packedSize.toNat e.unpackedSize.toNat) ++ " |"

/-- The row of a total; `whole` is the unpacked size of everything. -/
def totalRow (whole : Nat) (name : String) (t : Total) : String :=
  "| " ++ Text.padEnd 8 name ++ " | " ++ Text.flushRight 5 t.count ++ " | "
    ++ Text.flushRight 7 t.packed ++ " bytes | " ++ Text.flushRight 7 t.unpacked ++ " bytes | "
    ++ percentCell t.gain ++ " | " ++ percentCell (percent t.unpacked whole) ++ " |"

/-- **The listing of a memory list**: a table of its resources and a table of its totals. -/
def listing (l : MemoryList) : String :=
  let totals := l.totals
  let whole := l.tallies.whole.total.unpacked
  Text.unlines <|
    [entryRule, "| id   | type     |   packed-size | unpacked-size |  gain % |", entryRule]
      ++ l.entries.toList.map entryRow
      ++ [entryRule, totalRule,
        "| type     | count |   packed-size | unpacked-size |  gain % | total % |", totalRule]
      ++ totals.map (fun (name, t) => totalRow whole name t)
      ++ [totalRule]

end MemoryList

end Cinematic
