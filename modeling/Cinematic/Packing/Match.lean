import Cinematic.Packing.Token

/-!
# Finding earlier occurrences

A packer looks for the longest string at its position that occurred before. It looks only where
the next two bytes occurred: an **index** keeps the latest position of every pair of bytes, and for
every position the one before it with the same pair. The search follows these links while the
positions are within reach of a copy, and gives up after `Cinematic.Packing.maxCandidates` of them.

Of two strings of the same length the later one is found, because it has the smaller distance
and may fit a shorter form.
-/

namespace Cinematic.Packing

/-- How many earlier positions are compared at most. -/
def maxCandidates : Nat := 256

/-- An earlier occurrence; its length is zero if there is none. -/
structure Match where
  /-- How many bytes agree. -/
  length : Nat
  /-- How far back they stand. -/
  distance : Nat
deriving Repr, DecidableEq

/-- No occurrence. -/
def Match.none : Match := ⟨0, 0⟩

/-- Whether a copy is written for a match: it must save space over the bytes themselves. -/
def Match.Worthwhile (m : Match) : Prop := 3 ≤ m.length ∨ (m.length = 2 ∧ m.distance ≤ 0xff)

instance (m : Match) : Decidable m.Worthwhile := by
  unfold Match.Worthwhile
  infer_instance

theorem Match.Worthwhile.length_pos {m : Match} (h : m.Worthwhile) : 0 < m.length := by
  rcases h with h | ⟨h, _⟩ <;> omega

/-- How many bytes from `q` on agree with those from `p` on, up to a limit. -/
def agreement (data : Bytes) (q p : Nat) : Nat → Nat
  | 0 => 0
  | limit + 1 =>
    if data.byteAt q = data.byteAt p then agreement data (q + 1) (p + 1) limit + 1 else 0

/-- A pair of bytes as a number. -/
def pairKey (first second : UInt8) : Fin 65536 :=
  ⟨first.toNat * 256 + second.toNat, by
    have := first.toNat_lt
    have := second.toNat_lt
    omega⟩

/-- The pair of bytes at a position, unless it is the last one. -/
def pairAt? (data : Bytes) (pos : Nat) : Option (Fin 65536) :=
  if pos + 1 < data.size then some (pairKey (data.byteAt pos) (data.byteAt (pos + 1))) else none

/-- Where pairs of bytes stand, as links from one position to the one before. -/
structure Index where
  /-- The latest position of each pair. -/
  latest : Vector (Option Nat) 65536
  /-- The position before each position that has the same pair. -/
  before : Array (Option Nat)

namespace Index

/-- The index of no position of some data. -/
def empty (data : Bytes) : Index := ⟨Vector.replicate 65536 none, Array.replicate data.size none⟩

/-- Enters a position. -/
def insert (index : Index) (data : Bytes) (pos : Nat) : Index :=
  match pairAt? data pos with
  | none => index
  | some key =>
    let ⟨latest, before⟩ := index
    -- the link comes first, so that both tables are changed in their place
    let linked := before.setIfInBounds pos (latest.get key)
    ⟨latest.set key (some pos), linked⟩

/-- Enters `count` positions from `pos` on. -/
def insertMany (index : Index) (data : Bytes) (pos : Nat) : Nat → Index
  | 0 => index
  | count + 1 => insertMany (index.insert data pos) data (pos + 1) count

/-- The position that the link of a position leads to. -/
def previous? (index : Index) (q : Nat) : Option Nat := index.before[q]?.getD none

/-- The best of a match found so far and those at the positions that the links lead to, of which no
more than the given number are tried. -/
def improve (index : Index) (data : Bytes) (pos limit : Nat) : Nat → Option Nat → Match → Match
  | 0, _, best => best
  | _ + 1, none, best => best
  | tries + 1, some q, best =>
    if pos - q ≤ maxDistance then
      let length := agreement data q pos limit
      if best.length < length then
        if length = limit then ⟨length, pos - q⟩
        else improve index data pos limit tries (index.previous? q) ⟨length, pos - q⟩
      else improve index data pos limit tries (index.previous? q) best
    else best

/-- **The longest earlier occurrence of the bytes at a position.** -/
def longestMatch (index : Index) (data : Bytes) (pos : Nat) : Match :=
  match pairAt? data pos with
  | none => .none
  | some key =>
    index.improve data pos (min maxCopy (data.size - pos)) maxCandidates (index.latest.get key) .none

end Index

end Cinematic.Packing
