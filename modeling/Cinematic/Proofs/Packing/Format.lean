import Mathlib.Data.Nat.Bits
import Mathlib.Tactic.Ring
import Cinematic.Packing.Layout
import Cinematic.Proofs.Bytes

/-!
# The format of packed blocks

What a block stands for, said without the program that expands it. A block is a **string of
bits**, and the string is a **script**: a sequence of tokens each of which emits some bytes.
`Cinematic.Packing.Represents` puts the two together with what the trailer promises.

## Which bits

Words are counted from the end of the block (`Cinematic.Packing.tailWord`). The first three are the
trailer: the length, the check word and the chunk. The string of bits
(`Cinematic.Packing.bitString`) begins with the bits of the chunk that lie below its highest set
bit and goes on with the full words below the trailer; every word is taken least significant bit
first.

## Which bytes

Bytes are emitted from the last to the first, so the list of what has been emitted grows at its
head: it is at any time the end of the data, in the order of the data. A copy counts its distance
in that list (`Cinematic.Packing.echo`), and may count into bytes that it emits itself.
-/

namespace Cinematic.Packing

/-! ### The bits of a number -/

/-- The low `count` bits of a number, least significant first. -/
def lowBits : Nat → Nat → List Bool
  | 0, _ => []
  | count + 1, n => decide (n % 2 = 1) :: lowBits count (n / 2)

@[simp] theorem length_lowBits (count n : Nat) : (lowBits count n).length = count := by
  induction count generalizing n with
  | zero => rfl
  | succ count ih => simp [lowBits, ih]

/-- Bits above those asked for do not matter. -/
theorem lowBits_mod (count n : Nat) : lowBits count (n % 2 ^ count) = lowBits count n := by
  induction count generalizing n with
  | zero => rfl
  | succ count ih =>
    have half : n % 2 ^ (count + 1) / 2 = n / 2 % 2 ^ count := by
      rw [Nat.pow_succ, Nat.mul_comm, Nat.mod_mul_right_div_self]
    have low : n % 2 ^ (count + 1) % 2 = n % 2 :=
      Nat.mod_mod_of_dvd n (Dvd.intro_left (2 ^ count) rfl)
    rw [lowBits, lowBits, low, half, ih]

/-- A number whose bits are given has these bits. -/
theorem lowBits_ofBits (bits : List Bool) : lowBits bits.length (ofBits bits) = bits := by
  induction bits with
  | nil => rfl
  | cons b rest ih =>
    have := b.toNat_lt
    have low : (b.toNat + 2 * ofBits rest) % 2 = b.toNat := by omega
    have high : (b.toNat + 2 * ofBits rest) / 2 = ofBits rest := by omega
    rw [List.length_cons, ofBits, lowBits, low, high, ih]
    cases b <;> rfl

theorem ofBits_lt (bits : List Bool) : ofBits bits < 2 ^ bits.length := by
  induction bits with
  | nil => simp [ofBits]
  | cons b rest ih =>
    have := b.toNat_lt
    rw [ofBits, List.length_cons, Nat.pow_succ]
    omega

/-- The bits of a word. -/
def wordBits (w : UInt32) : List Bool := lowBits 32 w.toNat

/-- **The bits of a chunk**: those below its highest set bit, which is a marker. -/
def chunkBits (chunk : UInt32) : List Bool := lowBits (Nat.log2 chunk.toNat) chunk.toNat

@[simp] theorem length_wordBits (w : UInt32) : (wordBits w).length = 32 := length_lowBits 32 _

theorem length_chunkBits_lt (chunk : UInt32) : (chunkBits chunk).length < 32 := by
  rw [chunkBits, length_lowBits]
  by_cases zero : chunk.toNat = 0
  · simp [zero]
  · exact (Nat.log2_lt zero).2 chunk.toNat_lt

theorem and_one_eq_one_iff (w : UInt32) : w &&& 1 = 1 ↔ w.toNat % 2 = 1 := by
  rw [← UInt32.toNat_inj, UInt32.toNat_and]
  simp [Nat.and_one_is_mod]

theorem toNat_shiftRight_one (w : UInt32) : (w >>> 1).toNat = w.toNat / 2 := by
  simp [UInt32.toNat_shiftRight, Nat.shiftRight_eq_div_pow]

/-- A chunk that is shifted away was a marker alone. -/
theorem chunkBits_of_spent {chunk : UInt32} (h : chunk >>> 1 = 0) : chunkBits chunk = [] := by
  have half : chunk.toNat / 2 = 0 := by rw [← toNat_shiftRight_one, h]; rfl
  have small : chunk.toNat.log2 = 0 := by
    rw [Nat.log2_def, if_neg (by omega)]
  rw [chunkBits, small, lowBits]

/-- Shifting a chunk takes its first bit away and leaves the marker. -/
theorem chunkBits_of_not_spent {chunk : UInt32} (h : chunk >>> 1 ≠ 0) :
    chunkBits chunk = decide (chunk &&& 1 = 1) :: chunkBits (chunk >>> 1) := by
  have half : chunk.toNat / 2 ≠ 0 := fun e =>
    h (UInt32.toNat_inj.1 (by rw [toNat_shiftRight_one, e]; rfl))
  rw [chunkBits, Nat.log2_def, if_pos (by omega), lowBits, chunkBits, toNat_shiftRight_one]
  simp only [and_one_eq_one_iff]

/-- A word with its first bit taken away and a marker on top holds its other bits. -/
theorem wordBits_eq_cons (w : UInt32) :
    wordBits w = decide (w &&& 1 = 1) :: chunkBits (w >>> 1 ||| 0x80000000) := by
  have half : w.toNat / 2 < 2 ^ 31 := by have := w.toNat_lt; omega
  have marked : (w >>> 1 ||| 0x80000000).toNat = 2 ^ 31 * 1 + w.toNat / 2 := by
    rw [Nat.two_pow_add_eq_or_of_lt half, UInt32.toNat_or, toNat_shiftRight_one, Nat.or_comm]
    rfl
  have top : Nat.log2 (2 ^ 31 * 1 + w.toNat / 2) = 31 := by
    rw [Nat.log2_eq_iff (by omega)]
    omega
  have low : (2 ^ 31 * 1 + w.toNat / 2) % 2 ^ 31 = w.toNat / 2 % 2 ^ 31 := Nat.mul_add_mod _ _ _
  rw [chunkBits, marked, top, ← lowBits_mod, low, lowBits_mod, wordBits, lowBits]
  simp only [and_one_eq_one_iff]

/-! ### The words of a block -/

/-- A word of a block, counted from the end of the block. -/
def tailWord (block : Bytes) (i : Nat) : UInt32 :=
  (block.wordAt (block.size - 4 * (i + 1)) 4).toUInt32

/-- The full words below the trailer, from the highest address down. -/
def dataWords (block : Bytes) : List UInt32 :=
  (List.range (block.size / 4 - 3)).map fun i => tailWord block (i + 3)

/-- **The string of bits that a block holds.** -/
def bitString (block : Bytes) : List Bool :=
  chunkBits (tailWord block 2) ++ (dataWords block).flatMap wordBits

/-- How many words below the trailer the first `count` bits of a block reach into. -/
def wordsReached (block : Bytes) (count : Nat) : Nat :=
  (count - (chunkBits (tailWord block 2)).length + 31) / 32

/-- The exclusive or of the check word, the chunk and the first `k` words below the trailer. -/
def checkSumOf (block : Bytes) (k : Nat) : UInt32 :=
  ((dataWords block).take k).foldl (fun acc w => acc ^^^ w) (tailWord block 1 ^^^ tailWord block 2)

@[simp] theorem length_dataWords (block : Bytes) :
    (dataWords block).length = block.size / 4 - 3 := by
  simp [dataWords]

theorem getElem?_dataWords {block : Bytes} {k : Nat} (h : k < block.size / 4 - 3) :
    (dataWords block)[k]? = some (tailWord block (k + 3)) := by
  simp [dataWords, h]

/-- Going on by a word. -/
theorem checkSumOf_succ {block : Bytes} {k : Nat} (h : k < block.size / 4 - 3) :
    checkSumOf block (k + 1) = checkSumOf block k ^^^ tailWord block (k + 3) := by
  rw [checkSumOf, List.take_add_one, getElem?_dataWords h, List.foldl_append]
  rfl

theorem drop_dataWords {block : Bytes} {k : Nat} (h : k < block.size / 4 - 3) :
    (dataWords block).drop k = tailWord block (k + 3) :: (dataWords block).drop (k + 1) := by
  have inside : k < (dataWords block).length := by simpa using h
  have word := getElem?_dataWords h
  rw [List.getElem?_eq_getElem inside, Option.some_inj] at word
  rw [List.drop_eq_getElem_cons inside, word]

theorem length_flatMap_wordBits (ws : List UInt32) :
    (ws.flatMap wordBits).length = 32 * ws.length := by
  induction ws with
  | nil => rfl
  | cons w ws ih =>
    rw [List.flatMap_cons, List.length_append, ih, length_wordBits, List.length_cons]
    ring

/-! ### Scripts -/

/-- **How tokens are spelt.** A token may have several spellings. -/
inductive Spelling : Token → List Bool → Prop
  /-- Up to eight bytes: `00`, three bits of count. -/
  | short {bytes : List UInt8} : bytes ≠ [] → bytes.length ≤ 8 →
    Spelling (.literals bytes)
      ([false, false] ++ fieldBits 3 (bytes.length - 1) ++ bytes.flatMap byteBits)
  /-- From nine bytes up to 264: `111`, eight bits of count. -/
  | long {bytes : List UInt8} : 9 ≤ bytes.length → bytes.length ≤ 264 →
    Spelling (.literals bytes)
      ([true, true, true] ++ fieldBits 8 (bytes.length - 9) ++ bytes.flatMap byteBits)
  /-- A copy of two bytes: `01`, eight bits of distance. -/
  | two {distance : Nat} : distance < 2 ^ 8 →
    Spelling (.copy 2 distance) ([false, true] ++ fieldBits 8 distance)
  /-- A copy of three bytes: `100`, nine bits of distance. -/
  | three {distance : Nat} : distance < 2 ^ 9 →
    Spelling (.copy 3 distance) ([true, false, false] ++ fieldBits 9 distance)
  /-- A copy of four bytes: `101`, ten bits of distance. -/
  | four {distance : Nat} : distance < 2 ^ 10 →
    Spelling (.copy 4 distance) ([true, false, true] ++ fieldBits 10 distance)
  /-- A copy of up to 256 bytes: `110`, eight bits of count, twelve of distance. -/
  | far {count distance : Nat} : 1 ≤ count → count ≤ 256 → distance < 2 ^ 12 →
    Spelling (.copy count distance)
      ([true, true, false] ++ fieldBits 8 (count - 1) ++ fieldBits 12 distance)

/-- Emits `count` bytes, each of them the one emitted `distance` bytes before it. -/
def echo (distance : Nat) : Nat → List UInt8 → List UInt8
  | 0, out => out
  | count + 1, out => echo distance count (out.getD (distance - 1) 0 :: out)

/-- What has been emitted after a token. -/
def Token.emit (out : List UInt8) : Token → List UInt8
  | .literals bytes => bytes.reverse ++ out
  | .copy count distance => echo distance count out

/-- Whether a token makes sense: a copy must begin with a byte that has been emitted. -/
def Token.Fits (out : List UInt8) : Token → Prop
  | .literals _ => True
  | .copy _ distance => 1 ≤ distance ∧ distance ≤ out.length

/-- **A script**: a sequence of tokens, spelt one after the other, that goes on from what has been
emitted and ends with what will have been. -/
inductive Script : List UInt8 → List Bool → List UInt8 → Prop
  /-- No token emits nothing. -/
  | done (out : List UInt8) : Script out [] out
  /-- A token, and a script that goes on from it. -/
  | token {out data : List UInt8} {t : Token} {spelling bits : List Bool} :
    Spelling t spelling → t.Fits out → Script (t.emit out) bits data →
    Script out (spelling ++ bits) data

/-- **What a block stands for.** The trailer announces the length of the data, the block begins with a
script that emits them, and the words that the script reaches into cancel out. -/
structure Represents (block : Bytes) (bits : List Bool) (data : Bytes) : Prop where
  announced : (tailWord block 0).toNat = data.size
  nonempty : data.size ≠ 0
  begins : bits <+: bitString block
  script : Script [] bits data.toList
  cancels : checkSumOf block (wordsReached block bits.length) = 0

@[simp] theorem length_echo (distance count : Nat) (out : List UInt8) :
    (echo distance count out).length = count + out.length := by
  induction count generalizing out with
  | zero => simp [echo]
  | succ count ih =>
    rw [echo, ih, List.length_cons]
    ring

/-- A token emits at least one byte. -/
theorem Spelling.length_emit {t : Token} {spelling : List Bool} (h : Spelling t spelling)
    (out : List UInt8) : out.length < (t.emit out).length := by
  cases h with
  | short nonempty _ =>
    have := List.length_pos_iff.2 nonempty
    simp only [Token.emit, List.length_append, List.length_reverse]
    omega
  | long many _ =>
    simp only [Token.emit, List.length_append, List.length_reverse]
    omega
  | two | three | four => simp [Token.emit]
  | far some _ _ =>
    simp only [Token.emit, length_echo]
    omega

end Cinematic.Packing
