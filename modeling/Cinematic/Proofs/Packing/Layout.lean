import Cinematic.Proofs.Packing.Format

/-!
# What a layout holds

The other direction of the format: a string of bits that has been laid out as a block is the string
that the block holds. **A layout represents whatever its bits are a script for**
(`Cinematic.Packing.represents_layout`).

The bits that do not fill a word are in the chunk, and a marker says where they end; the words follow
each other from the highest address down, and so the block holds them in reverse. The check word is
the exclusive or of the others, so all of them cancel out, and a script that takes all bits reaches
into all of them.
-/

namespace Cinematic.Packing

/-! ### Words laid out one after the other -/

/-- Words one after the other. -/
def spell (ws : List UInt32) : Bytes := (ws.flatMap fun w => Bytes.bigEndian 4 w.toNat).toArray

@[simp] theorem size_spell (ws : List UInt32) : (spell ws).size = 4 * ws.length := by
  induction ws with
  | nil => rfl
  | cons w ws ih =>
    simp only [spell, List.size_toArray] at ih ⊢
    rw [List.flatMap_cons, List.length_append, ih, Bytes.length_bigEndian, List.length_cons]
    omega

/-- The word that so many others stand behind. -/
theorem tailWord_spell_append (before after : List UInt32) (w : UInt32) :
    tailWord (spell (before ++ w :: after)) after.length = w := by
  have start : (spell (before ++ w :: after)).size - 4 * (after.length + 1)
      = (before.flatMap fun w => Bytes.bigEndian 4 w.toNat).length + 0 := by
    have := size_spell before
    simp only [spell, List.size_toArray] at this
    rw [size_spell, this, List.length_append, List.length_cons]
    omega
  have fits : w.toNat % 256 ^ 4 = w.toNat := Nat.mod_eq_of_lt w.toNat_lt
  rw [tailWord, start, spell, List.flatMap_append, Bytes.wordAt_append_right, List.flatMap_cons,
    Bytes.wordAt_bigEndian, fits]
  exact UInt32.ofNat_toNat

/-- Counted from the end, words laid out are those of the reversed list. -/
theorem tailWord_spell {ws : List UInt32} {i : Nat} {w : UInt32} (h : ws.reverse[i]? = some w) :
    tailWord (spell ws) i = w := by
  obtain ⟨inside, rfl⟩ := List.getElem?_eq_some_iff.1 h
  have parts : ws = (ws.reverse.drop (i + 1)).reverse
      ++ ws.reverse[i] :: (ws.reverse.take i).reverse := by
    have whole := List.take_append_drop i ws.reverse
    rw [List.drop_eq_getElem_cons inside] at whole
    have turned := congrArg List.reverse whole
    simpa using turned.symm
  have behind : ((ws.reverse.take i).reverse).length = i := by
    rw [List.length_reverse, List.length_take, Nat.min_eq_left (Nat.le_of_lt inside)]
  conv => lhs; rw [parts]
  conv => lhs; arg 2; rw [← behind]
  exact tailWord_spell_append _ _ _

/-! ### The chunk and the words -/

theorem ofBits_append (low high : List Bool) :
    ofBits (low ++ high) = ofBits low + 2 ^ low.length * ofBits high := by
  induction low with
  | nil => simp [ofBits]
  | cons b low ih =>
    rw [List.cons_append, ofBits, ih, ofBits, List.length_cons, Nat.pow_succ]
    ring

/-- The marker of a chunk says where its bits end. -/
theorem chunkBits_marked {bits : List Bool} (few : bits.length < 32) :
    chunkBits (ofBits (bits ++ [true])).toUInt32 = bits := by
  have value : ofBits (bits ++ [true]) = ofBits bits + 2 ^ bits.length := by
    rw [ofBits_append]
    simp [ofBits]
  have below := ofBits_lt bits
  have fits : 2 ^ bits.length ≤ 2 ^ 31 := Nat.pow_le_pow_right (by omega) (by omega)
  have stored : (ofBits (bits ++ [true])).toUInt32.toNat = ofBits bits + 2 ^ bits.length := by
    rw [value]
    exact UInt32.toNat_ofNat_of_lt' (by rw [UInt32.size]; omega)
  have marker : Nat.log2 (ofBits bits + 2 ^ bits.length) = bits.length := by
    rw [Nat.log2_eq_iff (by omega), Nat.pow_succ]
    omega
  rw [chunkBits, stored, marker, ← lowBits_mod, Nat.add_mod_right, lowBits_mod, lowBits_ofBits]

theorem chunkBits_chunkOf (bits : List Bool) :
    chunkBits (chunkOf bits) = bits.take (bits.length % 32) := by
  refine chunkBits_marked ?_
  rw [List.length_take]
  omega

theorem wordBits_ofBits {bits : List Bool} (full : bits.length = 32) :
    wordBits (ofBits bits).toUInt32 = bits := by
  have below := ofBits_lt bits
  rw [full] at below
  have stored : (ofBits bits).toUInt32.toNat = ofBits bits := UInt32.toNat_ofNat_of_lt' below
  rw [wordBits, stored, ← full, lowBits_ofBits]

theorem flatMap_wordBits_words {k : Nat} {bits : List Bool} (full : bits.length = 32 * k) :
    (words k bits).flatMap wordBits = bits := by
  induction k generalizing bits with
  | zero =>
    rw [Nat.mul_zero, List.length_eq_zero_iff] at full
    rw [words, full, List.flatMap_nil]
  | succ k ih =>
    have first : (bits.take 32).length = 32 := by
      rw [List.length_take]
      omega
    have rest : (bits.drop 32).length = 32 * k := by
      rw [List.length_drop]
      omega
    rw [words, List.flatMap_cons, wordBits_ofBits first, ih rest, List.take_append_drop]

theorem flatMap_wordBits_wordsOf (bits : List Bool) :
    (wordsOf bits).flatMap wordBits = bits.drop (bits.length % 32) := by
  refine flatMap_wordBits_words ?_
  rw [List.length_drop]
  omega

@[simp] theorem length_wordsOf (bits : List Bool) : (wordsOf bits).length = bits.length / 32 :=
  length_words _ _

/-! ### Layouts -/

/-- The word that makes all others cancel out. -/
def checkOf (bits : List Bool) : UInt32 :=
  (wordsOf bits).foldl (fun acc w => acc ^^^ w) (chunkOf bits)

theorem layout_eq_spell (bits : List Bool) (length : Nat) :
    layout bits length =
      spell ((wordsOf bits).reverse ++ [chunkOf bits, checkOf bits, length.toUInt32]) := rfl

@[simp] theorem size_layout (bits : List Bool) (length : Nat) :
    (layout bits length).size = 4 * (bits.length / 32 + 3) := by
  rw [layout_eq_spell, size_spell, List.length_append, List.length_reverse, length_wordsOf]
  rfl

section Words

variable (bits : List Bool) (length : Nat)

/-- The words of a layout, counted from its end. -/
theorem tailWord_layout {i : Nat} {w : UInt32}
    (h : (length.toUInt32 :: checkOf bits :: chunkOf bits :: wordsOf bits)[i]? = some w) :
    tailWord (layout bits length) i = w := by
  rw [layout_eq_spell]
  refine tailWord_spell ?_
  simpa using h

theorem dataWords_layout : dataWords (layout bits length) = wordsOf bits := by
  refine List.ext_getElem? fun i => ?_
  by_cases inside : i < (wordsOf bits).length
  · have inside' : i < (layout bits length).size / 4 - 3 := by
      rw [length_wordsOf] at inside
      rw [size_layout]
      omega
    rw [getElem?_dataWords inside', List.getElem?_eq_getElem inside, Option.some_inj]
    refine tailWord_layout bits length ?_
    rw [← List.getElem?_eq_getElem inside]
    rfl
  · rw [List.getElem?_eq_none (by rw [length_dataWords, size_layout, ← length_wordsOf]; omega),
      List.getElem?_eq_none (by omega)]

/-- **A layout holds the string that it was made from.** -/
theorem bitString_layout : bitString (layout bits length) = bits := by
  rw [bitString, dataWords_layout, flatMap_wordBits_wordsOf, tailWord_layout bits length rfl,
    chunkBits_chunkOf, List.take_append_drop]

theorem wordsReached_layout :
    wordsReached (layout bits length) bits.length = (wordsOf bits).length := by
  rw [wordsReached, tailWord_layout bits length rfl, chunkBits_chunkOf, length_wordsOf,
    List.length_take]
  omega

end Words

theorem foldl_xor (a b : UInt32) (ws : List UInt32) :
    ws.foldl (fun acc w => acc ^^^ w) (a ^^^ b) = a ^^^ ws.foldl (fun acc w => acc ^^^ w) b := by
  induction ws generalizing b with
  | nil => rfl
  | cons w ws ih => rw [List.foldl_cons, List.foldl_cons, UInt32.xor_assoc, ih]

/-- The words of a layout cancel out. -/
theorem checkSumOf_layout (bits : List Bool) (length : Nat) :
    checkSumOf (layout bits length) (wordsReached (layout bits length) bits.length) = 0 := by
  rw [wordsReached_layout, checkSumOf, dataWords_layout, List.take_length,
    tailWord_layout bits length (i := 1) rfl, tailWord_layout bits length (i := 2) rfl,
    foldl_xor, ← checkOf, UInt32.xor_self]

/-- **A layout represents the data that its bits are a script for**, if their length fits the
trailer. -/
theorem represents_layout {bits : List Bool} {data : Bytes} (script : Script [] bits data.toList)
    (nonempty : data.size ≠ 0) (fits : data.size < 2 ^ 32) :
    Represents (layout bits data.size) bits data where
  announced := by
    rw [tailWord_layout bits data.size rfl]
    exact UInt32.toNat_ofNat_of_lt' fits
  nonempty := nonempty
  begins := ⟨[], by rw [List.append_nil, bitString_layout]⟩
  script := script
  cancels := checkSumOf_layout bits data.size

end Cinematic.Packing
