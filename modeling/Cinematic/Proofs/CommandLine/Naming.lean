import Cinematic.Proofs.Store.Asking
import Cinematic.Proofs.Text.Numeral

/-!
# How parts and words are written

A part is named by a word or by its id. The id is a hexadecimal numeral, and a mark of the base may
stand before it or be left out; so a word could be a numeral as well, and would be tried as a name
first. **No name of a part is a numeral**, however (`Cinematic.Part.not_numeral_of_name`), and it does
not matter which is tried first: what names a part is the union of two sets of texts that have nothing
in common (`Cinematic.CommandLine.names_and_words_exact`).

Two things keep the grammar of ids from being that of words. The text is put in lower case before the
mark is looked for, and without a mark the numeral is still hexadecimal.
-/

namespace Cinematic

open Text (Numeral WordNumeral)

namespace Part

/-- **The first part of a name.** -/
def IsFirst (name : String) (p : Part) : Prop :=
  p.name = name ∧ ∃ before after, all = before ++ p :: after ∧ ∀ q ∈ before, q.name ≠ name

/-- **A numeral in hexadecimal**, in lower case, after an optional mark. -/
def IdNumeral (lower : List Char) (n : Nat) : Prop :=
  ∃ digits, (lower = digits ∨ lower = '0' :: 'x' :: digits) ∧ Numeral 16 digits n

variable {lower name : String} {p : Part} {n : Nat}

theorem ofName?_eq_some_iff : ofName? name = some p ↔ IsFirst name p := by
  simp [ofName?, List.find?_eq_some_iff_append, IsFirst]

theorem isSome_ofName?_iff : (ofName? name).isSome = true ↔ ∃ p ∈ all, p.name = name := by
  simp [ofName?, List.find?_isSome]

/-- The part with an id is any part that has it, since no two parts have the same. -/
theorem ofId?_eq_some_iff {id : UInt16} : ofId? id = some p ↔ p ∈ all ∧ p.id = id := by
  have alone : ∀ p ∈ all, ofId? p.id = some p := by decide
  constructor
  · exact fun found => ⟨List.mem_of_find?_eq_some found, id_of_ofId? found⟩
  · rintro ⟨member, rfl⟩
    exact alone p member

/-- The numeral after the mark, or the whole text if it does not begin with the mark. -/
theorem idNumeral_iff {cs : List Char} :
    IdNumeral cs n ↔ Numeral 16 (match cs with | '0' :: 'x' :: rest => rest | cs => cs) n := by
  unfold IdNumeral
  split
  · next rest =>
    constructor
    · rintro ⟨digits, rfl | same, numeral⟩
      · exact absurd numeral (Numeral.not_mark (by decide) (by decide))
      · cases same
        exact numeral
    · exact fun numeral => ⟨rest, .inr rfl, numeral⟩
  · next bare =>
    constructor
    · rintro ⟨digits, rfl | same, numeral⟩
      · exact numeral
      · exact absurd same (bare digits)
    · exact fun numeral => ⟨_, .inl rfl, numeral⟩

/-- **The name of a part is not a numeral.** -/
theorem not_numeral_of_name (member : p ∈ all) : ¬ IdNumeral p.name.toList n := by
  have none : ∀ p ∈ all, Text.natural? 16
      (match p.name.toList with | '0' :: 'x' :: rest => rest | cs => cs) = none := by decide
  intro numeral
  cases (none p member).symm.trans
    ((Text.natural?_eq_some_iff (by decide)).2 (idNumeral_iff.1 numeral))

/-- **A text names a part** by the name of the part or by its id. -/
theorem ofText?_eq_some_iff {s : String} :
    ofText? s = some p ↔ IsFirst s.toLower p ∨
      (p ∈ all ∧ IdNumeral s.toLower.toList p.id.toNat) := by
  rw [ofText?]
  generalize s.toLower = lower
  cases named : ofName? lower with
  | some q =>
    have first := ofName?_eq_some_iff.1 named
    rw [or_iff_left, ← ofName?_eq_some_iff, named]
    rintro ⟨-, numeral⟩
    have member : q ∈ all := List.mem_of_find?_eq_some named
    exact not_numeral_of_name member (first.1 ▸ numeral)
  | none =>
    rw [← ofName?_eq_some_iff, named, or_iff_right (by simp), idNumeral_iff,
      Option.bind_eq_some_iff]
    constructor
    · rintro ⟨n, read, found⟩
      obtain ⟨numeral, below⟩ := (Text.naturalBelow?_eq_some_iff (by decide)).1 read
      obtain ⟨member, same⟩ := ofId?_eq_some_iff.1 found
      rw [same, Nat.toUInt16, UInt16.toNat_ofNat_of_lt' below]
      exact ⟨member, numeral⟩
    · rintro ⟨member, numeral⟩
      exact ⟨_, (Text.naturalBelow?_eq_some_iff (by decide)).2 ⟨numeral, p.id.toNat_lt⟩,
        ofId?_eq_some_iff.2 ⟨member, UInt16.ofNat_toNat.symm⟩⟩

end Part

namespace CommandLine

open Cinematic.Part (IsFirst IdNumeral)

/-- **What names a part, and what is a word**, over all texts. A text names a part if it is, in lower
case, the name of a part or a hexadecimal numeral of an id; the part is the first one of that name, or
the one with that id. A text is a word if it is a decimal numeral, or a hexadecimal one after its mark,
of at most 65535. Whatever is neither is refused. -/
theorem names_and_words_exact (s : String) :
    (∀ p, Part.ofText? s = some p ↔ IsFirst s.toLower p ∨
      (p ∈ Part.all ∧ IdNumeral s.toLower.toList p.id.toNat)) ∧
    ((Part.ofText? s).isSome = true ↔ (∃ p ∈ Part.all, p.name = s.toLower) ∨
      ∃ n, 0x3e80 ≤ n ∧ n ≤ 0x3e89 ∧ IdNumeral s.toLower.toList n) ∧
    (∀ v, Text.word? s = some v ↔ WordNumeral s.toList v.toNat) ∧
    ((Text.word? s).isSome = true ↔ ∃ n ≤ 65535, WordNumeral s.toList n) := by
  refine ⟨fun p => Part.ofText?_eq_some_iff, ?_, fun v => Text.word?_eq_some_iff, ?_⟩
  · rw [← Part.isSome_ofName?_iff, Option.isSome_iff_exists, Option.isSome_iff_exists]
    simp only [Part.ofText?_eq_some_iff, Part.ofName?_eq_some_iff, exists_or]
    refine or_congr_right ⟨?_, ?_⟩
    · rintro ⟨p, member, numeral⟩
      obtain ⟨first, last⟩ := Part.exists_id_iff.1 ⟨p, member, rfl⟩
      exact ⟨_, first, last, numeral⟩
    · rintro ⟨n, first, last, numeral⟩
      obtain ⟨p, member, rfl⟩ := Part.exists_id_iff.2 ⟨first, last⟩
      exact ⟨p, member, numeral⟩
  · rw [Option.isSome_iff_exists]
    constructor
    · rintro ⟨v, read⟩
      exact ⟨v.toNat, Nat.le_of_lt_succ v.toNat_lt, Text.word?_eq_some_iff.1 read⟩
    · rintro ⟨n, small, numeral⟩
      have fits : n.toUInt16.toNat = n := UInt16.toNat_ofNat_of_lt' (Nat.lt_succ_of_le small)
      exact ⟨n.toUInt16, Text.word?_eq_some_iff.2 (fits.symm ▸ numeral)⟩

end CommandLine

end Cinematic
