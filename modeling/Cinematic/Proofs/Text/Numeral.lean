import Mathlib.Data.List.Forall2
import Mathlib.Data.Nat.Digits.Defs
import Cinematic.Proofs.Text.Inline

/-!
# Which texts are numerals

What a numeral is can be said without a reader: digits of a base, most significant first, after an
optional plus (`Cinematic.Text.Numeral`). The digits are those that numbers are printed with, or their
capitals, and the number is what they stand for in positional notation. There is no bound to the number
and none to how many zeros it begins with.

**The readers accept just these texts and give just these numbers**
(`Cinematic.Text.natural?_eq_some_iff`). Where a mark decides the base, one thing has to be seen in
addition: a text that begins with the mark is no numeral as it stands, so that at most one of the
readings applies (`Cinematic.Text.Numeral.not_mark`).
-/

namespace Cinematic.Text

variable {base : Nat} {c : Char} {cs : List Char} {d n : Nat}

/-! ### Digits -/

/-- **A digit of a base with its value**, in lower or upper case. -/
def IsDigit (base : Nat) (c : Char) (d : Nat) : Prop := d < base ∧ c.toLower = Nat.digitChar d

theorem toNat_toLower (c : Char) :
    c.toLower.toNat = if 65 ≤ c.toNat ∧ c.toNat ≤ 90 then c.toNat + 32 else c.toNat := by
  have capital : (c.val ≥ 'A'.val ∧ c.val ≤ 'Z'.val) ↔ 65 ≤ c.toNat ∧ c.toNat ≤ 90 := by
    rw [ge_iff_le, UInt32.le_iff_toNat_le, UInt32.le_iff_toNat_le]
    rfl
  by_cases upper : c.val ≥ 'A'.val ∧ c.val ≤ 'Z'.val
  · have range := capital.1 upper
    have lower : c.toLower.toNat = (c.val + ('a'.val - 'A'.val)).toNat :=
      congrArg Char.toNat (dif_pos upper)
    have sum : (c.val + ('a'.val - 'A'.val)).toNat = (c.toNat + 32) % 2 ^ 32 := UInt32.toNat_add _ _
    rw [if_pos range, lower, sum]
    exact Nat.mod_eq_of_lt (by omega)
  · rw [if_neg (mt capital.2 upper)]
    exact congrArg Char.toNat (dif_neg upper)

theorem toNat_digitChar :
    ∀ d < 16, (Nat.digitChar d).toNat = if d < 10 then d + 48 else d + 87 := by
  decide

/-- The digits have the values that the reader gives them. -/
theorem digitValue?_eq_some_iff : digitValue? c = some d ↔ IsDigit 16 c d := by
  have value : digitValue? c = if 48 ≤ c.toNat ∧ c.toNat ≤ 57 then some (c.toNat - 48)
      else if 97 ≤ c.toNat ∧ c.toNat ≤ 102 then some (c.toNat - 97 + 10)
      else if 65 ≤ c.toNat ∧ c.toNat ≤ 70 then some (c.toNat - 65 + 10) else none := by
    simp only [digitValue?, Char.le_def, UInt32.le_iff_toNat_le]
    rfl
  have shown : IsDigit 16 c d ↔ d < 16 ∧ c.toLower.toNat = if d < 10 then d + 48 else d + 87 :=
    and_congr_right fun small => by rw [← Char.toNat_inj, toNat_digitChar d small]
  rw [value, shown, toNat_toLower]
  (repeat' split) <;> simp only [Option.some.injEq, reduceCtorEq, false_iff] <;> omega

theorem digitBelow?_eq_some_iff (small : base ≤ 16) :
    digitBelow? base c = some d ↔ IsDigit base c d := by
  rw [digitBelow?, Option.filter_eq_some_iff, digitValue?_eq_some_iff, decide_eq_true_iff]
  exact ⟨fun ⟨digit, below⟩ => ⟨below, digit.2⟩,
    fun digit => ⟨⟨Nat.lt_of_lt_of_le digit.1 small, digit.2⟩, digit.1⟩⟩

/-! ### Numerals -/

/-- **One or more digits, and the number that they show**, most significant digit first. -/
def Digits (base : Nat) (cs : List Char) (n : Nat) : Prop :=
  cs ≠ [] ∧ ∃ ds, List.Forall₂ (IsDigit base) cs ds ∧ n = Nat.ofDigits base ds.reverse

/-- **A numeral** consists of digits, and a plus may stand before them. -/
def Numeral (base : Nat) (cs : List Char) (n : Nat) : Prop :=
  Digits base cs n ∨ ∃ digits, cs = '+' :: digits ∧ Digits base digits n

/-- Digits are appended to a number as positional notation has it. -/
theorem appendDigits?_eq_some_iff (small : base ≤ 16) {start : Nat} :
    appendDigits? base start cs = some n ↔
      ∃ ds, List.Forall₂ (IsDigit base) cs ds ∧ n = ds.foldl (fun m d => m * base + d) start := by
  induction cs generalizing start with
  | nil => simp [appendDigits?, eq_comm]
  | cons c cs ih =>
    rw [appendDigits?]
    split
    · next d digit =>
      rw [ih]
      constructor
      · rintro ⟨ds, each, rfl⟩
        exact ⟨d :: ds, .cons ((digitBelow?_eq_some_iff small).1 digit) each, rfl⟩
      · rintro ⟨_, _ | ⟨digit', each⟩, rfl⟩
        have same := digit.symm.trans ((digitBelow?_eq_some_iff small).2 digit')
        cases same
        exact ⟨_, each, rfl⟩
    · next other =>
      refine iff_of_false (by simp) ?_
      rintro ⟨_, _ | ⟨digit, -⟩, -⟩
      cases other.symm.trans ((digitBelow?_eq_some_iff small).2 digit)

theorem digits?_eq_some_iff (small : base ≤ 16) :
    digits? base cs = some n ↔ Digits base cs n := by
  have value (ds : List Nat) :
      ds.foldl (fun m d => m * base + d) 0 = Nat.ofDigits base ds.reverse := by
    rw [Nat.ofDigits_eq_foldr, List.foldr_reverse]
    congr 1
    funext m d
    rw [Nat.add_comm, Nat.mul_comm]
    rfl
  cases cs with
  | nil => simp [digits?, Digits]
  | cons c cs =>
    rw [digits?_cons, appendDigits?_eq_some_iff small, Digits, and_iff_right (List.cons_ne_nil c cs)]
    simp only [value]

/-- **The reader accepts just the numerals**, and gives the numbers that they show. -/
theorem natural?_eq_some_iff (small : base ≤ 16) :
    natural? base cs = some n ↔ Numeral base cs n := by
  rw [Numeral, ← digits?_eq_some_iff small]
  by_cases plus : ∃ rest, cs = '+' :: rest
  · obtain ⟨rest, rfl⟩ := plus
    have none : digits? base ('+' :: rest) = none := rfl
    simp [natural?_plus, none, ← digits?_eq_some_iff small]
  · have bare : natural? base cs = digits? base cs := by
      cases cs with
      | nil => rfl
      | cons c rest => exact natural?_of_ne_plus base (fun is => plus ⟨rest, is ▸ rfl⟩) rest
    rw [bare, or_iff_left]
    rintro ⟨rest, shape, -⟩
    exact plus ⟨rest, shape⟩

theorem naturalBelow?_eq_some_iff (small : base ≤ 16) {bound : Nat} :
    naturalBelow? base bound cs = some n ↔ Numeral base cs n ∧ n < bound := by
  rw [naturalBelow?, Option.filter_eq_some_iff, natural?_eq_some_iff small, decide_eq_true_iff]

/-- **No numeral begins with a mark of the base.** -/
theorem Numeral.not_mark (small : base ≤ 16) {mark : Char} (marks : mark.toLower = 'x')
    {rest : List Char} : ¬ Numeral base ('0' :: mark :: rest) n := by
  rintro (⟨-, _, each, -⟩ | ⟨_, shape, -⟩)
  · -- the mark stands where the second digit would be
    rcases each with _ | ⟨-, _ | ⟨⟨below, same⟩, -⟩⟩
    have none : ∀ d < 16, 'x' ≠ Nat.digitChar d := by decide
    exact none _ (Nat.lt_of_lt_of_le below small) (marks.symm.trans same)
  · cases shape

/-- **A word as it is written**: a decimal numeral, or a hexadecimal one after a mark. -/
def WordNumeral (cs : List Char) (n : Nat) : Prop :=
  (∃ digits, (cs = '0' :: 'x' :: digits ∨ cs = '0' :: 'X' :: digits) ∧ Numeral 16 digits n) ∨
    Numeral 10 cs n

/-- **A word is read if it is written so and small enough.** -/
theorem word?_eq_some_iff {s : String} {v : UInt16} :
    word? s = some v ↔ WordNumeral s.toList v.toNat := by
  have fits (base : Nat) (small : base ≤ 16) (cs : List Char) :
      (naturalBelow? base 65536 cs).map Nat.toUInt16 = some v ↔ Numeral base cs v.toNat := by
    rw [Option.map_eq_some_iff]
    constructor
    · rintro ⟨n, read, rfl⟩
      obtain ⟨numeral, below⟩ := (naturalBelow?_eq_some_iff small).1 read
      rwa [Nat.toUInt16, UInt16.toNat_ofNat_of_lt' below]
    · intro numeral
      exact ⟨v.toNat, (naturalBelow?_eq_some_iff small).2 ⟨numeral, v.toNat_lt⟩,
        UInt16.ofNat_toNat⟩
  rw [word?, WordNumeral]
  generalize s.toList = text
  split
  · next cs =>
    rw [fits 16 (by decide), or_iff_left (Numeral.not_mark (by decide) (by decide))]
    simp
  · next cs =>
    rw [fits 16 (by decide), or_iff_left (Numeral.not_mark (by decide) (by decide))]
    simp
  · next small capital =>
    rw [fits 10 (by decide), or_iff_right]
    rintro ⟨cs, rfl | rfl, -⟩
    · exact small cs rfl
    · exact capital cs rfl

example :
    ["", "0x", "+", "0x+", "-1", "0x-1", "0x0x1", "+0x1", "1 ", "65536"].filterMap word? = [] := by
  decide

end Cinematic.Text
