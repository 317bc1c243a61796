/-!
# Single-precision numbers with two decimals

Percentages are computed in single precision and shown with two decimals. The shown text is
the *exact* value of the number rounded to hundredths, **half to even**, and a number whose
sign bit is set keeps its minus sign even when all three digits are zero.

Every finite number is `m · 2 ^ q` with a natural `m`, so rounding it to hundredths is
rounding a quotient of naturals (`Cinematic.Text.roundHalfEven`), and no floating-point
operation takes part in the printing.
-/

namespace Cinematic.Text

/-- The natural number nearest to `num / den`; of two nearest ones, the even one. -/
def roundHalfEven (num den : Nat) : Nat :=
  let quotient := num / den
  let rest := num % den
  if den < 2 * rest ∨ (2 * rest = den ∧ quotient % 2 = 1) then quotient + 1 else quotient

/-- A finite binary number `± mantissa · 2 ^ exponent`. -/
structure Binary where
  /-- Set for numbers below zero, and for the negative zero. -/
  negative : Bool
  /-- The significant bits, read as a natural number. -/
  mantissa : Nat
  /-- The power of two by which the mantissa is scaled. -/
  exponent : Int
deriving Repr, DecidableEq

/-- The number that a pattern of 32 bits stands for: one sign bit, eight exponent bits and
twenty-three fraction bits. Patterns with all exponent bits set stand for no finite number and
are never asked for. -/
def Binary.ofBits (bits : UInt32) : Binary :=
  let fraction : Nat := bits.toNat % 0x800000
  let biased : Nat := (bits.toNat >>> 23) % 0x100
  { negative := bits.toNat >>> 31 = 1
    mantissa := if biased = 0 then fraction else fraction + 0x800000
    exponent := if biased = 0 then -149 else (biased : Int) - 150 }

/-- The magnitude in hundredths, rounded half to even. -/
def Binary.hundredths (b : Binary) : Nat :=
  roundHalfEven ((b.mantissa * 100) <<< b.exponent.toNat) (1 <<< (-b.exponent).toNat)

/-- The number with two decimals. -/
def Binary.twoDecimals (b : Binary) : String :=
  let n := b.hundredths
  let digits := toString (n / 100) ++ "." ++ toString (n % 100 / 10) ++ toString (n % 10)
  if b.negative then "-" ++ digits else digits

/-- A single-precision number with two decimals. -/
def twoDecimals (x : Float32) : String := (Binary.ofBits x.toBits).twoDecimals

end Cinematic.Text
