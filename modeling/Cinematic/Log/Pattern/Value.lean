import Cinematic.Log.Pattern.Basic

/-!
# Values that can be asked for

A value is asked for by a number or by a pattern. Nearly every number is a well formed pattern as
well, since its characters stand for themselves or, as the point does, for any character. Only a
plus at the beginning would be a repetition of nothing, so numbers with a plus are said apart.
-/

namespace Cinematic.Log.Pattern

/-- Whether some characters are the exponent of a number, if anything. -/
def isExponent : List Char → Bool
  | [] => true
  | c :: rest => (c = 'e' || c = 'E') && (Text.integer? 10 rest).isSome

/-- Whether some characters are a number without a sign: digits with or without a point among them,
and an exponent, or one of the words for what is not finite. -/
def isMagnitude (cs : List Char) : Bool :=
  let whole := cs.takeWhile Char.isDigit
  let rest := cs.dropWhile Char.isDigit
  let (fraction, rest) :=
    match rest with
    | '.' :: rest => (rest.takeWhile Char.isDigit, rest.dropWhile Char.isDigit)
    | _ => ([], rest)
  (¬ (whole ++ fraction).isEmpty && isExponent rest)
    || String.ofList (cs.map Char.toLower) ∈ ["inf", "infinity", "nan"]

/-- **Whether some characters are a value that can be asked for.** -/
def isValue (cs : List Char) : Bool :=
  isWellFormed cs
    || match cs with
      | '+' :: rest => isMagnitude rest
      | _ => false

end Cinematic.Log.Pattern
