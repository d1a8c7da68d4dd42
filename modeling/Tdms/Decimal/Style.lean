import Tdms.Decimal.Shortest

/-!
Writing decimals: positional between two powers of ten, and with an exponent
elsewhere.
-/

namespace Tdms.Decimal

/-- How floats are written. -/
structure Style where
  /-- The least power of ten that is written positionally and the least one above it that is not,
  or `none` if every number is written positionally. -/
  positional? : Option (Int × Int)
  /-- Whether whole numbers end in a point and a zero. -/
  wholePoint : Bool
  /-- Whether a plus sign stands before an exponent that is not negative. -/
  exponentPlus : Bool
  /-- Which of two equally near decimals is taken. -/
  tie : Tie
  /-- The text of an infinity. -/
  infinity : String
  /-- The text of what is no number. -/
  nan : String
  deriving Repr, Inhabited

namespace Style

/-- Digits before and after the point of `number`, with zeros wherever the digits do not reach. -/
def positional (style : Style) (number : Digits) : String :=
  let digits := Nat.toDigits 10 number.digits
  if 0 ≤ number.exponent then
    let whole := digits ++ List.replicate number.exponent.toNat '0'
    String.ofList whole ++ if style.wholePoint then ".0" else ""
  else
    let places := (-number.exponent).toNat
    let padded := List.replicate (places + 1 - digits.length) '0' ++ digits
    let whole := padded.take (padded.length - places)
    let fraction := padded.drop (padded.length - places)
    String.ofList (whole ++ '.' :: fraction)

/-- One digit, the other digits after a point, and the power of ten of the first digit. -/
def scientific (style : Style) (number : Digits) (power : Int) : String :=
  let digits := Nat.toDigits 10 number.digits
  let fraction :=
    if digits.length = 1 then "" else "." ++ String.ofList (digits.drop 1)
  let plus := if style.exponentPlus && 0 ≤ power then "+" else ""
  String.ofList (digits.take 1) ++ fraction ++ "e" ++ plus ++ toString power

/-- A number that is not negative. -/
def digits (style : Style) (number : Digits) : String :=
  let power := number.exponent + digitCount number.digits - 1
  match style.positional? with
  | none => style.positional number
  | some (least, limit) =>
    if number.digits = 0 ∨ (least ≤ power ∧ power < limit) then style.positional number
    else style.scientific number power

/-- What a float stands for, without its sign. -/
def magnitude (style : Style) : Magnitude → String
  | .nan => style.nan
  | .infinite => style.infinity
  | .finite significand exponent nearBelow =>
    style.digits (shortest style.tie significand exponent nearBelow)

/-- A float, with a minus sign if it is negative. What is no number has no sign. -/
def write (style : Style) (number : FloatValue) : String :=
  let sign := if number.negative && number.magnitude != .nan then "-" else ""
  sign ++ style.magnitude number.magnitude

/-- A float, with a plus sign if it is not negative. What is no number has no sign. -/
def writeSigned (style : Style) (number : FloatValue) : String :=
  let plus := if !number.negative && number.magnitude != .nan then "+" else ""
  plus ++ style.write number

end Style

end Tdms.Decimal
