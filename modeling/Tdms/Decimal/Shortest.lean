import Tdms.Decimal.Binary

/-!
The shortest decimal that reads back as a given float.

Every number that a float stands for, and every number half way between two
floats, is a whole number at some power of ten. There the decimals that read
back form an interval, its ends included when the significand is even, for a
tie on reading goes to the even significand. `shortest` looks for a decimal in
the interval with one digit, then with two, and so on, and takes the one
nearest to the float.
-/

namespace Tdms.Decimal

/-- Which of two equally near decimals is taken. -/
inductive Tie where
  /-- The greater one. -/
  | up
  /-- The one with an even last digit. -/
  | even
  deriving DecidableEq, Repr, Inhabited

/-- The number `digits * 10 ^ exponent`. -/
structure Digits where
  digits : Nat
  exponent : Int
  deriving DecidableEq, Repr, Inhabited

/-- A float at a power of ten: the whole number it stands for there, and the ends of the interval
of numbers that read back as it. -/
structure Target where
  value : Nat
  low : Nat
  high : Nat
  /-- Whether the ends read back as well. -/
  closed : Bool
  deriving DecidableEq, Repr, Inhabited

namespace Target

/-- Whether `number` reads back as the float. -/
def holds (target : Target) (number : Nat) : Bool :=
  if target.closed then target.low ≤ number && number ≤ target.high
  else target.low < number && number < target.high

/-- The multiple of `grid` that is nearest to the float among those that read back as it, divided
by `grid`. -/
def onGrid? (target : Target) (tie : Tie) (grid : Nat) : Option Nat :=
  let below := target.value / grid
  let above := below + 1
  let gapBelow := target.value - below * grid
  let gapAbove := above * grid - target.value
  match target.holds (below * grid), target.holds (above * grid) with
  | false, false => none
  | true, false => some below
  | false, true => some above
  | true, true =>
    if gapBelow < gapAbove then some below
    else if gapAbove < gapBelow then some above
    else
      match tie with
      | .up => some above
      | .even => some (if below % 2 = 0 then below else above)

/-- The first hit on the grids of spacing `10 ^ places`, `10 ^ (places - 1)`, and so on. -/
def search (target : Target) (tie : Tie) : (places : Nat) → Digits
  | 0 => ⟨target.value, 0⟩
  | places + 1 =>
    match target.onGrid? tie (Nat.pow 10 (places + 1)) with
    | some digits => ⟨digits, places + 1⟩
    | none => target.search tie places

end Target

/-- The number without zeros at the end of its digits, of which there are at most `limit`. -/
def Digits.trim (number : Digits) : (limit : Nat) → Digits
  | 0 => number
  | limit + 1 =>
    if number.digits % 10 = 0 ∧ number.digits ≠ 0 then
      trim ⟨number.digits / 10, number.exponent + 1⟩ limit
    else number

/-- Number of decimal digits of `number`. -/
def digitCount (number : Nat) : Nat :=
  (Nat.toDigits 10 number).length

/-- The shortest decimal that reads back as the float `significand * 2 ^ exponent`. Quarters of
the last place make the ends of the interval whole numbers. -/
def shortest (tie : Tie) (significand : Nat) (exponent : Int) (nearBelow : Bool) : Digits :=
  if significand = 0 then ⟨0, 0⟩
  else
    let quarter := exponent - 2
    let factor := if 0 ≤ quarter then Nat.pow 2 quarter.toNat else Nat.pow 5 (-quarter).toNat
    let scale : Int := min quarter 0
    let target : Target :=
      { value := 4 * significand * factor
        low := (4 * significand - if nearBelow then 1 else 2) * factor
        high := (4 * significand + 2) * factor
        closed := significand % 2 == 0 }
    let places := digitCount target.value
    let found := target.search tie (places - 1)
    let trimmed := found.trim places
    ⟨trimmed.digits, trimmed.exponent + scale⟩

end Tdms.Decimal
