/-!
Sets of characters given by ascending ranges of code points.
-/

namespace Tdms.Text

/-- Whether one of the ranges holds the code point. A range that starts after it ends the search,
since the ranges ascend. -/
def holdsCode (code : Nat) : List (Nat × Nat) → Bool
  | [] => false
  | (first, last) :: rest =>
    if code < first then false
    else if code ≤ last then true
    else holdsCode code rest

/-- Whether a range of `ranges`, first and last code point included, holds `letter`. -/
def inRanges (ranges : List (Nat × Nat)) (letter : Char) : Bool :=
  holdsCode letter.toNat ranges

end Tdms.Text
