/-!
Numbers in base sixteen, with lowercase letters.
-/

namespace Tdms.Text

/-- The digits of `number` in base sixteen, with zeros in front up to `width` digits. -/
def hexDigits (width number : Nat) : String :=
  let digits := Nat.toDigits 16 number
  String.ofList (List.replicate (width - digits.length) '0' ++ digits)

end Tdms.Text
