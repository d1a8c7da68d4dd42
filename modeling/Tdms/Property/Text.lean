import Tdms.Decimal.Style
import Tdms.Property
import Tdms.Timestamp.Text

/-!
Property values as text.
-/

namespace Tdms.Property

/-- Floats are written with all digits before and after the point and never with an exponent;
whole numbers have no point, and of two equally near decimals the greater is taken. -/
def floatStyle : Decimal.Style where
  positional? := none
  wholePoint := false
  exponentPlus := false
  tie := .up
  infinity := "inf"
  nan := "NaN"

/-- A complex number: its real part, then its imaginary part with a sign and the letter j. -/
def complexText (re im : Decimal.FloatValue) : String :=
  floatStyle.write re ++ floatStyle.writeSigned im ++ "j"

/-- A value as text. -/
def text : Property → String
  | ⟨.int8, value⟩ => toString value.toInt
  | ⟨.int16, value⟩ => toString value.toInt
  | ⟨.int32, value⟩ => toString value.toInt
  | ⟨.int64, value⟩ => toString value.toInt
  | ⟨.uint8, value⟩ => toString value.toNat
  | ⟨.uint16, value⟩ => toString value.toNat
  | ⟨.uint32, value⟩ => toString value.toNat
  | ⟨.uint64, value⟩ => toString value.toNat
  | ⟨.float32, value⟩ => floatStyle.write value.decode
  | ⟨.float64, value⟩ => floatStyle.write value.decode
  | ⟨.string, value⟩ => value
  | ⟨.boolean, value⟩ => if value then "true" else "false"
  | ⟨.timestamp, value⟩ => value.text
  | ⟨.complex64, value⟩ => complexText value.re.decode value.im.decode
  | ⟨.complex128, value⟩ => complexText value.re.decode value.im.decode

/-- The value as a double float, if it is a real number that fits one: floats as they are, and
integers that fit 64 signed bits rounded to the nearest. -/
def binary64? (property : Property) : Option Binary64 :=
  match property with
  | ⟨.float32, value⟩ => some value.toBinary64
  | ⟨.float64, value⟩ => some value
  | _ => property.int64?.map Binary64.ofInt

end Tdms.Property
