import Tdms.Scalar.Value

/-!
What the bits of a float stand for: a number `significand * 2 ^ exponent`, an
infinity, or no number.

`Decimal.FloatValue` is the common form of single and double floats. It also says
whether the next float below is only half as far away as the next one above,
which is so at the powers of two.
-/

namespace Tdms.Decimal

/-- What a float stands for, apart from its sign. -/
inductive Magnitude where
  | nan
  | infinite
  /-- The number `significand * 2 ^ exponent`. -/
  | finite (significand : Nat) (exponent : Int) (nearBelow : Bool)
  deriving DecidableEq, Repr, Inhabited

/-- What a float stands for. -/
structure FloatValue where
  negative : Bool
  magnitude : Magnitude
  deriving DecidableEq, Repr, Inhabited

/-- What `bits` stand for in a format with a sign, `exponentBits` bits of exponent and
`fractionBits` bits of fraction. -/
def FloatValue.ofBits (exponentBits fractionBits bits : Nat) : FloatValue :=
  let fraction := bits % (1 <<< fractionBits)
  let exponent := (bits >>> fractionBits) % (1 <<< exponentBits)
  let negative := bits.testBit (fractionBits + exponentBits)
  let middle : Nat := 1 <<< (exponentBits - 1)
  let lowest : Int := 2 - middle - fractionBits
  if exponent = (1 <<< exponentBits) - 1 then
    ⟨negative, if fraction = 0 then .infinite else .nan⟩
  else if exponent = 0 then ⟨negative, .finite fraction lowest false⟩
  else
    ⟨negative, .finite ((1 <<< fractionBits) + fraction) (lowest + exponent - 1)
      (fraction == 0 && exponent != 1)⟩

end Tdms.Decimal

namespace Tdms

/-- What a single float stands for. -/
def Binary32.decode (number : Binary32) : Decimal.FloatValue :=
  .ofBits 8 23 number.bits.toNat

/-- What a double float stands for. -/
def Binary64.decode (number : Binary64) : Decimal.FloatValue :=
  .ofBits 11 52 number.bits.toNat

/-- Whether a double float stands for a number. -/
def Binary64.isFinite (number : Binary64) : Bool :=
  match number.decode.magnitude with
  | .finite _ _ _ => true
  | .nan | .infinite => false

/-- Whether a double float stands for no number. -/
def Binary64.isNan (number : Binary64) : Bool :=
  number.decode.magnitude == .nan

/-- The double float closest to `significand * 2 ^ exponent`, of two the one with an even
significand. The number must not lie beyond the greatest double float, and its last place not
below that of the least. -/
def Binary64.ofScaled (negative : Bool) (significand : Nat) (exponent : Int) : Binary64 :=
  if significand = 0 then ⟨if negative then 0x8000000000000000 else 0⟩
  else
    let excess := Nat.log2 significand
    let kept := if 52 ≤ excess then significand >>> (excess - 52) else significand <<< (52 - excess)
    let dropped := if 52 ≤ excess then significand % (1 <<< (excess - 52)) else 0
    let half := if 52 < excess then 1 <<< (excess - 53) else 1
    let up := half < dropped || (half == dropped && kept % 2 == 1)
    let rounded := if up then kept + 1 else kept
    let biased := (exponent + excess + 1023).toNat
    let sign := if negative then 1 <<< 63 else 0
    ⟨UInt64.ofNat (sign + (biased <<< 52) + rounded - (1 <<< 52))⟩

/-- The double float closest to a whole number of at most 64 bits. -/
def Binary64.ofInt (number : Int) : Binary64 :=
  .ofScaled (number < 0) number.natAbs 0

/-- The double float that stands for the same number as a single float. The bits of a float that
stands for no number are put in front. -/
def Binary32.toBinary64 (number : Binary32) : Binary64 :=
  let decoded := number.decode
  let sign := if decoded.negative then 1 <<< 63 else 0
  match decoded.magnitude with
  | .infinite => ⟨UInt64.ofNat (sign + 0x7FF0000000000000)⟩
  | .nan =>
    let fraction := number.bits.toNat % (1 <<< 23)
    ⟨UInt64.ofNat (sign + 0x7FF0000000000000 + (fraction <<< 29))⟩
  | .finite significand exponent _ => .ofScaled decoded.negative significand exponent

end Tdms
