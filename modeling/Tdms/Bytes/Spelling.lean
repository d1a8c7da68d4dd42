import Mathlib
import Tdms.Bytes.Order

/-!
Numbers and their spellings in bytes, in either order.

`ByteOrder.value_lt` bounds what bytes can spell by their width, and
`ByteOrder.value_bytes` says that a number that fits its width is read back
from its spelling.
-/

namespace Tdms

/-- Bytes never spell a number beyond their width. -/
theorem littleValue_lt (bytes : List UInt8) :
    littleValue bytes < 256 ^ bytes.length := by
  induction bytes with
  | nil => simp [littleValue]
  | cons byte rest ih =>
    have low := byte.toNat_lt
    simp only [littleValue, List.length_cons, pow_succ]
    omega

/-- Spelling a number that fits its width and reading it back gives the number. -/
theorem littleValue_littleBytes {width number : Nat} (fits : number < 256 ^ width) :
    littleValue (littleBytes width number) = number := by
  induction width generalizing number with
  | zero =>
    rw [pow_zero, Nat.lt_one_iff] at fits
    rw [fits]
    rfl
  | succ width ih =>
    have quotient : number / 256 < 256 ^ width := by
      rw [pow_succ] at fits
      omega
    rw [littleBytes, littleValue, ih quotient, UInt8.toNat_ofNat']
    omega

namespace ByteOrder

/-- Bytes never spell a number beyond their width, whatever their order. -/
theorem value_lt (order : ByteOrder) (bytes : List UInt8) :
    order.value bytes < 256 ^ bytes.length := by
  cases order with
  | little => exact littleValue_lt bytes
  | big =>
    rw [← List.length_reverse]
    exact littleValue_lt bytes.reverse

/-- A number that fits its width is read back from its spelling, whatever the order. -/
theorem value_bytes (order : ByteOrder) {width number : Nat} (fits : number < 256 ^ width) :
    order.value (order.bytes width number) = number := by
  cases order with
  | little => exact littleValue_littleBytes fits
  | big =>
    rw [value, bytes, List.reverse_reverse]
    exact littleValue_littleBytes fits

end ByteOrder

end Tdms
