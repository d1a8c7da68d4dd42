/-!
Windows: the part of some bytes that starts at an offset and has a length.
-/

namespace Tdms

/-- Bytes are equal when their arrays are. -/
instance decidableEqBytes : DecidableEq ByteArray := fun left right =>
  decidable_of_iff (left.data = right.data) ByteArray.ext_iff.symm

/-- The `length` bytes of `content` from `offset` on, as far as there are any. -/
def window (content : ByteArray) (offset length : Nat) : ByteArray :=
  content.extract offset (offset + length)

/-- The bytes of a window are those of the content after the first `offset` and before the end
of the window. -/
theorem toList_window (content : ByteArray) (offset length : Nat) :
    (window content offset length).data.toList =
      (content.data.toList.drop offset).take length := by
  rw [window, ByteArray.data_extract, Array.toList_extract, List.extract_eq_take_drop]
  congr 1
  omega

/-- A window inside the content is full. -/
theorem size_window {content : ByteArray} {offset length : Nat}
    (inside : offset + length ≤ content.size) :
    (window content offset length).size = length := by
  rw [window, ByteArray.size_extract]
  omega

end Tdms
