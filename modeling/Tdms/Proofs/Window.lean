import Mathlib
import Tdms.Source

/-!
Windows onto bytes held in memory.

A source of bytes held in memory answers with a window onto them. A window onto
a window is one onto the bytes, and a window onto a part is that part. Of bytes
that are appended to others, a window shows what it shows of either: the later
ones are `Moved` behind the others.
-/

namespace Tdms

variable {content : ByteArray}

theorem window_window {offset outer start length : Nat} (inside : start + length ≤ outer) :
    window (window content offset outer) start length = window content (offset + start) length := by
  rw [window, window, window, ByteArray.extract_extract]
  congr 1
  omega

theorem window_whole (content : ByteArray) : window content 0 content.size = content := by
  rw [window, Nat.zero_add, ByteArray.extract_zero_size]

/-- A window is full exactly if it is empty or lies inside the content. -/
theorem size_window_eq_iff (content : ByteArray) (offset length : Nat) :
    (window content offset length).size = length ↔
      length = 0 ∨ offset + length ≤ content.size := by
  rw [window, ByteArray.size_extract]
  omega

/-- Windows that meet are one window. -/
theorem window_append (content : ByteArray) (offset length more : Nat) :
    window content offset length ++ window content (offset + length) more =
      window content offset (length + more) := by
  rw [window, window, window, ByteArray.extract_append_extract]
  congr 1
  · omega
  · omega

theorem read_ofBytes {offset length : Nat} (inside : offset + length ≤ content.size) :
    (Source.ofBytes content).read offset length = .ok (window content offset length) :=
  if_pos inside

/-- The source reports the length of the content and grants every read inside it. -/
structure Source.Grants (source : Source) (content : ByteArray) : Prop where
  length_eq : source.length = content.size
  read_eq : ∀ offset length, offset + length ≤ content.size →
    source.read offset length = .ok (window content offset length)

theorem grants_ofBytes (content : ByteArray) : (Source.ofBytes content).Grants content :=
  ⟨rfl, fun _ _ inside => read_ofBytes inside⟩

/-- A window onto a part of the content is that part. -/
theorem window_of_append {before part after : List UInt8}
    (whole : content.data.toList = before ++ (part ++ after)) {offset length : Nat}
    (start : before.length = offset) (size : part.length = length) :
    (window content offset length).data.toList = part := by
  rw [toList_window, whole, List.drop_left' start, List.take_left' size]

theorem size_of_toList {bytes : List UInt8}
    (whole : content.data.toList = bytes) : content.size = bytes.length := by
  rw [← whole, Array.length_toList]
  rfl

theorem toByteArray_toList (bytes : ByteArray) : bytes.data.toList.toByteArray = bytes := by
  apply ByteArray.ext
  rw [List.data_toByteArray]

theorem eq_of_toList {left right : ByteArray} (same : left.data.toList = right.data.toList) :
    left = right := by
  rw [← toByteArray_toList left, same, toByteArray_toList]

/-- Content that shows some bytes in a window, as other content does, goes on as far. -/
theorem le_of_window_eq {other : ByteArray} {offset length : Nat} (some : 0 < length)
    (inside : offset + length ≤ content.size)
    (same : window other offset length = window content offset length) :
    offset + length ≤ other.size := by
  have size := congrArg ByteArray.size same
  rw [size_window inside, window, ByteArray.size_extract] at size
  omega

/-! ## Bytes after bytes -/

theorem toList_append (left right : ByteArray) :
    (left ++ right).data.toList = left.data.toList ++ right.data.toList := by
  rw [ByteArray.data_append, Array.toList_append]

/-- What is appended does not show in a window before it. -/
theorem window_append_left {left : ByteArray} {offset length : Nat}
    (inside : offset + length ≤ left.size) (right : ByteArray) :
    window (left ++ right) offset length = window left offset length := by
  have size : left.size = left.data.toList.length := size_of_toList rfl
  apply eq_of_toList
  rw [toList_window, toList_window, toList_append, List.drop_append_of_le_length (by omega),
    List.take_append_of_le_length (by rw [List.length_drop]; omega)]

/-- What stands before the appended bytes does not show in a window onto them. -/
theorem window_append_right {left : ByteArray} {place offset : Nat}
    (behind : place = left.size + offset) (right : ByteArray) (length : Nat) :
    window (left ++ right) place length = window right offset length := by
  have size : left.size = left.data.toList.length := size_of_toList rfl
  apply eq_of_toList
  rw [toList_window, toList_window, toList_append, behind, size, ← List.drop_drop, List.drop_left]

/-- Behind `bytes` more bytes, `other` shows what `content` shows from `start` on. -/
structure Moved (content other : ByteArray) (bytes start : Nat) : Prop where
  size_eq : other.size = bytes + content.size
  window_eq : ∀ offset length, start ≤ offset → offset + length ≤ content.size →
    window other (bytes + offset) length = window content offset length

theorem moved_append (left right : ByteArray) : Moved right (left ++ right) left.size 0 :=
  ⟨ByteArray.size_append, fun _ length _ _ => window_append_right rfl right length⟩

/-- Content that is cut in two is whole again when the parts are put together. -/
theorem window_append_window {limit : Nat} (inside : limit ≤ content.size) :
    window content 0 limit ++ window content limit (content.size - limit) = content := by
  have joined := window_append content 0 limit (content.size - limit)
  rw [Nat.zero_add, Nat.add_sub_of_le inside] at joined
  rw [joined, window_whole]

end Tdms
