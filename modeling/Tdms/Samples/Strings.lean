import Tdms.Error

/-!
Chunks of strings: a table of end offsets, four bytes each, then the text of
all strings. Each string starts where the one before it ends.
-/

namespace Tdms.Samples

/-- The end offsets in the table of a chunk. -/
def endOffsets (order : ByteOrder) (count : Nat) (chunk : ByteArray) : List Nat :=
  (List.range count).map fun entry =>
    order.value (window chunk (4 * entry) 4).data.toList

/-- The strings of `text` with the given end offsets, the first of which starts at `start`. -/
def cut (text : ByteArray) : (start : Nat) → (stops : List Nat) → Except DataFault (List String)
  | _, [] => .ok []
  | start, stop :: rest =>
    if start ≤ stop ∧ stop ≤ text.size then
      match Utf8.decode (text.extract start stop).data.toList with
      | .error fault => .error (.text fault)
      | .ok first => (cut text stop rest).map (first :: ·)
    else .error (.stringBounds start stop)

/-- The `count` strings of a chunk. -/
def decodeStrings (order : ByteOrder) (count : Nat) (chunk : ByteArray) :
    Except DataFault (List String) :=
  if 4 * count ≤ chunk.size then
    cut (chunk.extract (4 * count) chunk.size) 0 (endOffsets order count chunk)
  else .error (.offsetTable count)

end Tdms.Samples
