import Tdms.Bytes.Order
import Tdms.Metadata

/-!
Reading the fields of a metadata block from front to back.

A cursor holds the bytes that are left and the number of bytes before them. A
reader takes bytes from the front or refuses the block; a refusal for want of
bytes names the length of the whole block and the position of the field.
-/

namespace Tdms.Metadata

/-- A place in a metadata block. -/
structure Cursor where
  /-- Bytes before this place. -/
  position : Nat
  /-- Bytes from this place on. -/
  rest : List UInt8

/-- A step through a metadata block. -/
abbrev Reader (α : Type) := StateT Cursor (Except Refusal) α

namespace Reader

/-- Refuses the block as corrupt. -/
def corrupt {α : Type} (fault : Fault) : Reader α :=
  fun _ => .error (.corrupt fault)

/-- Takes the next `count` bytes. -/
def take (count : Nat) : Reader (List UInt8) := fun cursor =>
  let taken := cursor.rest.take count
  if taken.length = count then
    .ok (taken, ⟨cursor.position + count, cursor.rest.drop count⟩)
  else
    let blockLength := cursor.position + cursor.rest.length
    .error (.corrupt (.endsEarly blockLength count cursor.position))

/-- Takes an unsigned 32-bit number. -/
def uint32 (order : ByteOrder) : Reader UInt32 :=
  order.uint32 <$> take 4

/-- Takes an unsigned 64-bit number. -/
def uint64 (order : ByteOrder) : Reader UInt64 :=
  order.uint64 <$> take 8

/-- Takes a text: its length in bytes, then its bytes. -/
def text (order : ByteOrder) : Reader String := do
  let length ← uint32 order
  let bytes ← take length.toNat
  match Utf8.decode bytes with
  | .ok text => pure text
  | .error fault => corrupt (.text fault)

/-- Runs `read` `count` times and lists what it read. -/
def many {α : Type} (read : Reader α) : (count : Nat) → Reader (List α)
  | 0 => pure []
  | count + 1 => do
    let first ← read
    let rest ← many read count
    pure (first :: rest)

end Reader

end Tdms.Metadata
