/-!
Byte order of a segment, and the numbers its bytes spell.

`littleValue` and `littleBytes` are the two directions of the positional
notation in base 256, least significant byte first. `ByteOrder.value` and
`ByteOrder.bytes` are the same for either order: the big order is the little
one with the bytes reversed.
-/

namespace Tdms

/-- Order in which the bytes of a number are stored. -/
inductive ByteOrder where
  /-- Least significant byte first. -/
  | little
  /-- Most significant byte first. -/
  | big
  deriving DecidableEq, Repr, Inhabited

/-- The number that `bytes` spell, least significant byte first. -/
def littleValue : List UInt8 → Nat
  | [] => 0
  | byte :: rest => byte.toNat + 256 * littleValue rest

/-- The `width` low bytes of `number`, least significant byte first. -/
def littleBytes : (width : Nat) → (number : Nat) → List UInt8
  | 0, _ => []
  | width + 1, number => UInt8.ofNat number :: littleBytes width (number / 256)

/-- A spelling has exactly the asked width. -/
theorem length_littleBytes (width number : Nat) :
    (littleBytes width number).length = width := by
  induction width generalizing number with
  | zero => rfl
  | succ width ih => simp [littleBytes, ih]

/-- Reading bytes as a number and spelling it at their width gives the bytes. -/
theorem littleBytes_littleValue (bytes : List UInt8) :
    littleBytes bytes.length (littleValue bytes) = bytes := by
  induction bytes with
  | nil => rfl
  | cons byte rest ih =>
    have low := byte.toNat_lt
    have quotient : (byte.toNat + 256 * littleValue rest) / 256 = littleValue rest := by omega
    simp only [littleValue, List.length_cons, littleBytes, quotient, ih, List.cons.injEq, and_true]
    apply UInt8.toNat_inj.1
    rw [UInt8.toNat_ofNat']
    omega

namespace ByteOrder

/-- The number that `bytes` spell in this order. -/
def value : ByteOrder → List UInt8 → Nat
  | little, bytes => littleValue bytes
  | big, bytes => littleValue bytes.reverse

/-- The `width` bytes that spell `number` in this order. -/
def bytes : ByteOrder → (width number : Nat) → List UInt8
  | little, width, number => littleBytes width number
  | big, width, number => (littleBytes width number).reverse

/-- The unsigned 16-bit number that `bytes` spell. -/
def uint16 (order : ByteOrder) (bytes : List UInt8) : UInt16 :=
  UInt16.ofNat (order.value bytes)

/-- The unsigned 32-bit number that `bytes` spell. -/
def uint32 (order : ByteOrder) (bytes : List UInt8) : UInt32 :=
  UInt32.ofNat (order.value bytes)

/-- The unsigned 64-bit number that `bytes` spell. -/
def uint64 (order : ByteOrder) (bytes : List UInt8) : UInt64 :=
  UInt64.ofNat (order.value bytes)

theorem length_bytes (order : ByteOrder) (width number : Nat) :
    (order.bytes width number).length = width := by
  cases order <;> simp [bytes, length_littleBytes]

theorem bytes_value (order : ByteOrder) (bytes : List UInt8) :
    order.bytes bytes.length (order.value bytes) = bytes := by
  cases order with
  | little => exact littleBytes_littleValue bytes
  | big =>
    have back := littleBytes_littleValue bytes.reverse
    rw [List.length_reverse] at back
    simp [value, ByteOrder.bytes, back]

end ByteOrder

end Tdms
