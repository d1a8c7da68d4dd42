import Tdms.Bytes.Order

/-!
Timestamps: signed whole seconds since 1904-01-01 00:00:00 UTC and an unsigned
fraction of a second in units of 2^-64 s.

In a file the little order stores the fraction first and the big order the
seconds first, so either form is the other with all sixteen bytes reversed.
`unixNanos?` counts nanoseconds since 1970, as far as a signed 64-bit number
holds both the whole seconds in nanoseconds and the sum.
-/

namespace Tdms

/-- Seconds from the start of 1904 to the start of 1970. -/
def epochSeconds : Int := 2082844800

/-- Nanoseconds in a second. -/
def nanosPerSecond : Nat := 1000000000

/-- Whether `number` is a signed 64-bit number. -/
def FitsInt64 (number : Int) : Prop :=
  Int64.minValue.toInt ≤ number ∧ number ≤ Int64.maxValue.toInt

instance (number : Int) : Decidable (FitsInt64 number) :=
  inferInstanceAs (Decidable (_ ∧ _))

/-- A moment, counted from the start of 1904. -/
structure Timestamp where
  /-- Whole seconds since the start of 1904. -/
  seconds : Int64
  /-- Fraction of a second in units of 2^-64 s. -/
  fractions : UInt64
  deriving DecidableEq, Repr, Inhabited

namespace Timestamp

/-- The moment whose little form is `bytes`: eight bytes of fraction, then eight of seconds. -/
def ofLittleBytes (bytes : List UInt8) : Timestamp where
  fractions := ByteOrder.little.uint64 (bytes.take 8)
  seconds := (ByteOrder.little.uint64 (bytes.drop 8)).toInt64

/-- The moment whose big form is `bytes`: eight bytes of seconds, then eight of fraction. -/
def ofBigBytes (bytes : List UInt8) : Timestamp where
  seconds := (ByteOrder.big.uint64 (bytes.take 8)).toInt64
  fractions := ByteOrder.big.uint64 (bytes.drop 8)

/-- The little form of a moment. -/
def toLittleBytes (moment : Timestamp) : List UInt8 :=
  ByteOrder.little.bytes 8 moment.fractions.toNat ++
    ByteOrder.little.bytes 8 moment.seconds.toUInt64.toNat

/-- Nanoseconds within the second, rounded down. -/
def subsecNanos (moment : Timestamp) : Nat :=
  moment.fractions.toNat * nanosPerSecond / UInt64.size

/-- Whole seconds since the start of 1970, no lower than the least signed 64-bit number. -/
def unixSeconds (moment : Timestamp) : Int :=
  max (moment.seconds.toInt - epochSeconds) Int64.minValue.toInt

/-- Nanoseconds since the start of 1970. The whole seconds must fit 64 signed bits in
nanoseconds before the nanoseconds within the second are added. -/
def unixNanos? (moment : Timestamp) : Option Int :=
  let whole := moment.unixSeconds * nanosPerSecond
  let total := whole + moment.subsecNanos
  if FitsInt64 whole ∧ FitsInt64 total then some total else none

/-- Earlier moments first. -/
def order (left right : Timestamp) : Ordering :=
  (compare left.seconds.toInt right.seconds.toInt).then
    (compare left.fractions.toNat right.fractions.toNat)

end Timestamp

end Tdms
