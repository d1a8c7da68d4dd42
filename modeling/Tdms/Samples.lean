import Tdms.Scalar.Value

/-!
The samples of a channel: a column of values of one type, or nothing for a
channel that never declared any.
-/

namespace Tdms

/-- All samples of a channel. -/
inductive Samples where
  /-- The channel never declared samples. -/
  | void
  | column (type : ScalarType) (values : List type.Value)
  deriving Inhabited

namespace Samples

instance : DecidableEq Samples
  | .void, .void => .isTrue rfl
  | .void, .column _ _ => .isFalse nofun
  | .column _ _, .void => .isFalse nofun
  | .column leftType left, .column rightType right =>
    if same : leftType = rightType then by
      subst same
      exact decidable_of_iff (left = right) (by simp)
    else .isFalse fun equal => same (by cases equal; rfl)

/-- Type of the samples. -/
def type? : Samples → Option ScalarType
  | void => none
  | column type _ => some type

/-- Number of samples. -/
def length : Samples → Nat
  | void => 0
  | column _ values => values.length

/-- Whether there is no sample. -/
def isEmpty (samples : Samples) : Bool :=
  samples.length == 0

/-- The samples as values of `type`, if that is their type. -/
def values? (type : ScalarType) : Samples → Option (List type.Value)
  | void => none
  | column found values => if same : found = type then some (same ▸ values) else none

end Samples

end Tdms
