import Tdms.Scalar.Value

/-!
Properties: typed values that a file, a group or a channel carries under a
name.
-/

namespace Tdms

/-- A scalar type with one value of it. -/
structure Property where
  type : ScalarType
  value : type.Value

namespace Property

instance : DecidableEq Property
  | ⟨leftType, left⟩, ⟨rightType, right⟩ =>
    if same : leftType = rightType then by
      subst same
      exact decidable_of_iff (left = right) (by simp)
    else .isFalse fun equal => same (congrArg Property.type equal)

instance : Inhabited Property :=
  ⟨⟨.boolean, false⟩⟩

/-- The value as a number, if it is an integer that fits 64 signed bits. -/
def int64? (property : Property) : Option Int :=
  (property.type.integer? property.value).filter fun number => FitsInt64 number

/-- The value as text, if it is text. -/
def string? : Property → Option String
  | ⟨.string, text⟩ => some text
  | _ => none

end Property

end Tdms
