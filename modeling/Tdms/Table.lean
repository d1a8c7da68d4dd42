import Tdms.Export.Column
import Tdms.Decimal.Style
import Tdms.Text.Wrap
import Tdms.Timestamp.Text

/-!
Tables: one column of values under a title, framed by rules.
-/

namespace Tdms.Table

/-- Double floats from 0.00001 up to, but not including, 10^16 are positional. -/
def doubleStyle : Decimal.Style where
  positional? := some (-5, 16)
  wholePoint := true
  exponentPlus := false
  tie := .even
  infinity := "inf"
  nan := "NaN"

/-- Single floats from 0.000001 up to, but not including, 10^13 are positional. -/
def singleStyle : Decimal.Style :=
  { doubleStyle with positional? := some (-6, 13) }

/-- A moment in nanoseconds since 1970, with as many groups of three digits after the second as
it needs. -/
def momentText (nanos : Int) : String :=
  let within := (nanos % nanosPerSecond).toNat
  let fraction :=
    if within = 0 then ""
    else if within % 1000000 = 0 then "." ++ paddedDigits 3 (within / 1000000)
    else if within % 1000 = 0 then "." ++ paddedDigits 6 (within / 1000)
    else "." ++ paddedDigits 9 within
  dateTimeText (nanos / nanosPerSecond) ++ fraction ++ "Z"

/-- An element of a column as a cell shows it. -/
def cellText : (type : Export.ColumnType) → type.Element → String
  | .null, _ => ""
  | .int8, value => toString value.toInt
  | .int16, value => toString value.toInt
  | .int32, value => toString value.toInt
  | .int64, value => toString value.toInt
  | .uint8, value => toString value.toNat
  | .uint16, value => toString value.toNat
  | .uint32, value => toString value.toNat
  | .uint64, value => toString value.toNat
  | .float32, value => singleStyle.write value.decode
  | .float64, value => doubleStyle.write value.decode
  | .boolean, value => if value then "true" else "false"
  | .utf8, value => value
  | .timestamp, value => momentText value.toInt

/-- The most columns that a cell or a rule takes. -/
def widest : Nat := 65535

/-- The columns that the widest line of any cell takes, at least one. -/
def width (cells : List String) : Nat :=
  min widest <| ((cells.flatMap Text.lines).map Text.columns).foldl max 1

/-- The lines of a cell that is `width` columns wide. -/
def cellLines (width : Nat) (cell : String) : List String :=
  (Text.lines cell).flatMap (Text.wrap width)

/-- A line of a cell between bars, filled up with blanks. -/
def cellLine (width : Nat) (line : String) : String :=
  "| " ++ line ++ String.ofList (List.replicate (width - Text.columns line) ' ') ++ " |"

/-- A rule as wide as the cells. -/
def rule (width : Nat) : String :=
  "+" ++ String.ofList (List.replicate (min widest (width + 2)) '-') ++ "+"

/-- A table with a title and one cell for each value. -/
def render (title : String) (cells : List String) : String :=
  let width := width (title :: cells)
  let body (cell : String) := (cellLines width cell).map (cellLine width)
  "\n".intercalate <|
    [rule width] ++ body title ++ [rule width] ++ cells.flatMap body ++ [rule width]

end Tdms.Table
