import Tdms.Text.Width

/-!
Lines that are too wide for the room they have, cut into lines that fit.

Words stay whole where they can. A word moves to a fresh line if that holds it,
and a word that no line holds is cut where the room ends. A line with room for
less than three columns is closed.
-/

namespace Tdms.Text

/-- The lines of a text. -/
def lines (text : String) : List String :=
  (text.toList.splitOn '\n').map String.ofList

/-- Cuts off as many letters as `room` columns hold, each with the columns that it takes alone. -/
def cutWord (room : Nat) : List Char → List Char × List Char
  | [] => ([], [])
  | letter :: rest =>
    let width := letterColumns letter
    if room < width then ([], letter :: rest)
    else
      let (fitting, rest) := cutWord (room - width) rest
      (letter :: fitting, rest)

/-- Cuts words into lines of at most `width` columns. The line that is being filled takes `used`
columns, and `line` holds its letters from the last to the first. -/
def wrapWords (width : Nat) : Nat → List Char → Nat → List (List Char) → List (List Char)
  | 0, _, _, _ => []
  | _ + 1, line, _, [] => if line.isEmpty then [] else [line.reverse]
  | fuel + 1, line, used, word :: words =>
    let start := if line.isEmpty then [] else ' ' :: line
    let taken := if line.isEmpty then used else used + 1
    let needed := lettersColumns word
    if taken + needed ≤ width then
      let line := word.reverse ++ start
      if width - 2 < taken + needed then line.reverse :: wrapWords width fuel [] 0 words
      else wrapWords width fuel line (taken + needed) words
    else if width < needed && (line.isEmpty || taken + 2 < width) then
      let (fitting, rest) := cutWord (width - taken) word
      (fitting.reverse ++ start).reverse :: wrapWords width fuel [] 0 (rest :: words)
    else line.reverse :: wrapWords width fuel [] 0 (word :: words)

/-- The lines into which `line` is cut so that none takes more than `width` columns. -/
def wrap (width : Nat) (line : String) : List String :=
  if columns line ≤ width then [line]
  else
    (wrapWords width (2 * line.length + 4) [] 0 (line.toList.splitOn ' ')).map String.ofList

end Tdms.Text
