import Tdms.Decimal.Style
import Tdms.Text.Hex

/-!
JSON values and their text, on one line or indented.

Members of an object are written in the order of its list. Strings escape
quotes, backslashes and control characters and keep every other character.
-/

namespace Tdms

/-- A JSON value. -/
inductive Json where
  | null
  | bool (value : Bool)
  | int (value : Int)
  | float (value : Binary64)
  | string (value : String)
  | array (items : List Json)
  | object (members : List (String × Json))
  deriving Inhabited

namespace Json

/-- Floats from 0.00001 up to, but not including, 10^16 are positional and whole ones among them
end in a point and a zero; all others have an exponent with its sign. -/
def floatStyle : Decimal.Style where
  positional? := some (-5, 16)
  wholePoint := true
  exponentPlus := true
  tie := .even
  infinity := "null"
  nan := "null"

/-- A float as a value. What is no finite number is null. -/
def ofBinary64 (number : Binary64) : Json :=
  if number.isFinite then float number else null

/-- A character of a string. -/
def escapeLetter (letter : Char) : List Char :=
  if letter = '"' then ['\\', '"']
  else if letter = '\\' then ['\\', '\\']
  else if letter.toNat = 0x08 then ['\\', 'b']
  else if letter.toNat = 0x0C then ['\\', 'f']
  else if letter = '\n' then ['\\', 'n']
  else if letter = '\r' then ['\\', 'r']
  else if letter = '\t' then ['\\', 't']
  else if letter.toNat < 0x20 then '\\' :: 'u' :: (Text.hexDigits 4 letter.toNat).toList
  else [letter]

/-- A string in quotes. -/
def quote (text : String) : List Char :=
  '"' :: text.toList.flatMap escapeLetter ++ ['"']

/-- A number. -/
def intLetters (number : Int) : List Char :=
  (toString number).toList

/-- A finite float. -/
def floatLetters (number : Binary64) : List Char :=
  (floatStyle.write number.decode).toList

mutual

/-- A value on one line without blanks. -/
def compactLetters : Json → List Char
  | null => "null".toList
  | bool true => "true".toList
  | bool false => "false".toList
  | int value => intLetters value
  | float value => floatLetters value
  | string value => quote value
  | array items => '[' :: compactItems items ++ [']']
  | object members => '\x7b' :: compactMembers members ++ ['\x7d']

/-- Items with commas between them. -/
def compactItems : List Json → List Char
  | [] => []
  | [item] => compactLetters item
  | item :: rest => compactLetters item ++ ',' :: compactItems rest

/-- Members with commas between them. -/
def compactMembers : List (String × Json) → List Char
  | [] => []
  | [(name, value)] => quote name ++ ':' :: compactLetters value
  | (name, value) :: rest =>
    quote name ++ ':' :: compactLetters value ++ ',' :: compactMembers rest

end

/-- A line break and two blanks for each level. -/
def newLine (level : Nat) : List Char :=
  '\n' :: List.replicate (2 * level) ' '

mutual

/-- A value over several lines: every item and member on lines of its own, two blanks deeper than
what holds it. Nothing stands between the brackets of what is empty. -/
def prettyLetters (level : Nat) : Json → List Char
  | null => "null".toList
  | bool true => "true".toList
  | bool false => "false".toList
  | int value => intLetters value
  | float value => floatLetters value
  | string value => quote value
  | array [] => ['[', ']']
  | array (item :: rest) =>
    '[' :: prettyItems (level + 1) (item :: rest) ++ newLine level ++ [']']
  | object [] => ['\x7b', '\x7d']
  | object (member :: rest) =>
    '\x7b' :: prettyMembers (level + 1) (member :: rest) ++ newLine level ++ ['\x7d']

/-- Items, each on lines of its own. -/
def prettyItems (level : Nat) : List Json → List Char
  | [] => []
  | [item] => newLine level ++ prettyLetters level item
  | item :: rest => newLine level ++ prettyLetters level item ++ ',' :: prettyItems level rest

/-- Members, each on lines of its own. -/
def prettyMembers (level : Nat) : List (String × Json) → List Char
  | [] => []
  | [(name, value)] => newLine level ++ quote name ++ ':' :: ' ' :: prettyLetters level value
  | (name, value) :: rest =>
    newLine level ++ quote name ++ ':' :: ' ' :: prettyLetters level value ++
      ',' :: prettyMembers level rest

end

/-- A value on one line without blanks. -/
def compact (value : Json) : String :=
  String.ofList (compactLetters value)

/-- A value over several lines. -/
def pretty (value : Json) : String :=
  String.ofList (prettyLetters 0 value)

end Json

end Tdms
