import Tdms.Text.Hex
import Tdms.Text.Unprintable

/-!
Text in double quotes, with escapes for all that would not show as itself.
-/

namespace Tdms.Text

/-- A character between double quotes: quotes and backslashes after a backslash, tab, return,
line feed and null by their letters, all else that is not shown as itself by its code point. -/
def escapeLetter (letter : Char) : String :=
  if letter = '"' then "\\\""
  else if letter = '\\' then "\\\\"
  else if letter = '\t' then "\\t"
  else if letter = '\r' then "\\r"
  else if letter = '\n' then "\\n"
  else if letter.toNat = 0 then "\\0"
  else if isUnprintable letter then "\\u\x7b" ++ hexDigits 1 letter.toNat ++ "\x7d"
  else letter.toString

/-- `text` in double quotes. -/
def quoted (text : String) : String :=
  "\"" ++ String.join (text.toList.map escapeLetter) ++ "\""

end Tdms.Text
