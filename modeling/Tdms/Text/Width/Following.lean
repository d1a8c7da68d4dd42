import Tdms.Text.Width.Emoji
import Tdms.Text.Width.Empty
import Tdms.Text.Width.Wide

/-!
Letters drawn together: what stands after a letter, as far as it decides how
many columns the letter takes.

A text is measured from its end. Each letter finds a `Following`, which tells
what the letters after it have become, and leaves another one to the letter
before it. A letter that is drawn as one with what follows takes no column of
its own, or takes one back.
-/

namespace Tdms.Text

/-- The part of a ligature that has been met, from its end. -/
inductive Ligature where
  | hebrewLamed
  /-- A Khmer consonant or vowel, which a coeng puts below the letter before it. -/
  | khmerLetter
  | bugineseYa
  | bugineseVowel
  | tifinaghConsonant
  /-- A Tifinagh consonant after a consonant joiner. -/
  | tifinaghJoined
  | lisuTone
  | orkhonVowel
  deriving DecidableEq, Repr

/-- What stands after a letter. -/
inductive Following where
  /-- Nothing with which a letter is drawn together. -/
  | plain
  /-- An alef, over empty letters across which Arabic letters join. -/
  | alef
  /-- Part of a ligature, with a joiner before it or without. -/
  | ligature (part : Ligature) (joined : Bool)
  /-- The vowel sign E of Kirat Rai. -/
  | kiratE
  /-- The vowel sign AI of Kirat Rai. -/
  | kiratAi
  /-- One regional indicator. -/
  | indicator
  /-- Two regional indicators or more. -/
  | indicators
  | skinTone
  | emoji
  /-- A joiner and a picture. -/
  | joinedEmoji
  /-- A keycap before a joiner and a picture. -/
  | joinedKeycap
  /-- One regional indicator before a joiner and a picture. -/
  | joinedIndicator
  /-- An even number of regional indicators before a joiner and a picture. -/
  | evenIndicators
  /-- Three or another odd number of regional indicators before a joiner and a picture. -/
  | oddIndicators
  /-- Tag letters and the end of tags before a joiner and a picture. -/
  | tagLetters (count : Nat)
  /-- Tag digits, and perhaps tag letters after them, and the end of tags before a joiner and a
  picture. -/
  | tagDigits (count : Nat)
  deriving DecidableEq, Repr, Inhabited

namespace Following

/-- Whether a selector leaves what follows it as it was. -/
def survivesSelector : Following → Bool
  | .alef | .ligature _ _ => true
  | _ => false

/-- Whether what follows is drawn over a joiner and the picture before it. -/
def isJoinedPicture : Following → Bool
  | .joinedEmoji | .joinedKeycap => true
  | _ => false

/-- Arabic letters that end in the shape of an alef. -/
def alefRanges : List (Nat × Nat) := [
  (0x622, 0x623), (0x625, 0x625), (0x627, 0x627), (0x671, 0x673), (0x675, 0x675),
  (0x773, 0x774), (0x870, 0x882)]

/-- Arabic letters of the shape of a lam, which are drawn as one with an alef after them. -/
def lamRanges : List (Nat × Nat) := [
  (0x644, 0x644), (0x6B5, 0x6B8), (0x76A, 0x76A), (0x8A6, 0x8A6), (0x8C7, 0x8C7)]

/-- Khmer letters that a coeng puts below the letter before it. -/
def khmerRanges : List (Nat × Nat) := [
  (0x1780, 0x1782), (0x1784, 0x1787), (0x1789, 0x178C), (0x178E, 0x1793), (0x1795, 0x1798),
  (0x179B, 0x179D), (0x17A0, 0x17A0), (0x17A2, 0x17A2), (0x17A7, 0x17A7), (0x17AB, 0x17AC),
  (0x17AF, 0x17AF)]

/-- Tifinagh consonants. -/
def tifinaghRanges : List (Nat × Nat) := [
  (0x2D31, 0x2D65), (0x2D6F, 0x2D6F)]

/-- Empty letters between the parts of a ligature that leave it as it is. -/
def ignoredRanges : List (Nat × Nat) := [
  (0x34F, 0x34F), (0x17B4, 0x17B5), (0x180B, 0x180D), (0x180F, 0x180F), (0xFE00, 0xFE0F),
  (0xE0100, 0xE01EF)]

/-- Whether `letter` is a tag letter. -/
def isTagLetter (letter : Char) : Bool :=
  0xE0061 ≤ letter.toNat && letter.toNat ≤ 0xE007A

/-- Whether `letter` is a tag digit. -/
def isTagDigit (letter : Char) : Bool :=
  0xE0030 ≤ letter.toNat && letter.toNat ≤ 0xE0039

/-- The columns of a letter that is drawn alone, and what it is to the letter before it. -/
def ofLetter (letter : Char) : Int × Following :=
  let code := letter.toNat
  if code ≤ 0xA0 then (1, .plain)
  else if code = 0x17D8 then (3, .plain)
  else if code = 0x17A4 then (2, .plain)
  else if code = 0x5DC then (1, .ligature .hebrewLamed false)
  else if inRanges alefRanges letter then (1, .alef)
  else if inRanges khmerRanges letter then (1, .ligature .khmerLetter false)
  else if code = 0x1A10 then (1, .ligature .bugineseYa false)
  else if inRanges tifinaghRanges letter then (1, .ligature .tifinaghConsonant false)
  else if code = 0xA4FC || code = 0xA4FD then (1, .ligature .lisuTone false)
  else if code = 0x10C03 then (1, .ligature .orkhonVowel false)
  else if code = 0x16D67 then (1, .kiratE)
  else if code = 0x16D68 then (1, .kiratAi)
  else if isIndicator letter then (1, .indicator)
  else if isSkinTone letter then (2, .skinTone)
  else if isEmoji letter then (2, .emoji)
  else if isEmptyLetter letter then (0, .plain)
  else if isWide letter then (2, .plain)
  else (1, .plain)

/-- A letter before a part of a ligature, if it is the next part or lies between the parts. -/
def beforeLigature? (letter : Char) (part : Ligature) (joined : Bool) :
    Option (Int × Following) :=
  let code := letter.toNat
  if code = 0x200D then some (0, .ligature part true)
  else if inRanges ignoredRanges letter then some (0, .ligature part joined)
  else
    match part with
    | .hebrewLamed => if joined && code = 0x5D0 then some (0, .plain) else none
    | .khmerLetter => if code = 0x17D2 then some (-1, .plain) else none
    | .bugineseYa =>
      if joined && code = 0x1A17 then some (0, .ligature .bugineseVowel true) else none
    | .bugineseVowel => if code = 0x1A15 then some (0, .plain) else none
    | .tifinaghConsonant =>
      if code = 0x2D7F then some (1, .ligature .tifinaghJoined true)
      else if joined && inRanges tifinaghRanges letter then some (0, .plain)
      else none
    | .tifinaghJoined => if inRanges tifinaghRanges letter then some (-1, .plain) else none
    | .lisuTone => if 0xA4F8 ≤ code && code ≤ 0xA4FB then some (0, .plain) else none
    | .orkhonVowel => if joined && code = 0x10C32 then some (0, .plain) else none

/-- A letter before a joiner and a picture, if it is drawn as one with them. -/
def beforeJoined? (letter : Char) : Option (Int × Following) :=
  let code := letter.toNat
  if code = 0x20E3 then some (0, .joinedKeycap)
  else if isIndicator letter then some (1, .joinedIndicator)
  else if isSkinTone letter then some (0, .skinTone)
  else if code = 0xE007F then some (0, .tagLetters 0)
  else if isEmoji letter then some (0, .emoji)
  else none

/-- A letter before others, if it is drawn as one with them. -/
def before? (letter : Char) : Following → Option (Int × Following)
  | .plain | .joinedKeycap => none
  | .alef =>
    if inRanges lamRanges letter then some (0, .plain)
    else if isTransparent letter then some (0, .alef)
    else none
  | .ligature part joined => beforeLigature? letter part joined
  | .kiratE =>
    match letter.toNat with
    | 0x16D63 => some (0, .plain)
    | 0x16D67 => some (0, .kiratAi)
    | 0x16D68 => some (1, .kiratE)
    | 0x16D69 => some (0, .plain)
    | _ => none
  | .kiratAi => if letter.toNat = 0x16D63 then some (0, .plain) else none
  | .indicator => if isIndicator letter then some (1, .indicators) else none
  | .indicators =>
    if isIndicator letter then some (1, .indicators)
    else if letter.toNat = 0x200D then some (0, .joinedEmoji)
    else none
  | .skinTone =>
    if isTintable letter then some (0, .emoji)
    else if letter.toNat = 0x200D then some (0, .joinedEmoji)
    else none
  | .emoji => if letter.toNat = 0x200D then some (0, .joinedEmoji) else none
  | .joinedEmoji => beforeJoined? letter
  | .joinedIndicator => if isIndicator letter then some (-1, .evenIndicators) else none
  | .evenIndicators =>
    if isIndicator letter then some (3, .oddIndicators)
    else if letter.toNat = 0x200D then some (0, .joinedEmoji)
    else none
  | .oddIndicators =>
    if isIndicator letter then some (-1, .evenIndicators)
    else if letter.toNat = 0x200D then some (0, .joinedEmoji)
    else none
  | .tagLetters count =>
    if isTagLetter letter && count < 6 then some (0, .tagLetters (count + 1))
    else if isTagDigit letter && count < 5 then some (0, .tagDigits 1)
    else if letter.toNat = 0x1F3F4 && 3 ≤ count then some (0, .emoji)
    else none
  | .tagDigits count =>
    if isTagDigit letter && count < 3 then some (0, .tagDigits (count + 1))
    else if letter.toNat = 0x1F3F4 && count = 3 then some (0, .emoji)
    else none

/-- The columns of a letter, and what it and the letters after it are to the letter before it. -/
def before (letter : Char) (following : Following) : Int × Following :=
  (following.before? letter).getD (ofLetter letter)

end Following

end Tdms.Text
