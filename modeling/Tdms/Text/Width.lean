import Tdms.Text.Width.Following

/-!
Columns that a text takes on a terminal.

A wide letter or a picture takes two columns, a letter that is drawn over or as
one with its neighbours none, and all else one. A selector takes none, but may
change the letter before it.
-/

namespace Tdms.Text

/-- What a selector asks of the letter before it. -/
inductive Selector where
  /-- To be drawn as a picture. -/
  | picture
  /-- To be drawn as text. -/
  | text
  /-- To be drawn as wide as an ideograph. -/
  | wide
  deriving DecidableEq, Repr

/-- The selector that a letter is. -/
def Selector.ofLetter? (letter : Char) : Option Selector :=
  match letter.toNat with
  | 0xFE0F => some .picture
  | 0xFE0E => some .text
  | 0xFE01 => some .wide
  | _ => none

/-- Whether a selector makes text of the picture `letter`. Ideographs stay as wide as they are. -/
def hasTextForm (letter : Char) : Bool :=
  isSelectable letter && isEmoji letter &&
    !(0x1F200 ≤ letter.toNat && letter.toNat ≤ 0x1F2FF)

/-- Whether a selector makes `letter` as wide as an ideograph. -/
def isCurlyQuote (letter : Char) : Bool :=
  letter = '‘' || letter = '’' || letter = '“' || letter = '”'

/-- What has been met of a text, from its end. -/
structure Measured where
  /-- Columns of the letters that have been met. -/
  columns : Int
  following : Following
  /-- The selectors that ask something of the next letter, with the latest first. -/
  selectors : List Selector
  deriving DecidableEq, Repr, Inhabited

namespace Measured

/-- Nothing has been met. -/
def start : Measured :=
  ⟨0, .plain, []⟩

/-- What is left once a selector has found nothing to change. Where it stands before something
that survives selectors, other selectors go on asking. -/
def drop (found : Measured) (selector : Selector) : Measured :=
  if !found.selectors.contains selector then found
  else if found.following.survivesSelector then
    { found with selectors := found.selectors.filter (· != selector) }
  else { found with following := .plain, selectors := [] }

/-- Takes a letter before the letters that have been met, by its columns and what is left to the
letter before it. -/
def put (found : Measured) (taken : Int × Following) : Measured :=
  ⟨found.columns + taken.1, taken.2, []⟩

/-- Takes a selector before the letters that have been met. -/
def select (found : Measured) (selector : Selector) : Measured :=
  if found.following.survivesSelector then
    { found with selectors := selector :: found.selectors }
  else if selector = .picture && found.following.isJoinedPicture then
    { found with selectors := [selector] }
  else { found with following := .plain, selectors := [selector] }

/-- Takes a letter that no picture selector changes before the letters that have been met. -/
def pushUnpictured (found : Measured) (letter : Char) : Measured :=
  if letter.toNat ≤ 0xA0 then found.put (1, .plain)
  else
    match Selector.ofLetter? letter with
    | some selector => found.select selector
    | none =>
      if found.selectors.contains .text && hasTextForm letter then found.put (1, .plain)
      else if found.selectors.contains .wide && isCurlyQuote letter then found.put (2, .plain)
      else found.put (((found.drop .text).drop .wide).following.before letter)

/-- Takes a letter before the letters that have been met. -/
def push (found : Measured) (letter : Char) : Measured :=
  if found.selectors.contains .picture && isSelectable letter then
    found.put (if found.following.isJoinedPicture then 0 else 2, .emoji)
  else (found.drop .picture).pushUnpictured letter

end Measured

/-- Columns that `letter` takes alone. -/
def letterColumns (letter : Char) : Nat :=
  (Following.ofLetter letter).1.toNat

/-- Columns that `letters` take. -/
def lettersColumns (letters : List Char) : Nat :=
  (letters.foldr (fun letter (found : Measured) => found.push letter) .start).columns.toNat

/-- Columns that `text` takes. -/
def columns (text : String) : Nat :=
  lettersColumns text.toList

end Tdms.Text
