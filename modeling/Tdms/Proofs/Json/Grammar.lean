import Mathlib
import Tdms.Json

/-!
The grammar of JSON texts whose numbers are integers.

`Spells` says which letters spell a value, or a part of one: items between
brackets, members between braces, or a value with blanks around it. A string
has many spellings, for every letter of it may be escaped; a number has one, up
to the sign of zero; and blanks are free around every token.

What `Json.pretty` writes is a spelling: `spells_pretty` states it for values
without floats.
-/

namespace Tdms.Json

/-! ## Blanks -/

/-- Whether a letter may stand between tokens. -/
def isBlank (letter : Char) : Bool :=
  letter = ' ' || letter = '\t' || letter = '\n' || letter = '\r'

/-- Letters that may stand between tokens. -/
def Blank (text : List Char) : Prop :=
  ∀ letter ∈ text, isBlank letter = true

/-! ## Strings -/

/-- Letters that stand for another letter, or for themselves, behind a backslash. -/
def shortEscapes : List (Char × Char) :=
  [('"', '"'), ('\\', '\\'), ('/', '/'), ('b', Char.ofNat 0x08), ('f', Char.ofNat 0x0C),
    ('n', '\n'), ('r', '\r'), ('t', '\t')]

/-- The value of a hexadecimal digit of either case. -/
def hexDigit? (digit : Char) : Option Nat :=
  if '0' ≤ digit ∧ digit ≤ '9' then some (digit.toNat - 48)
  else if 'a' ≤ digit ∧ digit ≤ 'f' then some (digit.toNat - 87)
  else if 'A' ≤ digit ∧ digit ≤ 'F' then some (digit.toNat - 55)
  else none

/-- The number that four hexadecimal digits write. -/
def codeUnit? (first second third fourth : Char) : Option Nat := do
  let a ← hexDigit? first
  let b ← hexDigit? second
  let c ← hexDigit? third
  let d ← hexDigit? fourth
  some (((a * 16 + b) * 16 + c) * 16 + d)

/-- The first of two code units that stand for one letter. -/
def IsHigh (unit : Nat) : Prop :=
  0xD800 ≤ unit ∧ unit < 0xDC00

/-- The second of two code units that stand for one letter. -/
def IsLow (unit : Nat) : Prop :=
  0xDC00 ≤ unit ∧ unit < 0xE000

instance (unit : Nat) : Decidable (IsHigh unit) :=
  inferInstanceAs (Decidable (_ ∧ _))

instance (unit : Nat) : Decidable (IsLow unit) :=
  inferInstanceAs (Decidable (_ ∧ _))

/-- The number of the letter that two code units stand for. -/
def joined (high low : Nat) : Nat :=
  0x10000 + (high - 0xD800) * 0x400 + (low - 0xDC00)

/-- A letter that stands for itself. -/
def IsPlain (letter : Char) : Prop :=
  0x20 ≤ letter.toNat ∧ letter ≠ '"' ∧ letter ≠ '\\'

instance (letter : Char) : Decidable (IsPlain letter) :=
  inferInstanceAs (Decidable (_ ∧ _ ∧ _))

/-- A letter of a string: the letter itself, a short escape, or one or two code units. -/
inductive SpellsLetter : Char → List Char → Prop
  | plain {letter : Char} : IsPlain letter → SpellsLetter letter [letter]
  | short {code letter : Char} : (code, letter) ∈ shortEscapes →
    SpellsLetter letter ['\\', code]
  | unit {a b c d letter : Char} : codeUnit? a b c d = some letter.toNat →
    SpellsLetter letter ['\\', 'u', a, b, c, d]
  | pair {a b c d e f g h letter : Char} {high low : Nat} :
    codeUnit? a b c d = some high → codeUnit? e f g h = some low → IsHigh high → IsLow low →
    letter.toNat = joined high low →
    SpellsLetter letter ['\\', 'u', a, b, c, d, '\\', 'u', e, f, g, h]

/-- Letters of a string, one after another. -/
inductive SpellsLetters : List Char → List Char → Prop
  | nil : SpellsLetters [] []
  | cons {letter : Char} {rest first others : List Char} : SpellsLetter letter first →
    SpellsLetters rest others → SpellsLetters (letter :: rest) (first ++ others)

/-- A string: its letters in quotes. -/
inductive SpellsString : String → List Char → Prop
  | mk {text : String} {letters : List Char} : SpellsLetters text.toList letters →
    SpellsString text ('"' :: (letters ++ ['"']))

/-! ## Numbers -/

/-- A natural number: decimal digits, the first of which is no zero unless it is the only one. -/
structure SpellsNat (number : Nat) (digits : List Char) : Prop where
  digit : ∀ digit ∈ digits, digit.isDigit = true
  nonempty : digits ≠ []
  leading : digits.head? = some '0' → digits = ['0']
  value : Nat.ofDigitChars 10 digits 0 = number

/-- An integer: a natural number, with or without a minus sign. -/
inductive SpellsInt : Int → List Char → Prop
  | plain {number : Nat} {digits : List Char} : SpellsNat number digits →
    SpellsInt number digits
  | minus {number : Nat} {digits : List Char} : SpellsNat number digits →
    SpellsInt (-number) ('-' :: digits)

/-! ## Values -/

/-- A value, or a part of one. -/
inductive Part where
  | value (value : Json)
  /-- A value with blanks around it. -/
  | padded (value : Json)
  /-- Items with commas between them, at least one. -/
  | items (items : List Json)
  | member (member : String × Json)
  /-- Members with commas between them, at least one. -/
  | members (members : List (String × Json))

/-- The letters spell a value, or a part of one. -/
inductive Spells : Part → List Char → Prop
  | null : Spells (.value .null) ['n', 'u', 'l', 'l']
  | true : Spells (.value (.bool true)) ['t', 'r', 'u', 'e']
  | false : Spells (.value (.bool false)) ['f', 'a', 'l', 's', 'e']
  | int {number : Int} {text : List Char} : SpellsInt number text →
    Spells (.value (.int number)) text
  | string {value : String} {text : List Char} : SpellsString value text →
    Spells (.value (.string value)) text
  | emptyArray {gap : List Char} : Blank gap →
    Spells (.value (.array [])) ('[' :: (gap ++ [']']))
  | array {items : List Json} {text : List Char} : Spells (.items items) text →
    Spells (.value (.array items)) ('[' :: (text ++ [']']))
  | emptyObject {gap : List Char} : Blank gap →
    Spells (.value (.object [])) ('\x7b' :: (gap ++ ['\x7d']))
  | object {members : List (String × Json)} {text : List Char} : Spells (.members members) text →
    Spells (.value (.object members)) ('\x7b' :: (text ++ ['\x7d']))
  | padded {value : Json} {before text after : List Char} : Blank before →
    Spells (.value value) text → Blank after → Spells (.padded value) (before ++ (text ++ after))
  | item {item : Json} {text : List Char} : Spells (.padded item) text →
    Spells (.items [item]) text
  | items {item : Json} {rest : List Json} {text others : List Char} :
    Spells (.padded item) text → Spells (.items rest) others →
    Spells (.items (item :: rest)) (text ++ ',' :: others)
  | named {name : String} {value : Json} {before quoted behind text : List Char} :
    Blank before → SpellsString name quoted → Blank behind → Spells (.padded value) text →
    Spells (.member (name, value)) (before ++ (quoted ++ (behind ++ ':' :: text)))
  | member {member : String × Json} {text : List Char} : Spells (.member member) text →
    Spells (.members [member]) text
  | members {member : String × Json} {rest : List (String × Json)} {text others : List Char} :
    Spells (.member member) text → Spells (.members rest) others →
    Spells (.members (member :: rest)) (text ++ ',' :: others)

/-- The text is JSON and means the value: it spells the value with blanks around it. -/
def Means (text : String) (value : Json) : Prop :=
  Spells (.padded value) text.toList

/-! ## What is written is spelled -/

/-- A value without floats. -/
inductive FloatFree : Json → Prop
  | null : FloatFree .null
  | bool (value : Bool) : FloatFree (.bool value)
  | int (value : Int) : FloatFree (.int value)
  | string (value : String) : FloatFree (.string value)
  | array {items : List Json} : (∀ item ∈ items, FloatFree item) → FloatFree (.array items)
  | object {members : List (String × Json)} : (∀ member ∈ members, FloatFree member.2) →
    FloatFree (.object members)

theorem blank_nil : Blank [] :=
  nofun

theorem blank_newLine (level : Nat) : Blank (newLine level) := by
  intro letter listed
  rcases List.mem_cons.1 listed with rfl | more
  · rfl
  · rw [List.eq_of_mem_replicate more]
    rfl

/-- Control characters are written as the code unit of their number. -/
theorem codeUnit?_hexDigits : ∀ number < 0x20, ∃ a b c d,
    (Text.hexDigits 4 number).toList = [a, b, c, d] ∧ codeUnit? a b c d = some number := by
  intro number small
  interval_cases number
  all_goals exact ⟨_, _, _, _, rfl, rfl⟩

theorem spellsLetter_escapeLetter (letter : Char) : SpellsLetter letter (escapeLetter letter) := by
  unfold escapeLetter
  split
  · rename_i here
    exact .short (by rw [here]; decide)
  split
  · rename_i here
    exact .short (by rw [here]; decide)
  split
  · rename_i here
    exact .short (by rw [← letter.ofNat_toNat, here]; decide)
  split
  · rename_i here
    exact .short (by rw [← letter.ofNat_toNat, here]; decide)
  split
  · rename_i here
    exact .short (by rw [here]; decide)
  split
  · rename_i here
    exact .short (by rw [here]; decide)
  split
  · rename_i here
    exact .short (by rw [here]; decide)
  split
  · rename_i control
    rcases codeUnit?_hexDigits letter.toNat control with ⟨a, b, c, d, digits, unit⟩
    rw [digits]
    exact .unit unit
  · rename_i notQuote notBackslash _ _ _ _ _ printed
    exact .plain ⟨not_lt.1 printed, notQuote, notBackslash⟩

theorem spellsLetters_flatMap (letters : List Char) :
    SpellsLetters letters (letters.flatMap escapeLetter) := by
  induction letters with
  | nil => exact .nil
  | cons letter rest ih =>
    rw [List.flatMap_cons]
    exact .cons (spellsLetter_escapeLetter letter) ih

theorem spellsString_quote (text : String) : SpellsString text (quote text) :=
  .mk (spellsLetters_flatMap text.toList)

theorem toDigits_of_leading {number : Nat} (leading : (Nat.toDigits 10 number).head? = some '0') :
    Nat.toDigits 10 number = ['0'] := by
  induction number using Nat.strongRecOn with
  | ind number ih =>
    by_cases small : number < 10
    · rw [Nat.toDigits_of_lt_base small] at leading ⊢
      rw [Option.some.inj leading]
    · have split := Nat.toDigits_eq_if (b := 10) (n := number) (by decide)
      rw [if_neg small] at split
      rw [split, List.head?_append_of_ne_nil _ Nat.toDigits_ne_nil] at leading
      have earlier := ih (number / 10) (by omega) leading
      have value := Nat.ofDigitChars_toDigits (b := 10) (n := number / 10) (by decide) le_rfl
      rw [earlier] at value
      have zero : number / 10 = 0 := value.symm
      omega

theorem spellsNat_toDigits (number : Nat) : SpellsNat number (Nat.toDigits 10 number) where
  digit _ listed := Nat.isDigit_of_mem_toDigits (by decide) le_rfl listed
  nonempty := Nat.toDigits_ne_nil
  leading := toDigits_of_leading
  value := Nat.ofDigitChars_toDigits (by decide) le_rfl

theorem toList_repr (number : Nat) : number.repr.toList = Nat.toDigits 10 number := by
  rw [Nat.repr_eq_ofList_toDigits, String.toList_ofList]

theorem spellsInt_intLetters (number : Int) : SpellsInt number (intLetters number) := by
  cases number with
  | ofNat number =>
    change SpellsInt number number.repr.toList
    rw [toList_repr]
    exact .plain (spellsNat_toDigits number)
  | negSucc number =>
    have spelled := SpellsInt.minus (spellsNat_toDigits (number + 1))
    change SpellsInt (-((number + 1 : Nat) : Int)) ("-" ++ (number + 1).repr).toList
    rw [String.toList_append, toList_repr]
    exact spelled

/-- Items that are each spelled are spelled with commas and line breaks between them. -/
theorem spells_prettyItems {level : Nat} {items : List Json} (some : items ≠ [])
    (each : ∀ item ∈ items, Spells (.value item) (prettyLetters level item))
    {after : List Char} (blank : Blank after) :
    Spells (.items items) (prettyItems level items ++ after) := by
  induction items with
  | nil => exact absurd rfl some
  | cons item rest ih =>
    rcases List.forall_mem_cons.1 each with ⟨first, later⟩
    cases rest with
    | nil =>
      rw [prettyItems, List.append_assoc]
      exact .item (.padded (blank_newLine level) first blank)
    | cons next rest =>
      have padded := Spells.padded (blank_newLine level) first blank_nil
      have others := ih (List.cons_ne_nil _ _) later
      rw [List.append_nil] at padded
      rw [prettyItems, List.append_assoc, List.cons_append]
      · exact .items padded others
      · exact List.cons_ne_nil next rest

/-- Members of which each value is spelled are spelled with their names, and with commas and line
breaks between them. -/
theorem spells_prettyMembers {level : Nat} {members : List (String × Json)} (some : members ≠ [])
    (each : ∀ member ∈ members, Spells (.value member.2) (prettyLetters level member.2))
    {after : List Char} (blank : Blank after) :
    Spells (.members members) (prettyMembers level members ++ after) := by
  have space : Blank [' '] := by
    intro letter listed
    rw [List.mem_singleton.1 listed]
    rfl
  have named : ∀ member : String × Json, ∀ {after : List Char}, Blank after →
      Spells (.value member.2) (prettyLetters level member.2) →
      Spells (.member member) (newLine level ++ quote member.1 ++
        ':' :: ' ' :: prettyLetters level member.2 ++ after) := by
    intro member after blank value
    have spelled := Spells.named (blank_newLine level) (spellsString_quote member.1) blank_nil
      (.padded space value blank)
    simpa using spelled
  induction members with
  | nil => exact absurd rfl some
  | cons member rest ih =>
    rcases List.forall_mem_cons.1 each with ⟨first, later⟩
    rcases member with ⟨name, value⟩
    cases rest with
    | nil =>
      rw [prettyMembers]
      exact .member (named (name, value) blank first)
    | cons next rest =>
      have one := named (name, value) blank_nil first
      have others := ih (List.cons_ne_nil _ _) later
      rw [List.append_nil] at one
      rw [prettyMembers, List.append_assoc, List.cons_append]
      · exact .members one others
      · exact List.cons_ne_nil next rest

/-- A value that is written over several lines is spelled. -/
theorem spells_pretty {value : Json} (free : FloatFree value) (level : Nat) :
    Spells (.value value) (prettyLetters level value) := by
  induction free generalizing level with
  | null => exact .null
  | bool value =>
    cases value with
    | true => exact .true
    | false => exact .false
  | int value => exact .int (spellsInt_intLetters value)
  | string value => exact .string (spellsString_quote value)
  | @array items _ ih =>
    cases items with
    | nil => exact .emptyArray blank_nil
    | cons item rest =>
      have spelled := spells_prettyItems (List.cons_ne_nil item rest)
        (fun item listed => ih item listed (level + 1)) (blank_newLine level)
      rw [prettyLetters, List.cons_append, List.cons_append]
      exact .array spelled
  | @object members _ ih =>
    cases members with
    | nil => exact .emptyObject blank_nil
    | cons member rest =>
      have spelled := spells_prettyMembers (List.cons_ne_nil member rest)
        (fun member listed => ih member listed (level + 1)) (blank_newLine level)
      rw [prettyLetters, List.cons_append, List.cons_append]
      exact .object spelled

/-- What `pretty` writes of a value without floats is JSON and means the value, with a line break
behind it or without one. -/
theorem means_pretty {value : Json} (free : FloatFree value) :
    Means value.pretty value ∧ Means (value.pretty ++ "\n") value := by
  have spelled := spells_pretty free 0
  have plain := Spells.padded blank_nil spelled blank_nil
  have ended := Spells.padded blank_nil spelled (blank_newLine 0)
  rw [List.append_nil, List.nil_append] at plain
  refine ⟨?_, ?_⟩
  · rw [Means, pretty, String.toList_ofList]
    exact plain
  · rw [Means, String.toList_append, pretty, String.toList_ofList]
    exact ended

end Tdms.Json
