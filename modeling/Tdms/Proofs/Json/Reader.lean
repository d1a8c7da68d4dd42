import Mathlib
import Tdms.Proofs.Json.Grammar

/-!
A reader of JSON texts whose numbers are integers.

The reader goes through the letters once and looks no further ahead than the
next letter. It takes exactly the texts of the grammar: `parse?_eq_some_iff` is
the main result, so that a text means one value at most.
-/

namespace Tdms.Json

/-! ## Tokens -/

/-- The text behind the blanks that it starts with. -/
def skip (text : List Char) : List Char :=
  text.dropWhile isBlank

/-- The first letter of a string, and the letters after its spelling. -/
def readLetter? : List Char → Option (Char × List Char)
  | '\\' :: 'u' :: a :: b :: c :: d :: rest =>
    match codeUnit? a b c d with
    | none => none
    | some unit =>
      if IsHigh unit then
        match rest with
        | '\\' :: 'u' :: e :: f :: g :: h :: rest =>
          match codeUnit? e f g h with
          | none => none
          | some low => if IsLow low then some (Char.ofNat (joined unit low), rest) else none
        | _ => none
      else if IsLow unit then none
      else some (Char.ofNat unit, rest)
  | '\\' :: code :: rest => (shortEscapes.lookup code).map fun letter => (letter, rest)
  | letter :: rest => if IsPlain letter then some (letter, rest) else none
  | [] => none

/-- The letters of a string up to its closing quote, and the letters after that. No more letters are
read than there is fuel. -/
def readLetters? : (fuel : Nat) → List Char → Option (List Char × List Char)
  | 0, _ => none
  | fuel + 1, text =>
    match text with
    | '"' :: rest => some ([], rest)
    | _ =>
      match readLetter? text with
      | none => none
      | some (letter, rest) =>
        (readLetters? fuel rest).map fun found => (letter :: found.1, found.2)

/-- A string, and the letters after its closing quote. -/
def readString? : List Char → Option (String × List Char)
  | '"' :: rest =>
    (readLetters? rest.length rest).map fun found => (String.ofList found.1, found.2)
  | _ => none

/-- A natural number, and the letters after its last digit. -/
def readNat? (text : List Char) : Option (Nat × List Char) :=
  let digits := text.takeWhile Char.isDigit
  if digits = [] ∨ (digits.head? = some '0' ∧ digits ≠ ['0']) then none
  else some (Nat.ofDigitChars 10 digits 0, text.dropWhile Char.isDigit)

/-- An integer, and the letters after its last digit. -/
def readInt? : List Char → Option (Int × List Char)
  | '-' :: rest => (readNat? rest).map fun found => (-found.1, found.2)
  | text => (readNat? text).map fun found => (found.1, found.2)

/-! ## Values -/

/-- A value with blanks around it, and the letters after them. -/
def padded (read : List Char → Option (Json × List Char)) (text : List Char) :
    Option (Json × List Char) :=
  (read (skip text)).map fun found => (found.1, skip found.2)

/-- A member of an object with blanks around it, and the letters after them. -/
def readMember? (read : List Char → Option (Json × List Char)) (text : List Char) :
    Option ((String × Json) × List Char) :=
  match readString? (skip text) with
  | none => none
  | some (name, rest) =>
    match skip rest with
    | ':' :: rest => (padded read rest).map fun found => ((name, found.1), found.2)
    | _ => none

/-- Parts with commas between them, at least one, and the letters after them. -/
def separated {α : Type} (one : List Char → Option (α × List Char))
    (more : List Char → Option (List α × List Char)) (text : List Char) :
    Option (List α × List Char) :=
  match one text with
  | none => none
  | some (first, ',' :: rest) => (more rest).map fun found => (first :: found.1, found.2)
  | some (first, rest) => some ([first], rest)

/-- What stands before a closing letter, if it is more than blanks, and the letters after that. -/
def enclosed {α : Type} (closing : Char) (inner : List Char → Option (List α × List Char))
    (text : List Char) : Option (List α × List Char) :=
  if (skip text).head? = some closing then some ([], (skip text).tail)
  else
    match inner text with
    | some (found, letter :: rest) => if letter = closing then some (found, rest) else none
    | _ => none

mutual

/-- A value, and the letters after it. Values inside it are read as deep and as far as there is
fuel. -/
def readValue? : (fuel : Nat) → List Char → Option (Json × List Char)
  | 0, _ => none
  | fuel + 1, text =>
    match text with
    | 'n' :: 'u' :: 'l' :: 'l' :: rest => some (.null, rest)
    | 't' :: 'r' :: 'u' :: 'e' :: rest => some (.bool true, rest)
    | 'f' :: 'a' :: 'l' :: 's' :: 'e' :: rest => some (.bool false, rest)
    | '"' :: rest => (readString? ('"' :: rest)).map fun found => (.string found.1, found.2)
    | '[' :: rest =>
      (enclosed ']' (readItems? fuel) rest).map fun found => (.array found.1, found.2)
    | '\x7b' :: rest =>
      (enclosed '\x7d' (readMembers? fuel) rest).map fun found => (.object found.1, found.2)
    | _ => (readInt? text).map fun found => (.int found.1, found.2)

/-- Items with commas between them, and the letters after them. -/
def readItems? : (fuel : Nat) → List Char → Option (List Json × List Char)
  | 0, _ => none
  | fuel + 1, text => separated (padded (readValue? fuel)) (readItems? fuel) text

/-- Members with commas between them, and the letters after them. -/
def readMembers? : (fuel : Nat) → List Char → Option (List (String × Json) × List Char)
  | 0, _ => none
  | fuel + 1, text => separated (readMember? (readValue? fuel)) (readMembers? fuel) text

end

/-- The value that a text means, if it is JSON without fractions and exponents. -/
def parse? (text : String) : Option Json :=
  match padded (readValue? text.toList.length) text.toList with
  | some (value, []) => some value
  | _ => none

/-! ## Blanks -/

/-- The text does not go on with a letter that `go` accepts. -/
def EndsBefore (go : Char → Bool) (rest : List Char) : Prop :=
  ∀ letter ∈ rest.head?, go letter = false

theorem endsBefore_nil (go : Char → Bool) : EndsBefore go [] := by
  intro letter head
  cases head

theorem endsBefore_cons {go : Char → Bool} {letter : Char} (stops : go letter = false)
    (rest : List Char) : EndsBefore go (letter :: rest) := by
  intro first head
  cases head
  exact stops

theorem dropWhile_append {go : Char → Bool} {taken rest : List Char}
    (all : ∀ letter ∈ taken, go letter = true) (stop : EndsBefore go rest) :
    (taken ++ rest).takeWhile go = taken ∧ (taken ++ rest).dropWhile go = rest := by
  rw [List.takeWhile_append_of_pos all, List.dropWhile_append_of_pos all]
  cases rest with
  | nil => exact ⟨List.append_nil taken, rfl⟩
  | cons letter rest =>
    have stays := stop letter rfl
    rw [List.takeWhile_cons_of_neg (by simp [stays]), List.dropWhile_cons_of_neg (by simp [stays])]
    exact ⟨List.append_nil taken, rfl⟩

theorem skip_append {before rest : List Char} (blank : Blank before)
    (stop : EndsBefore isBlank rest) : skip (before ++ rest) = rest :=
  (dropWhile_append blank stop).2

/-- What is skipped is blank. -/
theorem exists_skip (text : List Char) :
    ∃ before, Blank before ∧ text = before ++ skip text := by
  refine ⟨text.takeWhile isBlank, fun letter listed => ?_, ?_⟩
  · exact List.mem_takeWhile_imp listed
  · exact List.takeWhile_append_dropWhile.symm

/-! ## Strings -/

theorem not_isHigh_toNat (letter : Char) : ¬ IsHigh letter.toNat ∧ ¬ IsLow letter.toNat := by
  have valid := letter.valid
  unfold IsHigh IsLow
  rw [UInt32.isValidChar, Nat.isValidChar] at valid
  change letter.toNat < _ ∨ _ < letter.toNat ∧ letter.toNat < _ at valid
  omega

theorem readLetter?_of_spells {letter : Char} {taken : List Char}
    (spelled : SpellsLetter letter taken) (rest : List Char) :
    readLetter? (taken ++ rest) = some (letter, rest) := by
  cases spelled with
  | plain plain =>
    have notEscape := plain.2.2
    rw [List.singleton_append]
    unfold readLetter?
    split
    · rename_i same
      exact absurd (List.cons.inj same).1 notEscape
    · rename_i same
      exact absurd (List.cons.inj same).1 notEscape
    · rename_i same
      cases same
      exact if_pos plain
    · rename_i same
      cases same
  | short listed =>
    simp only [shortEscapes, List.mem_cons, Prod.mk.injEq, List.not_mem_nil, or_false] at listed
    rcases listed with ⟨rfl, rfl⟩ | ⟨rfl, rfl⟩ | ⟨rfl, rfl⟩ | ⟨rfl, rfl⟩ | ⟨rfl, rfl⟩ | ⟨rfl, rfl⟩ |
      ⟨rfl, rfl⟩ | ⟨rfl, rfl⟩
    all_goals rfl
  | unit unit =>
    rcases not_isHigh_toNat letter with ⟨notHigh, notLow⟩
    simp only [List.cons_append, List.nil_append, readLetter?, unit, if_neg notHigh, if_neg notLow,
      Char.ofNat_toNat]
  | pair first second isHigh isLow value =>
    simp only [List.cons_append, List.nil_append, readLetter?, first, second, if_pos isHigh,
      if_pos isLow, ← value, Char.ofNat_toNat]

/-- No letter of a string starts with a quote. -/
theorem head?_of_spellsLetter {letter : Char} {taken : List Char}
    (spelled : SpellsLetter letter taken) :
    ∃ first others, taken = first :: others ∧ first ≠ '"' := by
  cases spelled with
  | plain plain => exact ⟨letter, [], rfl, plain.2.1⟩
  | short _ | unit _ | pair _ _ _ _ _ => exact ⟨'\\', _, rfl, by decide⟩

theorem readLetters?_of_spells {letters taken : List Char} (spelled : SpellsLetters letters taken)
    {fuel : Nat} (enough : taken.length < fuel) (rest : List Char) :
    readLetters? fuel (taken ++ '"' :: rest) = some (letters, rest) := by
  induction spelled generalizing fuel with
  | nil =>
    rcases Nat.exists_eq_succ_of_ne_zero enough.ne' with ⟨left, rfl⟩
    rfl
  | @cons letter letters first others one _ ih =>
    rcases head?_of_spellsLetter one with ⟨start, tail, rfl, notQuote⟩
    rw [List.length_append, List.length_cons] at enough
    rcases Nat.exists_eq_succ_of_ne_zero (Nat.ne_zero_of_lt enough) with ⟨left, rfl⟩
    have read := readLetter?_of_spells one (others ++ '"' :: rest)
    have later := ih (show others.length < left by omega)
    rw [List.append_assoc]
    rw [List.cons_append] at read ⊢
    unfold readLetters?
    split
    · rename_i same
      exact absurd (List.cons.inj same).1 notQuote
    · rw [read]
      dsimp only
      rw [later]
      rfl

theorem readString?_of_spells {text : String} {taken : List Char}
    (spelled : SpellsString text taken) (rest : List Char) :
    readString? (taken ++ rest) = some (text, rest) := by
  rcases spelled with ⟨letters⟩
  rename_i taken
  have enough : taken.length < (taken ++ '"' :: rest).length := by
    rw [List.length_append, List.length_cons]
    omega
  have read := readLetters?_of_spells letters enough rest
  rw [List.cons_append, List.append_assoc, List.singleton_append, readString?, read,
    Option.map_some, String.ofList_toList]

/-! ## Numbers -/

theorem readNat?_of_spells {number : Nat} {digits rest : List Char}
    (spelled : SpellsNat number digits) (stop : EndsBefore Char.isDigit rest) :
    readNat? (digits ++ rest) = some (number, rest) := by
  rcases dropWhile_append spelled.digit stop with ⟨taken, left⟩
  have accepted : ¬ (digits = [] ∨ (digits.head? = some '0' ∧ digits ≠ ['0'])) := by
    intro refused
    rcases refused with empty | ⟨leading, more⟩
    · exact spelled.nonempty empty
    · exact more (spelled.leading leading)
  simp only [readNat?, taken, left, if_neg accepted, spelled.value]

/-- A number starts with a digit or with a minus sign. -/
theorem head?_of_spellsInt {number : Int} {text : List Char} (spelled : SpellsInt number text) :
    ∃ first others, text = first :: others ∧ (first.isDigit = true ∨ first = '-') := by
  cases spelled with
  | plain digits =>
    rcases List.exists_cons_of_ne_nil digits.nonempty with ⟨first, others, rfl⟩
    exact ⟨first, others, rfl, .inl (digits.digit first List.mem_cons_self)⟩
  | minus digits => exact ⟨'-', _, rfl, .inr rfl⟩

theorem readInt?_of_spells {number : Int} {text rest : List Char}
    (spelled : SpellsInt number text) (stop : EndsBefore Char.isDigit rest) :
    readInt? (text ++ rest) = some (number, rest) := by
  cases spelled with
  | plain digits =>
    have read := readNat?_of_spells digits stop
    unfold readInt?
    split
    · rename_i same
      rcases List.exists_cons_of_ne_nil digits.nonempty with ⟨first, others, rfl⟩
      have digit := digits.digit first List.mem_cons_self
      rw [(List.cons.inj same).1] at digit
      cases digit
    · rw [read]
      rfl
  | minus digits =>
    rw [List.cons_append, readInt?, readNat?_of_spells digits stop]
    rfl

/-! ## Every spelling is read -/

theorem isDigit_of_isBlank {letter : Char} (blank : isBlank letter = true) :
    letter.isDigit = false := by
  simp only [isBlank, Bool.or_eq_true, decide_eq_true_eq] at blank
  rcases blank with ((rfl | rfl) | rfl) | rfl
  all_goals rfl

/-- What may follow a part, so that it is not read on: no digit behind a value, and neither a blank
nor a comma where these would belong to the part. -/
def Part.Follows (rest : List Char) : Part → Prop
  | .value _ => EndsBefore Char.isDigit rest
  | .padded _ | .member _ => EndsBefore Char.isDigit rest ∧ EndsBefore isBlank rest
  | .items _ | .members _ =>
    EndsBefore Char.isDigit rest ∧ EndsBefore isBlank rest ∧ rest.head? ≠ some ','

/-- The part is read of the text up to `rest`. -/
def Part.IsRead (fuel : Nat) (text rest : List Char) : Part → Prop
  | .value found => readValue? fuel text = some (found, rest)
  | .padded found => Json.padded (readValue? fuel) text = some (found, rest)
  | .items found => readItems? fuel text = some (found, rest)
  | .member found => readMember? (readValue? fuel) text = some (found, rest)
  | .members found => readMembers? fuel text = some (found, rest)

/-- A letter that closes an array or object may follow any part. -/
theorem Part.follows_closing (closing : Char)
    (ends : closing.isDigit = false ∧ isBlank closing = false ∧ closing ≠ ',') (part : Part)
    (rest : List Char) : part.Follows (closing :: rest) := by
  rcases ends with ⟨noDigit, noBlank, noComma⟩
  have digit := endsBefore_cons noDigit rest
  have blank := endsBefore_cons noBlank rest
  have comma : (closing :: rest).head? ≠ some ',' := fun same => noComma (Option.some.inj same)
  cases part with
  | value _ => exact digit
  | padded _ | member _ => exact ⟨digit, blank⟩
  | items _ | members _ => exact ⟨digit, blank, comma⟩

/-- The fuel that a part takes beside its letters. -/
def Part.extra : Part → Nat
  | .value _ | .padded _ | .member _ => 0
  | .items _ | .members _ => 1

/-- Behind blanks a part starts with a letter that closes nothing. A value starts with no blank. -/
theorem start_of_spells {part : Part} {text : List Char} (spelled : Spells part text) :
    ∃ before first others, text = before ++ first :: others ∧ Blank before ∧
      isBlank first = false ∧ first ≠ ']' ∧ first ≠ '\x7d' ∧
      ∀ value, part = .value value → before = [] := by
  induction spelled with
  | null | true | false | emptyArray _ | array _ | emptyObject _ | object _ =>
    exact ⟨[], _, _, rfl, blank_nil, by decide, by decide, by decide, fun _ _ => rfl⟩
  | int spelled =>
    rcases head?_of_spellsInt spelled with ⟨first, others, rfl, closes⟩
    refine ⟨[], first, others, rfl, blank_nil, ?_, ?_, ?_, fun _ _ => rfl⟩
    all_goals rcases closes with digit | rfl
    · by_contra blank
      rw [isDigit_of_isBlank (Bool.eq_true_of_not_eq_false blank)] at digit
      cases digit
    · decide
    · exact fun same => absurd (same ▸ digit) (by decide)
    · decide
    · exact fun same => absurd (same ▸ digit) (by decide)
    · decide
  | string spelled =>
    rcases spelled with ⟨-⟩
    exact ⟨[], _, _, rfl, blank_nil, by decide, by decide, by decide, fun _ _ => rfl⟩
  | @padded _ before text after blank _ _ ih =>
    rcases ih with ⟨inner, first, others, rfl, -, notBlank, notBracket, notBrace, none⟩
    rw [none _ rfl]
    exact ⟨before, first, others ++ after, rfl, blank, notBlank, notBracket, notBrace, nofun⟩
  | named blank quoted _ _ =>
    rcases quoted with ⟨-⟩
    exact ⟨_, _, _, rfl, blank, by decide, by decide, by decide, nofun⟩
  | item _ ih | member _ ih =>
    rcases ih with ⟨before, first, others, rfl, blank, notBlank, notBracket, notBrace, -⟩
    exact ⟨before, first, others, rfl, blank, notBlank, notBracket, notBrace, nofun⟩
  | items _ _ ih _ | members _ _ ih _ =>
    rcases ih with ⟨before, first, others, rfl, blank, notBlank, notBracket, notBrace, -⟩
    exact ⟨before, first, _, List.append_assoc _ _ _, blank, notBlank, notBracket, notBrace, nofun⟩

theorem readValue?_number {fuel : Nat} {first : Char} {others : List Char}
    (starts : first.isDigit = true ∨ first = '-') :
    readValue? (fuel + 1) (first :: others) =
      (readInt? (first :: others)).map fun found => (.int found.1, found.2) := by
  have differs : ∀ letter : Char, letter.isDigit = false → letter ≠ '-' → first ≠ letter := by
    intro letter noDigit noSign same
    rw [same, noDigit] at starts
    rcases starts with digit | sign
    · cases digit
    · exact noSign sign
  unfold readValue?
  split
  all_goals first
    | rename_i same
      exact absurd (List.cons.inj same).1 (differs _ (by decide) (by decide))
    | rfl

/-- A part of an array or object does not start with what closes it. -/
theorem head?_skip_of_spells {part : Part} {text : List Char} (spelled : Spells part text)
    (rest : List Char) :
    (skip (text ++ rest)).head? ≠ some ']' ∧ (skip (text ++ rest)).head? ≠ some '\x7d' := by
  rcases start_of_spells spelled with
    ⟨before, first, others, rfl, blank, notBlank, notBracket, notBrace, -⟩
  have stop : EndsBefore isBlank (first :: (others ++ rest)) := by
    intro letter head
    cases head
    exact notBlank
  rw [List.append_assoc, List.cons_append, skip_append blank stop, List.head?_cons]
  exact ⟨fun same => notBracket (Option.some.inj same), fun same => notBrace (Option.some.inj same)⟩

/-- Blanks end what blanks do not belong to, and so does what follows them. -/
theorem endsBefore_append {go : Char → Bool} {after rest : List Char} (blank : Blank after)
    (blanks : ∀ letter, isBlank letter = true → go letter = false) (stop : EndsBefore go rest) :
    EndsBefore go (after ++ rest) := by
  cases after with
  | nil => exact stop
  | cons letter more =>
    exact endsBefore_cons (blanks letter (blank letter List.mem_cons_self)) (more ++ rest)

theorem padded_append {read : List Char → Option (Json × List Char)} {value : Json}
    {before inner after rest : List Char} (blank : Blank before) (starts : EndsBefore isBlank inner)
    (found : read inner = some (value, after ++ rest)) (ends : Blank after)
    (stop : EndsBefore isBlank rest) : padded read (before ++ inner) = some (value, rest) := by
  rw [padded, skip_append blank starts, found, Option.map_some, skip_append ends stop]

theorem readMember?_append {read : List Char → Option (Json × List Char)} {name : String}
    {value : Json} {before quoted behind text rest : List Char} (blank : Blank before)
    (spelled : SpellsString name quoted) (ends : Blank behind)
    (found : padded read text = some (value, rest)) :
    readMember? read (before ++ (quoted ++ (behind ++ ':' :: text))) =
      some ((name, value), rest) := by
  have named := readString?_of_spells spelled (behind ++ ':' :: text)
  have starts : EndsBefore isBlank (quoted ++ (behind ++ ':' :: text)) := by
    rcases spelled with ⟨-⟩
    exact endsBefore_cons (by decide) _
  have colon := skip_append ends (endsBefore_cons (show isBlank ':' = false by decide) text)
  simp only [readMember?, skip_append blank starts, named, colon, found, Option.map_some]

theorem separated_last {α : Type} {one : List Char → Option (α × List Char)}
    {more : List Char → Option (List α × List Char)} {text rest : List Char} {first : α}
    (found : one text = some (first, rest)) (last : rest.head? ≠ some ',') :
    separated one more text = some ([first], rest) := by
  unfold separated
  rw [found]
  cases rest with
  | nil => rfl
  | cons letter rest =>
    have noComma : letter ≠ ',' := fun same => last (congrArg some same)
    split
    · contradiction
    · rename_i same
      cases same
      exact absurd rfl noComma
    · rename_i same
      cases same
      rfl

theorem separated_more {α : Type} {one : List Char → Option (α × List Char)}
    {more : List Char → Option (List α × List Char)} {text others rest : List Char} {first : α}
    {further : List α} (found : one text = some (first, ',' :: others))
    (later : more others = some (further, rest)) :
    separated one more text = some (first :: further, rest) := by
  simp only [separated, found, later, Option.map_some]

theorem enclosed_empty {α : Type} {closing : Char}
    {inner : List Char → Option (List α × List Char)} {gap : List Char} (blank : Blank gap)
    (closes : isBlank closing = false) (rest : List Char) :
    enclosed closing inner (gap ++ closing :: rest) = some ([], rest) := by
  unfold enclosed
  rw [skip_append blank (endsBefore_cons closes rest), if_pos List.head?_cons, List.tail_cons]

theorem enclosed_some {α : Type} {closing : Char}
    {inner : List Char → Option (List α × List Char)} {text rest : List Char} {found : List α}
    (starts : (skip text).head? ≠ some closing)
    (read : inner text = some (found, closing :: rest)) :
    enclosed closing inner text = some (found, rest) := by
  unfold enclosed
  rw [if_neg starts, read]
  exact if_pos rfl

/-- Every part is read of a text that starts with its spelling, if there is fuel for its letters. -/
theorem isRead_of_spells {part : Part} {text : List Char} (spelled : Spells part text)
    {fuel : Nat} {rest : List Char} (enough : text.length + part.extra ≤ fuel)
    (follows : part.Follows rest) : part.IsRead fuel (text ++ rest) rest := by
  have comma : ∀ rest, EndsBefore Char.isDigit (',' :: rest) ∧ EndsBefore isBlank (',' :: rest) :=
    fun rest => ⟨endsBefore_cons (by decide) rest, endsBefore_cons (by decide) rest⟩
  induction spelled generalizing fuel rest with
  | null | true | false =>
    rcases Nat.exists_eq_succ_of_ne_zero (Nat.ne_zero_of_lt enough) with ⟨left, rfl⟩
    rfl
  | int spelled =>
    rcases head?_of_spellsInt spelled with ⟨first, others, rfl, starts⟩
    rcases Nat.exists_eq_succ_of_ne_zero (Nat.ne_zero_of_lt enough) with ⟨left, rfl⟩
    have read := readInt?_of_spells spelled follows
    rw [List.cons_append] at read
    rw [List.cons_append, Part.IsRead, readValue?_number starts, read]
    rfl
  | string spelled =>
    have read := readString?_of_spells spelled rest
    rcases spelled with ⟨letters⟩
    rcases Nat.exists_eq_succ_of_ne_zero (Nat.ne_zero_of_lt enough) with ⟨left, rfl⟩
    rw [List.cons_append] at read
    rw [List.cons_append, Part.IsRead, readValue?, read]
    rfl
  | emptyArray blank =>
    rcases Nat.exists_eq_succ_of_ne_zero (Nat.ne_zero_of_lt enough) with ⟨left, rfl⟩
    rw [List.cons_append, List.append_assoc, List.singleton_append, Part.IsRead, readValue?,
      enclosed_empty blank (by decide)]
    rfl
  | emptyObject blank =>
    rcases Nat.exists_eq_succ_of_ne_zero (Nat.ne_zero_of_lt enough) with ⟨left, rfl⟩
    rw [List.cons_append, List.append_assoc, List.singleton_append, Part.IsRead, readValue?,
      enclosed_empty blank (by decide)]
    rfl
  | array inner ih =>
    rcases Nat.exists_eq_succ_of_ne_zero (Nat.ne_zero_of_lt enough) with ⟨left, rfl⟩
    simp only [List.length_cons, List.length_append, List.length_nil, Part.extra] at enough ih
    have read := ih (show _ ≤ left by omega) (Part.follows_closing ']' (by decide) _ rest)
    have starts := (head?_skip_of_spells inner (']' :: rest)).1
    rw [List.cons_append, List.append_assoc, List.singleton_append, Part.IsRead, readValue?,
      enclosed_some starts read]
    rfl
  | object inner ih =>
    rcases Nat.exists_eq_succ_of_ne_zero (Nat.ne_zero_of_lt enough) with ⟨left, rfl⟩
    simp only [List.length_cons, List.length_append, List.length_nil, Part.extra] at enough ih
    have read := ih (show _ ≤ left by omega) (Part.follows_closing '\x7d' (by decide) _ rest)
    have starts := (head?_skip_of_spells inner ('\x7d' :: rest)).2
    rw [List.cons_append, List.append_assoc, List.singleton_append, Part.IsRead, readValue?,
      enclosed_some starts read]
    rfl
  | @padded value before text after blank inner ends ih =>
    rcases follows with ⟨noDigit, noBlank⟩
    rcases start_of_spells inner with ⟨none, first, others, rfl, -, notBlank, -, -, starts⟩
    obtain rfl := starts _ rfl
    simp only [List.length_append, Part.extra] at enough ih
    have noDigit : EndsBefore Char.isDigit (after ++ rest) :=
      endsBefore_append ends (fun letter => isDigit_of_isBlank) noDigit
    have read := ih (show _ ≤ fuel by omega) noDigit
    rw [List.append_assoc, List.append_assoc]
    exact padded_append blank (endsBefore_cons notBlank _) read ends noBlank
  | named blank quoted ends inner ih =>
    simp only [List.length_append, List.length_cons, Part.extra] at enough ih
    have read := ih (show _ ≤ fuel by omega) follows
    simp only [List.append_assoc, List.cons_append]
    exact readMember?_append blank quoted ends read
  | item inner ih | member inner ih =>
    rcases Nat.exists_eq_succ_of_ne_zero (Nat.ne_zero_of_lt enough) with ⟨left, rfl⟩
    rcases follows with ⟨noDigit, noBlank, noComma⟩
    exact separated_last (ih (Nat.le_of_succ_le_succ enough) ⟨noDigit, noBlank⟩) noComma
  | @items _ _ _ others _ _ ih later | @members _ _ _ others _ _ ih later =>
    rcases Nat.exists_eq_succ_of_ne_zero (Nat.ne_zero_of_lt enough) with ⟨left, rfl⟩
    simp only [List.length_append, List.length_cons, Part.extra] at enough ih later
    have first := ih (show _ ≤ left by omega) (comma (others ++ rest))
    have others := later (show _ ≤ left by omega) follows
    rw [List.append_assoc, List.cons_append]
    exact separated_more first others

/-! ## What is read is a spelling -/

theorem hexDigit?_lt {digit : Char} {value : Nat} (found : hexDigit? digit = some value) :
    value < 16 := by
  unfold hexDigit? at found
  have upTo : ∀ {last : Char}, digit ≤ last → digit.toNat ≤ last.toNat := fun bound => bound
  split at found
  · rename_i range
    have bound : digit.toNat ≤ 57 := upTo range.2
    cases found
    omega
  split at found
  · rename_i range
    have bound : digit.toNat ≤ 102 := upTo range.2
    cases found
    omega
  split at found
  · rename_i range
    have bound : digit.toNat ≤ 70 := upTo range.2
    cases found
    omega
  · cases found

theorem codeUnit?_lt {a b c d : Char} {unit : Nat} (found : codeUnit? a b c d = some unit) :
    unit < 0x10000 := by
  simp only [codeUnit?, Option.bind_eq_bind, Option.bind_eq_some_iff] at found
  rcases found with ⟨first, one, second, two, third, three, fourth, four, same⟩
  cases same
  have := hexDigit?_lt one
  have := hexDigit?_lt two
  have := hexDigit?_lt three
  have := hexDigit?_lt four
  omega

theorem toNat_ofNat {number : Nat} (valid : number.isValidChar) :
    (Char.ofNat number).toNat = number := by
  rw [Char.toNat_ofNat, if_pos valid]

/-- A code unit that is no half of a pair stands for a letter. -/
theorem isValidChar_unit {unit : Nat} (small : unit < 0x10000) (notHigh : ¬ IsHigh unit)
    (notLow : ¬ IsLow unit) : unit.isValidChar := by
  unfold IsHigh at notHigh
  unfold IsLow at notLow
  unfold Nat.isValidChar
  omega

theorem isValidChar_joined {high low : Nat} (isHigh : IsHigh high) (isLow : IsLow low) :
    (joined high low).isValidChar := by
  unfold IsHigh at isHigh
  unfold IsLow at isLow
  unfold Nat.isValidChar joined
  omega

theorem spells_of_readLetter? {text rest : List Char} {letter : Char}
    (read : readLetter? text = some (letter, rest)) :
    ∃ taken, text = taken ++ rest ∧ SpellsLetter letter taken := by
  unfold readLetter? at read
  split at read
  · rename_i a b c d rest
    split at read
    · cases read
    rename_i unit first
    split at read
    · rename_i isHigh
      split at read
      · split at read
        · cases read
        rename_i e f g h rest _ low second
        split at read
        · rename_i isLow
          rcases Prod.mk.inj (Option.some.inj read) with ⟨rfl, rfl⟩
          exact ⟨['\\', 'u', a, b, c, d, '\\', 'u', e, f, g, h], rfl,
            .pair first second isHigh isLow (toNat_ofNat (isValidChar_joined isHigh isLow))⟩
        · cases read
      · cases read
    · rename_i notHigh
      split at read
      · cases read
      · rename_i notLow
        rcases Prod.mk.inj (Option.some.inj read) with ⟨rfl, rfl⟩
        refine ⟨['\\', 'u', a, b, c, d], rfl, .unit ?_⟩
        rw [first, toNat_ofNat (isValidChar_unit (codeUnit?_lt first) notHigh notLow)]
  · rename_i code rest _
    rcases Option.map_eq_some_iff.1 read with ⟨letter, found, same⟩
    cases same
    rcases List.lookup_eq_some_iff.1 found with ⟨before, after, table, -⟩
    refine ⟨['\\', code], rfl, .short ?_⟩
    rw [table]
    exact List.mem_append_right before List.mem_cons_self
  · rename_i first rest _ _
    split at read
    · rename_i plain
      cases read
      exact ⟨[letter], rfl, .plain plain⟩
    · cases read
  · cases read

theorem spells_of_readLetters? {fuel : Nat} {text letters rest : List Char}
    (read : readLetters? fuel text = some (letters, rest)) :
    ∃ taken, text = taken ++ '"' :: rest ∧ SpellsLetters letters taken := by
  induction fuel generalizing text letters with
  | zero => cases read
  | succ fuel ih =>
    unfold readLetters? at read
    split at read
    · cases read
      exact ⟨[], rfl, .nil⟩
    split at read
    · cases read
    · rename_i letter others one
      rcases Option.map_eq_some_iff.1 read with ⟨found, later, same⟩
      cases same
      rcases spells_of_readLetter? one with ⟨first, rfl, spelled⟩
      rcases ih later with ⟨taken, rfl, more⟩
      exact ⟨first ++ taken, (List.append_assoc _ _ _).symm, .cons spelled more⟩

theorem spells_of_readString? {text rest : List Char} {value : String}
    (read : readString? text = some (value, rest)) :
    ∃ taken, text = taken ++ rest ∧ SpellsString value taken := by
  unfold readString? at read
  split at read
  · rcases Option.map_eq_some_iff.1 read with ⟨⟨letters, rest⟩, found, same⟩
    cases same
    rcases spells_of_readLetters? found with ⟨taken, rfl, spelled⟩
    rw [← String.toList_ofList (l := letters)] at spelled
    exact ⟨'"' :: (taken ++ ['"']), by simp, .mk spelled⟩
  · cases read

theorem spells_of_readNat? {text rest : List Char} {number : Nat}
    (read : readNat? text = some (number, rest)) :
    ∃ taken, text = taken ++ rest ∧ SpellsNat number taken := by
  unfold readNat? at read
  dsimp only at read
  split at read
  · cases read
  · rename_i accepted
    rcases Prod.mk.inj (Option.some.inj read) with ⟨rfl, rfl⟩
    refine ⟨text.takeWhile Char.isDigit, List.takeWhile_append_dropWhile.symm, ?_⟩
    exact {
      digit := fun _ listed => List.mem_takeWhile_imp listed
      nonempty := fun empty => accepted (.inl empty)
      leading := fun zero => by_contra fun more => accepted (.inr ⟨zero, more⟩)
      value := rfl }

theorem spells_of_readInt? {text rest : List Char} {number : Int}
    (read : readInt? text = some (number, rest)) :
    ∃ taken, text = taken ++ rest ∧ SpellsInt number taken := by
  unfold readInt? at read
  split at read
  all_goals
    rcases Option.map_eq_some_iff.1 read with ⟨⟨value, behind⟩, found, same⟩
    cases same
    rcases spells_of_readNat? found with ⟨taken, rfl, spelled⟩
  · exact ⟨'-' :: taken, rfl, .minus spelled⟩
  · exact ⟨taken, rfl, .plain spelled⟩

/-- What a reader takes of a text is the spelling of a part. -/
def Sound {α : Type} (part : α → Part) (read : List Char → Option (α × List Char)) : Prop :=
  ∀ {text rest : List Char} {found : α}, read text = some (found, rest) →
    ∃ taken, text = taken ++ rest ∧ Spells (part found) taken

theorem sound_padded {read : List Char → Option (Json × List Char)} (sound : Sound .value read) :
    Sound .padded (padded read) := by
  intro text rest value found
  rcases exists_skip text with ⟨before, blank, whole⟩
  rcases Option.map_eq_some_iff.1 found with ⟨⟨inner, behind⟩, reads, same⟩
  rcases Prod.mk.inj same with ⟨rfl, rfl⟩
  rcases sound reads with ⟨taken, split, spelled⟩
  rcases exists_skip behind with ⟨after, ends, rest⟩
  refine ⟨before ++ (taken ++ after), ?_, .padded blank spelled ends⟩
  dsimp only at split rest ⊢
  rw [whole, split, List.append_assoc, List.append_assoc, ← rest]

theorem sound_readMember? {read : List Char → Option (Json × List Char)}
    (sound : Sound .value read) : Sound .member (readMember? read) := by
  intro text rest member found
  rcases exists_skip text with ⟨before, blank, whole⟩
  unfold readMember? at found
  split at found
  · cases found
  rename_i name others named
  rcases spells_of_readString? named with ⟨quoted, split, spelled⟩
  rcases exists_skip others with ⟨behind, ends, left⟩
  split at found
  · rename_i after colon
    rcases Option.map_eq_some_iff.1 found with ⟨⟨value, rest⟩, reads, same⟩
    cases same
    rcases sound_padded sound reads with ⟨taken, rfl, inner⟩
    refine ⟨_, ?_, .named blank spelled ends inner⟩
    rw [whole, split, left, colon]
    simp
  · cases found

theorem sound_separated {α : Type} {part : α → Part} {parts : List α → Part}
    {one : List Char → Option (α × List Char)} {more : List Char → Option (List α × List Char)}
    (single : ∀ {first text}, Spells (part first) text → Spells (parts [first]) text)
    (several : ∀ {first rest text others}, Spells (part first) text → Spells (parts rest) others →
      Spells (parts (first :: rest)) (text ++ ',' :: others))
    (sound : Sound part one) (later : Sound parts more) : Sound parts (separated one more) := by
  intro text rest listed found
  unfold separated at found
  split at found
  · cases found
  · rename_i first others read
    rcases Option.map_eq_some_iff.1 found with ⟨⟨further, rest⟩, reads, same⟩
    cases same
    rcases sound read with ⟨taken, rfl, spelled⟩
    rcases later reads with ⟨behind, rfl, others⟩
    exact ⟨taken ++ ',' :: behind, by simp, several spelled others⟩
  · rename_i first others _ read
    cases found
    rcases sound read with ⟨taken, rfl, spelled⟩
    exact ⟨taken, rfl, single spelled⟩

/-- What is enclosed is nothing but blanks, or is read. -/
theorem of_enclosed {α : Type} {closing : Char} {inner : List Char → Option (List α × List Char)}
    {text rest : List Char} {found : List α}
    (read : enclosed closing inner text = some (found, rest)) :
    (found = [] ∧ ∃ gap, Blank gap ∧ text = gap ++ closing :: rest) ∨
      inner text = some (found, closing :: rest) := by
  unfold enclosed at read
  split at read
  · rename_i closed
    rcases List.head?_eq_some_iff.1 closed with ⟨others, after⟩
    rcases exists_skip text with ⟨gap, blank, whole⟩
    rw [after] at read whole
    cases read
    exact .inl ⟨rfl, gap, blank, whole⟩
  split at read
  · rename_i reads
    split at read
    · rename_i same
      cases same
      cases read
      exact .inr reads
    · cases read
  · cases read

theorem sound_readValue? {fuel : Nat} (items : Sound .items (readItems? fuel))
    (members : Sound .members (readMembers? fuel)) : Sound .value (readValue? (fuel + 1)) := by
  intro text rest value found
  unfold readValue? at found
  split at found
  · cases found
    exact ⟨_, rfl, .null⟩
  · cases found
    exact ⟨_, rfl, .true⟩
  · cases found
    exact ⟨_, rfl, .false⟩
  · rcases Option.map_eq_some_iff.1 found with ⟨⟨string, rest⟩, read, same⟩
    cases same
    rcases spells_of_readString? read with ⟨taken, split, spelled⟩
    exact ⟨taken, split, .string spelled⟩
  · rcases Option.map_eq_some_iff.1 found with ⟨⟨listed, rest⟩, read, same⟩
    cases same
    rcases of_enclosed read with ⟨empty, gap, blank, rfl⟩ | reads
    · cases empty
      exact ⟨'[' :: (gap ++ [']']), by simp, .emptyArray blank⟩
    · rcases items reads with ⟨taken, rfl, spelled⟩
      exact ⟨'[' :: (taken ++ [']']), by simp, .array spelled⟩
  · rcases Option.map_eq_some_iff.1 found with ⟨⟨listed, rest⟩, read, same⟩
    cases same
    rcases of_enclosed read with ⟨empty, gap, blank, rfl⟩ | reads
    · cases empty
      exact ⟨'\x7b' :: (gap ++ ['\x7d']), by simp, .emptyObject blank⟩
    · rcases members reads with ⟨taken, rfl, spelled⟩
      exact ⟨'\x7b' :: (taken ++ ['\x7d']), by simp, .object spelled⟩
  · rcases Option.map_eq_some_iff.1 found with ⟨⟨number, rest⟩, read, same⟩
    cases same
    rcases spells_of_readInt? read with ⟨taken, split, spelled⟩
    exact ⟨taken, split, .int spelled⟩

/-- Whatever the fuel is, what is read is a spelling. -/
theorem sound_read (fuel : Nat) : Sound .value (readValue? fuel) ∧
    Sound .items (readItems? fuel) ∧ Sound .members (readMembers? fuel) := by
  induction fuel with
  | zero => exact ⟨nofun, nofun, nofun⟩
  | succ fuel ih =>
    rcases ih with ⟨value, items, members⟩
    exact ⟨sound_readValue? items members,
      sound_separated .item .items (sound_padded value) items,
      sound_separated .member .members (sound_readMember? value) members⟩

/-! ## The reader and the grammar agree -/

/-- A text is read exactly if it is JSON, and as what it means. -/
theorem parse?_eq_some_iff (text : String) (value : Json) :
    parse? text = some value ↔ Means text value := by
  refine ⟨fun read => ?_, fun means => ?_⟩
  · unfold parse? at read
    split at read
    · rename_i found
      cases read
      rcases sound_padded (sound_read _).1 found with ⟨taken, whole, spelled⟩
      rw [List.append_nil] at whole
      rw [Means, whole]
      exact spelled
    · cases read
  · have ends : Part.Follows [] (.padded value) := ⟨endsBefore_nil _, endsBefore_nil _⟩
    have read := isRead_of_spells means le_rfl ends
    rw [List.append_nil, Part.IsRead, Part.extra, Nat.add_zero] at read
    rw [parse?, read]

/-- Blanks and escapes mean nothing of their own. -/
example : (parse? " [ -1, \"\\u00e9\" ]\n").map compact = some "[-1,\"é\"]" := by
  decide +kernel

/-- A text means one value at most. -/
theorem means_unique {text : String} {first second : Json} (one : Means text first)
    (other : Means text second) : first = second := by
  rw [← parse?_eq_some_iff] at one other
  exact Option.some.inj (one.symm.trans other)

end Tdms.Json
