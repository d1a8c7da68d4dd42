import Mathlib
import Tdms.Timestamp.Text
import Tdms.Proofs.Json.Reader
import Tdms.Proofs.Timestamp.Calendar
import Tdms.Proofs.Timestamp.Nanos

/-!
Moments read back from their text.

`DateTime.read?` takes a date and a time of day from a text, and `readCounts?`
the plain counts. `text_tells` states that the text of a moment whose second
lies in the years that are written as such is read as a date of the calendar
with that second and its nanoseconds, and any other text as its counts. So the
text tells moments apart, up to a nanosecond.
-/

namespace Tdms

open Json (EndsBefore endsBefore_cons)

/-! ## Reading -/

/-- Takes letters from the front of a text. -/
abbrev TextReader (α : Type) := StateT (List Char) Option α

namespace TextReader

variable {α β : Type}

/-- Takes the letters of `expected`. -/
def word (expected : String) : TextReader Unit := fun text =>
  if expected.toList <+: text then some ((), text.drop expected.toList.length) else none

/-- Takes exactly `count` digits, as a number. -/
def digits (count : Nat) : TextReader Nat := fun text =>
  let taken := text.take count
  if taken.length = count ∧ taken.all Char.isDigit then
    some (Nat.ofDigitChars 10 taken 0, text.drop count)
  else none

/-- Takes all digits in front, `least` of them or more, as a number. -/
def allDigits (least : Nat) : TextReader Nat := fun text =>
  let taken := text.takeWhile Char.isDigit
  if least ≤ taken.length then
    some (Nat.ofDigitChars 10 taken 0, text.dropWhile Char.isDigit)
  else none

/-- Takes a year: four digits, or a sign with all digits behind it. -/
def year : TextReader Int
  | '-' :: rest => (allDigits 4 rest).map fun found => (-found.1, found.2)
  | '+' :: rest => (allDigits 5 rest).map fun found => (found.1, found.2)
  | text => (digits 4 text).map fun found => (found.1, found.2)

/-- Takes a whole number, without padding. -/
def integer : TextReader Int :=
  Json.readInt?

/-- Takes a natural number, without padding. -/
def natural : TextReader Nat :=
  Json.readNat?

/-- What is read of a text, if nothing is left of it. -/
def whole (read : TextReader α) (text : String) : Option α :=
  match read text.toList with
  | some (value, []) => some value
  | _ => none

theorem bind_of_some {read : TextReader α} {later : α → TextReader β} {text rest : List Char}
    {value : α} (taken : read text = some (value, rest)) :
    (read >>= later) text = later value rest := by
  change (read text >>= fun found => later found.1 found.2) = _
  rw [taken]
  rfl

theorem whole_of_some {read : TextReader α} {text : String} {value : α} (letters : List Char)
    (written : text.toList = letters) (taken : read letters = some (value, [])) :
    read.whole text = some value := by
  rw [whole, written, taken]

theorem word_append (expected : String) (rest : List Char) :
    word expected (expected.toList ++ rest) = some ((), rest) := by
  rw [word, if_pos (List.prefix_append _ _), List.drop_left]

end TextReader

/-- Padded digits are digits, and spell the number at the width or beyond it. -/
theorem padded_digits (width number : Nat) :
    (∀ digit ∈ (paddedDigits width number).toList, digit.isDigit = true) ∧
      Nat.ofDigitChars 10 (paddedDigits width number).toList 0 = number ∧
      (paddedDigits width number).toList.length = max width (Nat.toDigits 10 number).length := by
  rw [paddedDigits, String.toList_ofList]
  refine ⟨fun digit listed => ?_, ?_, ?_⟩
  · rcases List.mem_append.1 listed with zero | other
    · rw [List.eq_of_mem_replicate zero]
      rfl
    · exact Nat.isDigit_of_mem_toDigits (by decide) le_rfl other
  · rw [Nat.ofDigitChars_append, Nat.ofDigitChars_replicate_zero, Nat.mul_zero,
      Nat.ofDigitChars_ten_toDigits]
  · rw [List.length_append, List.length_replicate]
    omega

theorem length_padded {width number : Nat} (some : 0 < width) (fits : number < 10 ^ width) :
    (paddedDigits width number).toList.length = width := by
  rw [(padded_digits width number).2.2]
  exact max_eq_left ((Nat.length_toDigits_le_iff (by decide) some).2 fits)

namespace TextReader

theorem digits_append {width number : Nat} (some : 0 < width) (fits : number < 10 ^ width)
    (rest : List Char) :
    digits width ((paddedDigits width number).toList ++ rest) = .some (number, rest) := by
  have length := length_padded some fits
  obtain ⟨all, value, -⟩ := padded_digits width number
  unfold digits
  dsimp only
  rw [List.take_left' length, List.drop_left' length, value]
  exact if_pos ⟨length, List.all_eq_true.2 all⟩

theorem allDigits_append {least : Nat} (width number : Nat) {rest : List Char}
    (long : least ≤ max width (Nat.toDigits 10 number).length)
    (stop : EndsBefore Char.isDigit rest) :
    allDigits least ((paddedDigits width number).toList ++ rest) = some (number, rest) := by
  obtain ⟨all, value, length⟩ := padded_digits width number
  obtain ⟨taken, left⟩ := Json.dropWhile_append all stop
  unfold allDigits
  dsimp only
  rw [taken, left, value]
  exact if_pos (length ▸ long)

/-- A year without a sign is four digits. -/
theorem year_of_isDigit {text : List Char} (some : text ≠ [])
    (all : ∀ digit ∈ text, digit.isDigit = true) (rest : List Char) :
    year (text ++ rest) =
      (digits 4 (text ++ rest)).map fun found => ((found.1 : Int), found.2) := by
  obtain ⟨first, others, rfl⟩ := List.exists_cons_of_ne_nil some
  have digit := all first List.mem_cons_self
  unfold year
  split
  · rename_i same
    rw [(List.cons.inj same).1] at digit
    cases digit
  · rename_i same
    rw [(List.cons.inj same).1] at digit
    cases digit
  · rfl

/-- A year is read back, whichever sign it has. -/
theorem year_append (number : Int) {rest : List Char} (stop : EndsBefore Char.isDigit rest) :
    year ((yearText number).toList ++ rest) = some (number, rest) := by
  unfold yearText
  dsimp only
  by_cases before : number < 0
  · have taken := allDigits_append 4 number.natAbs (le_max_left 4 _) stop
    have minus : "-".toList = ['-'] := rfl
    have value : -(number.natAbs : Int) = number := by omega
    rw [if_pos before, String.toList_append, minus, List.append_assoc, List.singleton_append, year,
      taken, Option.map_some, value]
  · have value : (number.natAbs : Int) = number := by omega
    rw [if_neg before]
    by_cases late : 9999 < number
    -- A sign tells a late year, whose digits go on until something else follows.
    · have long : 5 ≤ (Nat.toDigits 10 number.natAbs).length := by
        have short := mt (Nat.length_toDigits_le_iff (b := 10) (n := number.natAbs) (k := 4)
          (by decide) (by decide)).1
        omega
      have taken := allDigits_append 4 number.natAbs (le_max_of_le_right long) stop
      have plus : "+".toList = ['+'] := rfl
      rw [if_pos late, String.toList_append, plus, List.append_assoc, List.singleton_append, year,
        taken, Option.map_some, value]
    · have few : number.natAbs < 10 ^ 4 := by omega
      have taken := digits_append (by decide) few rest
      have length := length_padded (by decide) few
      have nothing : "".toList = [] := rfl
      have some : (paddedDigits 4 number.natAbs).toList ≠ [] := by
        rw [← List.length_pos_iff, length]
        decide
      rw [if_neg late, String.toList_append, nothing, List.nil_append,
        year_of_isDigit some (padded_digits 4 number.natAbs).1, taken, Option.map_some, value]

theorem integer_append (number : Int) {rest : List Char} (stop : EndsBefore Char.isDigit rest) :
    integer (Json.intLetters number ++ rest) = some (number, rest) :=
  Json.readInt?_of_spells (Json.spellsInt_intLetters number) stop

theorem natural_append (number : Nat) {rest : List Char} (stop : EndsBefore Char.isDigit rest) :
    natural (Nat.toDigits 10 number ++ rest) = some (number, rest) :=
  Json.readNat?_of_spells (Json.spellsNat_toDigits number) stop

end TextReader

/-! ## Dates -/

/-- A date and a time of day. -/
structure DateTime where
  date : Calendar.Date
  hour : Nat
  minute : Nat
  second : Nat
  nanos : Nat
  deriving DecidableEq, Repr

namespace DateTime

open TextReader (word digits year bind_of_some word_append digits_append)

/-- The calendar has such a date, and a clock shows such a time. -/
structure Exists (time : DateTime) : Prop where
  date : time.date.Exists
  hour : time.hour < 24
  minute : time.minute < 60
  second : time.second < 60
  nanos : time.nanos < nanosPerSecond

/-- Whole seconds from the start of 1970, by the days of the date. -/
def unixSeconds (time : DateTime) : Int :=
  time.date.dayNumber * secondsPerDay + (3600 * time.hour + 60 * time.minute + time.second : Nat)

/-- A date and a time of day as moments write them. -/
def text (time : DateTime) : String :=
  let day := yearText time.date.year ++ "-" ++ paddedDigits 2 time.date.month ++ "-" ++
    paddedDigits 2 time.date.day
  let clock := paddedDigits 2 time.hour ++ ":" ++ paddedDigits 2 time.minute ++ ":" ++
    paddedDigits 2 time.second
  day ++ "T" ++ clock ++ "." ++ paddedDigits 9 time.nanos ++ "Z"

/-- Takes a number of `width` digits and what closes it. -/
def field (width : Nat) (closing : String) : TextReader Nat := do
  let number ← digits width
  word closing
  pure number

/-- Takes a date and a time of day. -/
def reader : TextReader DateTime := do
  let year ← year
  word "-"
  let month ← field 2 "-"
  let day ← field 2 "T"
  let hour ← field 2 ":"
  let minute ← field 2 ":"
  let second ← field 2 "."
  let nanos ← field 9 "Z"
  pure { date := { year, month, day }, hour, minute, second, nanos }

/-- The date and time that a text writes. -/
def read? (text : String) : Option DateTime :=
  reader.whole text

theorem field_append {width number : Nat} (some : 0 < width) (fits : number < 10 ^ width)
    (closing : String) (rest : List Char) :
    field width closing ((paddedDigits width number).toList ++ (closing.toList ++ rest)) =
      .some (number, rest) := by
  unfold field
  rw [bind_of_some (digits_append some fits _), bind_of_some (word_append closing rest)]
  rfl

/-- A date and a time of day are read back. -/
theorem read?_text {time : DateTime} (exist : time.Exists) : read? time.text = some time := by
  obtain ⟨⟨⟨-, months⟩, ⟨-, days⟩⟩, hours, minutes, seconds, nanos⟩ := exist
  have day := Calendar.daysInMonth_le time.date.year time.date.month
  have two : ∀ {number : Nat}, number < 10 ^ 2 → ∀ closing rest,
      field 2 closing ((paddedDigits 2 number).toList ++ (closing.toList ++ rest)) =
        some (number, rest) := field_append (by decide)
  unfold nanosPerSecond at nanos
  refine TextReader.whole_of_some ((yearText time.date.year).toList ++ ("-".toList ++
    ((paddedDigits 2 time.date.month).toList ++ ("-".toList ++
    ((paddedDigits 2 time.date.day).toList ++ ("T".toList ++
    ((paddedDigits 2 time.hour).toList ++ (":".toList ++
    ((paddedDigits 2 time.minute).toList ++ (":".toList ++
    ((paddedDigits 2 time.second).toList ++ (".".toList ++
    ((paddedDigits 9 time.nanos).toList ++ ("Z".toList ++ [])))))))))))))) ?_ ?_
  · rw [text]
    simp only [String.toList_append, List.append_assoc, List.append_nil]
  · have dash : ∀ rest, EndsBefore Char.isDigit ("-".toList ++ rest) := fun rest =>
      endsBefore_cons (rfl : Char.isDigit '-' = false) rest
    unfold reader
    rw [bind_of_some (TextReader.year_append _ (dash _)),
      bind_of_some (word_append _ _), bind_of_some (two (by omega) _ _),
      bind_of_some (two (by omega) _ _), bind_of_some (two (by omega) _ _),
      bind_of_some (two (by omega) _ _), bind_of_some (two (by omega) _ _),
      bind_of_some (field_append (by decide) (by omega) _ _)]
    rfl

end DateTime

namespace Timestamp

open TextReader (word integer natural bind_of_some word_append integer_append natural_append)

/-- The date and the time of day of a moment. -/
def dateTime (moment : Timestamp) : DateTime :=
  let time := (moment.unixSeconds % secondsPerDay).toNat
  { date := Calendar.dateOfDays (moment.unixSeconds / secondsPerDay)
    hour := time / 3600
    minute := time / 60 % 60
    second := time % 60
    nanos := moment.subsecNanos }

theorem exists_dateTime (moment : Timestamp) : moment.dateTime.Exists := by
  have time : (moment.unixSeconds % secondsPerDay).toNat < 86400 := by
    unfold secondsPerDay
    omega
  refine ⟨(Calendar.dayNumber_dateOfDays _).1, ?_, ?_, ?_, moment.subsecNanos_lt⟩
  all_goals
    unfold dateTime
    dsimp only
    omega

theorem unixSeconds_dateTime (moment : Timestamp) :
    moment.dateTime.unixSeconds = moment.unixSeconds := by
  have number := (Calendar.dayNumber_dateOfDays (moment.unixSeconds / secondsPerDay)).2
  unfold DateTime.unixSeconds dateTime
  dsimp only
  rw [number]
  unfold secondsPerDay
  omega

theorem text_of_hasDate {moment : Timestamp} (dated : moment.hasDate = true) :
    moment.text = moment.dateTime.text :=
  if_pos dated

/-! ## Counts -/

/-- What stands behind the counts of a moment. -/
def countsUnit : String :=
  "/2^64 after 1904-01-01"

/-- Takes the seconds from the start of 1904 and the fraction of a second. -/
def countsReader : TextReader (Int × Nat) := do
  let seconds ← integer
  word "s+"
  let fractions ← natural
  word countsUnit
  pure (seconds, fractions)

/-- The seconds and the fraction that a text writes. -/
def readCounts? (text : String) : Option (Int × Nat) :=
  countsReader.whole text

theorem text_of_not_hasDate {moment : Timestamp} (undated : ¬ moment.hasDate = true) :
    moment.text =
      toString moment.seconds.toInt ++ "s+" ++ moment.fractions.toNat.repr ++ countsUnit :=
  if_neg undated

/-- Counts are read back. -/
theorem readCounts?_of_not_hasDate {moment : Timestamp} (undated : ¬ moment.hasDate = true) :
    readCounts? moment.text = some (moment.seconds.toInt, moment.fractions.toNat) := by
  refine TextReader.whole_of_some (Json.intLetters moment.seconds.toInt ++
    ("s+".toList ++ (Nat.toDigits 10 moment.fractions.toNat ++ (countsUnit.toList ++ [])))) ?_ ?_
  · rw [text_of_not_hasDate undated]
    simp only [String.toList_append, Nat.toList_repr, List.append_assoc, List.append_nil]
    rfl
  · have plus : ∀ rest, EndsBefore Char.isDigit ("s+".toList ++ rest) := fun rest =>
      endsBefore_cons (rfl : Char.isDigit 's' = false) ('+' :: rest)
    have slash : ∀ rest, EndsBefore Char.isDigit (countsUnit.toList ++ rest) := fun rest =>
      endsBefore_cons (rfl : Char.isDigit '/' = false) _
    unfold countsReader
    rw [bind_of_some (integer_append _ (plus _)), bind_of_some (word_append _ _),
      bind_of_some (natural_append _ (slash _)), bind_of_some (word_append _ _)]
    rfl

/-! ## Which of the two -/

/-- The second of a moment lies in the years that are written as such. -/
def InYears (moment : Timestamp) : Prop :=
  Calendar.yearStart firstYear * secondsPerDay ≤ moment.unixSeconds ∧
    moment.unixSeconds < Calendar.yearStart (lastYear + 1) * secondsPerDay

instance (moment : Timestamp) : Decidable moment.InYears :=
  inferInstanceAs (Decidable (_ ∧ _))

theorem hasDate_iff (moment : Timestamp) : moment.hasDate = true ↔ moment.InYears := by
  have day : (0 : Int) < secondsPerDay := by decide
  unfold hasDate InYears
  rw [Bool.and_eq_true, decide_eq_true_iff, decide_eq_true_iff, Calendar.year_mem_iff,
    Int.le_ediv_iff_mul_le day, Int.ediv_lt_iff_lt_mul day]

/-- Such a second is far from the least one, where the difference to 1970 would be cut off. -/
theorem InYears.unixSeconds_eq {moment : Timestamp} (dated : moment.InYears) :
    moment.unixSeconds = moment.seconds.toInt - epochSeconds := by
  have start : Calendar.yearStart firstYear * secondsPerDay = -8334601228800 := by decide
  have least : Int64.minValue.toInt = -9223372036854775808 := rfl
  obtain ⟨after, -⟩ := dated
  unfold unixSeconds at after ⊢
  omega

/-- A date ends in another letter than counts. -/
theorem text_ne_of_hasDate {moment other : Timestamp} (dated : moment.hasDate = true)
    (undated : ¬ other.hasDate = true) : moment.text ≠ other.text := by
  intro same
  have letters := congrArg (fun text => text.toList.getLast?) same
  rw [text_of_hasDate dated, text_of_not_hasDate undated, DateTime.text] at letters
  have closing : "Z".toList = ['Z'] := rfl
  have unit : countsUnit.toList = "/2^64 after 1904-01-0".toList ++ ['1'] := rfl
  simp only [String.toList_append, closing, unit, ← List.append_assoc,
    List.getLast?_concat] at letters
  cases letters

/-- A moment in the years that are written as such is written as a date of the calendar and a
time of day, from which its second and its nanoseconds are counted again. Any other moment is
written as its counts. So moments of one text agree up to a nanosecond. -/
theorem text_tells (moment : Timestamp) :
    (moment.InYears → ∃ time, DateTime.read? moment.text = some time ∧ time.Exists ∧
      time.unixSeconds = moment.unixSeconds ∧ time.nanos = moment.subsecNanos) ∧
    (¬ moment.InYears →
      readCounts? moment.text = some (moment.seconds.toInt, moment.fractions.toNat)) ∧
    ∀ other : Timestamp, moment.text = other.text →
      moment.seconds = other.seconds ∧ moment.subsecNanos = other.subsecNanos := by
  have dates : ∀ moment : Timestamp, moment.hasDate = true →
      DateTime.read? moment.text = some moment.dateTime := fun moment dated => by
    rw [text_of_hasDate dated, DateTime.read?_text moment.exists_dateTime]
  refine ⟨fun inside => ?_, fun outside => ?_, fun other same => ?_⟩
  · exact ⟨moment.dateTime, dates moment (moment.hasDate_iff.2 inside), moment.exists_dateTime,
      moment.unixSeconds_dateTime, rfl⟩
  · exact readCounts?_of_not_hasDate (mt moment.hasDate_iff.1 outside)
  · by_cases dated : moment.hasDate = true <;> by_cases others : other.hasDate = true
    · have times : moment.dateTime = other.dateTime := by
        rw [← Option.some_inj, ← dates moment dated, ← dates other others, same]
      have seconds := congrArg DateTime.unixSeconds times
      rw [unixSeconds_dateTime, unixSeconds_dateTime,
        (moment.hasDate_iff.1 dated).unixSeconds_eq,
        (other.hasDate_iff.1 others).unixSeconds_eq] at seconds
      exact ⟨Int64.toInt_inj.1 (by omega), congrArg DateTime.nanos times⟩
    · exact absurd same (text_ne_of_hasDate dated others)
    · exact absurd same.symm (text_ne_of_hasDate others dated)
    · have counts := readCounts?_of_not_hasDate dated
      rw [same, readCounts?_of_not_hasDate others, Option.some_inj, Prod.mk.injEq] at counts
      have fractions : moment.fractions = other.fractions := UInt64.toNat_inj.1 counts.2.symm
      refine ⟨Int64.toInt_inj.1 counts.1.symm, ?_⟩
      rw [subsecNanos, subsecNanos, fractions]

/-- Half a second into the 29th of February of the year -4, the least moment of all, and two
moments within one nanosecond. -/
theorem text_tells_long_ago :
    (Timestamp.mk (-60205507200) 9223372036854775808).InYears ∧
      (∃ time, DateTime.read?
          (Timestamp.mk (-60205507200) 9223372036854775808).text = some time ∧
        time.Exists ∧ time.unixSeconds = -62288352000 ∧ time.nanos = 500000000) ∧
      readCounts? (Timestamp.mk Int64.minValue 1).text = some (-9223372036854775808, 1) ∧
      (Timestamp.mk 0 1).subsecNanos = (Timestamp.mk 0 18446744073).subsecNanos := by
  have inside : (Timestamp.mk (-60205507200) 9223372036854775808).InYears := by decide
  have outside : ¬ (Timestamp.mk Int64.minValue 1).InYears := by decide
  have same : (Timestamp.mk 0 1).text = (Timestamp.mk 0 18446744073).text := by decide +kernel
  exact ⟨inside, (text_tells _).1 inside, (text_tells _).2.1 outside, ((text_tells _).2.2 _ same).2⟩

end Timestamp

end Tdms
