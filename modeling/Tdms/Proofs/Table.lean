import Mathlib
import Tdms.Proofs.Export.Column
import Tdms.Proofs.Walk
import Tdms.Table

/-!
What a table shows of a column.

`Table.valueText?` is the text of one sample, and the cells of a column are the
texts of its samples. `Table.Shows` says what a reader finds in a table line by
line: between rules, the rows of the title and then those of every cell in
order, where `Row` fills a part of a cell up to the width of the table. A line
stays whole if it fits. One that is wider than any table `Breaks` into parts
that keep all letters but blanks, in order.
-/

namespace Tdms

open Export (Column)

/-! ## Cells -/

/-- The text of a value in a cell, if a column can hold the value. -/
def Table.valueText? : Property → Option String
  | ⟨.int8, value⟩ => some (toString value.toInt)
  | ⟨.int16, value⟩ => some (toString value.toInt)
  | ⟨.int32, value⟩ => some (toString value.toInt)
  | ⟨.int64, value⟩ => some (toString value.toInt)
  | ⟨.uint8, value⟩ => some (toString value.toNat)
  | ⟨.uint16, value⟩ => some (toString value.toNat)
  | ⟨.uint32, value⟩ => some (toString value.toNat)
  | ⟨.uint64, value⟩ => some (toString value.toNat)
  | ⟨.float32, value⟩ => some (singleStyle.write value.decode)
  | ⟨.float64, value⟩ => some (doubleStyle.write value.decode)
  | ⟨.string, value⟩ => some value
  | ⟨.boolean, value⟩ => some (if value then "true" else "false")
  | ⟨.timestamp, value⟩ => value.unixNanos?.map momentText
  | ⟨.complex64, _⟩ | ⟨.complex128, _⟩ => none

/-- The cells of moments are those of their nanoseconds, as long as they can be counted. -/
theorem cells_of_unixNanos {moments : List Timestamp} {nanos : List Int64}
    (counted : Column.unixNanos moments = .ok nanos) :
    moments.map (fun moment => moment.unixNanos?.map Table.momentText) =
      nanos.map fun value => some (Table.momentText value.toInt) := by
  have each := Export.unixNanos_eq_ok_iff.1 counted
  clear counted
  induction each with
  | nil => rfl
  | cons known _ ih => rw [List.map_cons, List.map_cons, known, Option.map_some, ih]

/-- A column shows the samples that it is made of, in order. -/
theorem cells_of_ofSamples {samples : Samples} {column : Column}
    (made : Column.ofSamples samples = .ok column) :
    samples.scalars.map Table.valueText? =
      column.elements.map fun element => some (Table.cellText column.type element) := by
  cases samples with
  | void =>
    cases made
    rfl
  | column type values =>
    rw [Samples.scalars, List.map_map]
    cases type with
    | complex64 | complex128 => cases made
    | timestamp =>
      rcases Outcome.map_eq_ok.1 made with ⟨nanos, counted, rfl⟩
      exact cells_of_unixNanos counted
    | _ =>
      cases made
      rfl

theorem length_scalars (samples : Samples) : samples.scalars.length = samples.length := by
  cases samples with
  | void => rfl
  | column type values => exact List.length_map _

/-! ## Lines and words -/

/-- The parts between marks hold all letters but the marks. -/
theorem flatten_splitOn (mark : Char) (letters : List Char) :
    (letters.splitOn mark).flatten = letters.filter (· != mark) := by
  induction letters with
  | nil => rfl
  | cons letter rest ih =>
    rw [List.splitOn, List.splitOnP_cons_eq_if_modifyHead]
    rw [List.splitOn] at ih
    by_cases here : letter = mark
    · rw [if_pos (beq_iff_eq.2 here), List.flatten_cons, ih]
      simp [here]
    · rw [if_neg (by simpa using here)]
      obtain ⟨first, others, parts⟩ :=
        List.exists_cons_of_ne_nil (List.splitOnP_ne_nil (· == mark) rest)
      rw [parts] at ih ⊢
      rw [List.filter_cons_of_pos (by simpa using here), ← ih]
      rfl

/-- Between marks there is one part more than there are marks. -/
theorem length_splitOn (mark : Char) (letters : List Char) :
    (letters.splitOn mark).flatten.length + (letters.splitOn mark).length =
      letters.length + 1 := by
  induction letters with
  | nil => rfl
  | cons letter rest ih =>
    rw [List.splitOn, List.splitOnP_cons_eq_if_modifyHead]
    rw [List.splitOn] at ih
    split
    · simp only [List.flatten_cons, List.length_append, List.length_cons, List.length_nil]
      omega
    · obtain ⟨first, others, parts⟩ :=
        List.exists_cons_of_ne_nil (List.splitOnP_ne_nil (· == mark) rest)
      rw [parts] at ih ⊢
      simp only [List.modifyHead_cons, List.flatten_cons, List.length_append,
        List.length_cons] at ih ⊢
      omega

namespace Text

theorem letterColumns_le (letter : Char) : letterColumns letter ≤ 3 := by
  have either : ∀ {condition : Prop} [Decidable condition] {first second : Int × Following},
      first.1.toNat ≤ 3 → second.1.toNat ≤ 3 →
        (if condition then first else second).1.toNat ≤ 3 := by
    intro condition _ first second small other
    split
    · exact small
    · exact other
  unfold letterColumns Following.ofLetter
  repeat refine either (by decide) ?_
  decide

/-- The letters that are not blanks. -/
def ink (letters : List Char) : List Char :=
  letters.filter (· != ' ')

theorem append_cutWord (room : Nat) (word : List Char) :
    (cutWord room word).1 ++ (cutWord room word).2 = word := by
  fun_induction cutWord room word with
  | case1 => rfl
  | case2 => rfl
  | case3 room letter rest width fits fitting left cut ih =>
    rw [cut] at ih
    exact congrArg (letter :: ·) ih

/-- Where three columns are free, a cut takes at least one letter. -/
theorem length_cutWord_lt {room : Nat} (free : 3 ≤ room) {word : List Char} (some : word ≠ []) :
    (cutWord room word).2.length < word.length := by
  obtain ⟨letter, rest, rfl⟩ := List.exists_cons_of_ne_nil some
  have narrow := letterColumns_le letter
  have whole := congrArg List.length (append_cutWord (room - letterColumns letter) rest)
  rw [List.length_append] at whole
  rw [cutWord, if_neg (by omega)]
  dsimp only
  rw [List.length_cons]
  omega

theorem ink_append (first second : List Char) : ink (first ++ second) = ink first ++ ink second :=
  List.filter_append ..

theorem ink_flatten (parts : List (List Char)) : ink parts.flatten = parts.flatMap ink := by
  rw [ink, List.filter_flatten, List.flatMap_def]
  rfl

/-- The blank before the next word is no ink. -/
theorem ink_start (line : List Char) :
    ink (if line.isEmpty then [] else ' ' :: line).reverse = ink line.reverse := by
  cases line with
  | nil => rfl
  | cons letter rest =>
    rw [if_neg (by simp), List.reverse_cons (a := ' '), ink_append]
    exact List.append_nil _

/-- The most steps that are left for a line and some words: two for each word and for each letter
of a word, and one more if a line is to be closed. -/
def stepsLeft (line : List Char) (words : List (List Char)) : Nat :=
  2 * (words.flatten.length + words.length) + if line.isEmpty then 0 else 1

theorem stepsLeft_cons (line word : List Char) (words : List (List Char)) :
    stepsLeft line (word :: words) = stepsLeft line words + 2 * word.length + 2 := by
  simp only [stepsLeft, List.flatten_cons, List.length_append, List.length_cons]
  omega

/-- A line that has begun takes one step more. -/
theorem stepsLeft_of_ne_nil {line : List Char} (begun : line ≠ []) (words : List (List Char)) :
    stepsLeft line words = stepsLeft [] words + 1 := by
  rw [stepsLeft, if_neg (by simpa using begun)]
  rfl

theorem stepsLeft_nil_le (line : List Char) (words : List (List Char)) :
    stepsLeft [] words ≤ stepsLeft line words ∧ stepsLeft line words ≤ stepsLeft [] words + 1 := by
  by_cases begun : line = []
  · rw [begun]
    exact ⟨le_rfl, Nat.le_succ _⟩
  · rw [stepsLeft_of_ne_nil begun]
    exact ⟨Nat.le_succ _, le_rfl⟩

/-- Of the words nothing but blanks is lost, and they stay in order. -/
theorem ink_wrapWords {width fuel used : Nat} {line : List Char} {words : List (List Char)}
    (wide : 3 ≤ width) (idle : line = [] → used = 0) (enough : stepsLeft line words < fuel) :
    (wrapWords width fuel line used words).flatMap ink =
      ink line.reverse ++ words.flatMap ink := by
  fun_induction wrapWords width fuel line used words with
  | case1 => exact absurd enough (Nat.not_lt_zero _)
  | case2 fuel line used empty =>
    rw [List.isEmpty_iff.1 empty]
    rfl
  | case3 fuel line used filled => simp
  | case4 fuel before used word words start taken needed fits line full ih =>
    have less := stepsLeft_nil_le before words
    rw [stepsLeft_cons] at enough
    rw [List.flatMap_cons, ih (fun _ => rfl) (by omega)]
    simp only [line, start, List.reverse_append, List.reverse_reverse, ink_append, ink_start,
      List.flatMap_cons, List.append_assoc]
    rfl
  | case5 fuel before used word words start taken needed fits line free ih =>
    have less := stepsLeft_nil_le before words
    have more := stepsLeft_nil_le line words
    rw [stepsLeft_cons] at enough
    rw [ih ?_ (by omega)]
    · simp only [line, start, List.reverse_append, List.reverse_reverse, ink_append, ink_start,
        List.flatMap_cons, List.append_assoc]
    · intro empty
      obtain ⟨noWord, noStart⟩ := List.append_eq_nil_iff.1 empty
      rw [List.reverse_eq_nil_iff] at noWord
      have unbegun : before = [] := by
        by_contra begun
        simp [start, begun] at noStart
      simp [taken, needed, noWord, unbegun, idle unbegun]
      rfl
  | case6 fuel line used word words start taken needed outside cuts fitting rest cut ih =>
    rw [Bool.and_eq_true, decide_eq_true_eq, Bool.or_eq_true, decide_eq_true_eq] at cuts
    have less := stepsLeft_nil_le line words
    have free : 3 ≤ width - taken := by
      rcases cuts.2 with unbegun | room
      · have nothing : taken = 0 := by simp [taken, unbegun, idle (List.isEmpty_iff.1 unbegun)]
        omega
      · omega
    have some : word ≠ [] := by
      intro nothing
      have none : needed = 0 := by simp only [needed, nothing]; rfl
      omega
    have shorter := length_cutWord_lt free some
    have parts := append_cutWord (width - taken) word
    rw [cut] at shorter parts
    dsimp only at shorter parts
    rw [stepsLeft_cons] at enough
    rw [List.flatMap_cons, ih (fun _ => rfl) (by rw [stepsLeft_cons]; omega), ← parts]
    simp only [start, List.reverse_append, List.reverse_reverse, ink_append, ink_start,
      List.flatMap_cons, List.append_assoc]
    rfl
  | case7 fuel line used word words taken needed outside stays ih =>
    have begun : line ≠ [] := by
      intro unbegun
      have nothing : taken = 0 := by simp [taken, unbegun, idle unbegun]
      rw [nothing, Nat.zero_add] at outside
      simp [unbegun, outside] at stays
    rw [stepsLeft_of_ne_nil begun] at enough
    rw [List.flatMap_cons, ih (fun _ => rfl) (by omega)]
    rfl

/-- A line that is cut keeps its ink. -/
theorem ink_wrap {width : Nat} (wide : 3 ≤ width) (line : String) :
    (wrap width line).flatMap (fun piece => ink piece.toList) = ink line.toList := by
  rw [wrap]
  split
  · exact List.flatMap_singleton ..
  · have words := length_splitOn ' ' line.toList
    have enough : stepsLeft [] (line.toList.splitOn ' ') < 2 * line.length + 4 := by
      rw [stepsLeft, ← String.length_toList]
      simp only [List.isEmpty_nil, if_pos]
      omega
    have kept := ink_wrapWords wide (fun _ => rfl) enough
    rw [List.flatMap_map]
    simp only [String.toList_ofList]
    rw [kept, ← ink_flatten, flatten_splitOn]
    simp [ink]

theorem newline_notMem_of_mem_lines {text line : String} (listed : line ∈ lines text) :
    '\n' ∉ line.toList := by
  obtain ⟨letters, part, rfl⟩ := List.mem_map.1 listed
  intro inside
  have among : '\n' ∈ (text.toList.splitOn '\n').flatten := List.mem_flatten.2
    ⟨letters, part, by rwa [String.toList_ofList] at inside⟩
  rw [flatten_splitOn] at among
  simp at among

/-- Lines that are put together are the lines of the whole. -/
theorem lines_intercalate {parts : List String} (some : parts ≠ [])
    (single : ∀ part ∈ parts, '\n' ∉ part.toList) : lines ("\n".intercalate parts) = parts := by
  have letters : ("\n".intercalate parts).toList = ['\n'].intercalate (parts.map String.toList) :=
    String.toList_intercalate
  rw [lines, letters, List.splitOn_intercalate _ (by simpa using single) (by simpa using some),
    List.map_map]
  exact (List.map_congr_left fun part _ => String.ofList_toList).trans (List.map_id parts)

end Text

/-! ## Tables -/

theorem exists_of_forall₂_right {α β : Type} {relation : α → β → Prop} {items : List α}
    {others : List β} (each : List.Forall₂ relation items others) {other : β}
    (listed : other ∈ others) : ∃ item ∈ items, relation item other := by
  induction each with
  | nil => cases listed
  | cons first _ ih =>
    rcases List.mem_cons.1 listed with rfl | later
    · exact ⟨_, List.mem_cons_self .., first⟩
    · obtain ⟨item, among, related⟩ := ih later
      exact ⟨item, List.mem_cons_of_mem _ among, related⟩

theorem le_foldl_max {numbers : List Nat} {start number : Nat}
    (listed : number ≤ start ∨ number ∈ numbers) : number ≤ numbers.foldl max start := by
  induction numbers generalizing start with
  | nil => simpa using listed
  | cons first rest ih =>
    refine ih ?_
    rcases listed with small | listed
    · exact .inl (small.trans (le_max_left ..))
    · rcases List.mem_cons.1 listed with rfl | later
      · exact .inl (le_max_right ..)
      · exact .inr later

namespace Table

/-- What a line of a cell becomes where `width` columns are free: it stays as it is if it fits, and
is cut otherwise, where nothing but blanks is lost. -/
inductive Breaks (width : Nat) (line : String) : List String → Prop
  | whole : Text.columns line ≤ width → Breaks width line [line]
  | cut {parts : List String} : width < Text.columns line →
    parts.flatMap (fun part => Text.ink part.toList) = Text.ink line.toList →
    Breaks width line parts

/-- A row shows a part of a cell between bars, with blanks up to `width` columns. -/
def Row (width : Nat) (part row : String) : Prop :=
  ∃ blanks, row = "| " ++ part ++ String.ofList (List.replicate blanks ' ') ++ " |" ∧
    (Text.columns part ≤ width → Text.columns part + blanks = width)

/-- The rows of a cell show the parts of all its lines in order. -/
def ShowsCell (width : Nat) (cell : String) (rows : List String) : Prop :=
  ∃ parts, List.Forall₂ (Breaks width) (Text.lines cell) parts ∧
    List.Forall₂ (Row width) parts.flatten rows

/-- A text shows a title and cells: line by line, the rows of the title and then the rows of each
cell in order, between rules. Only lines of more than 65535 columns are cut. -/
def Shows (title : String) (cells : List String) (text : String) : Prop :=
  ∃ width rule head body,
    (∀ cell ∈ title :: cells, ∀ line ∈ Text.lines cell, min widest (Text.columns line) ≤ width) ∧
      ShowsCell width title head ∧ List.Forall₂ (ShowsCell width) cells body ∧
      (∀ letter ∈ rule.toList, letter = '+' ∨ letter = '-') ∧
      Text.lines text = [rule] ++ head ++ [rule] ++ body.flatten ++ [rule]

variable {width : Nat}

theorem breaks_wrap {line : String} (free : min widest (Text.columns line) ≤ width) :
    Breaks width line (Text.wrap width line) := by
  by_cases fits : Text.columns line ≤ width
  · rw [Text.wrap, if_pos fits]
    exact .whole fits
  · have wide : 3 ≤ width := by
      simp only [widest] at free
      omega
    exact .cut (not_le.1 fits) (Text.ink_wrap wide line)

/-- No part of a line holds a line break. -/
theorem Breaks.newline_notMem {line : String} {parts : List String}
    (breaks : Breaks width line parts) (single : '\n' ∉ line.toList) :
    ∀ part ∈ parts, '\n' ∉ part.toList := by
  cases breaks with
  | whole fits => simpa using single
  | cut long kept =>
    intro part listed inside
    have among : '\n' ∈ parts.flatMap fun part => Text.ink part.toList :=
      List.mem_flatMap.2 ⟨part, listed, List.mem_filter.2 ⟨inside, rfl⟩⟩
    rw [kept] at among
    exact single (List.mem_of_mem_filter among)

theorem row_cellLine (width : Nat) (part : String) : Row width part (cellLine width part) :=
  ⟨_, rfl, fun fits => Nat.add_sub_of_le fits⟩

theorem Row.newline_notMem {part row : String} (shows : Row width part row)
    (single : '\n' ∉ part.toList) : '\n' ∉ row.toList := by
  obtain ⟨blanks, rfl, -⟩ := shows
  simp [single]

theorem showsCell_cellLines {cell : String}
    (free : ∀ line ∈ Text.lines cell, min widest (Text.columns line) ≤ width) :
    ShowsCell width cell ((cellLines width cell).map (cellLine width)) := by
  refine ⟨(Text.lines cell).map (Text.wrap width), ?_, ?_⟩
  · rw [List.forall₂_map_right_iff]
    exact List.forall₂_same.2 fun line listed => breaks_wrap (free line listed)
  · rw [List.forall₂_map_right_iff, cellLines, List.flatMap_def]
    exact List.forall₂_same.2 fun part _ => row_cellLine width part

theorem ShowsCell.newline_notMem {cell : String} {rows : List String}
    (shows : ShowsCell width cell rows) : ∀ row ∈ rows, '\n' ∉ row.toList := by
  intro row listed
  obtain ⟨parts, breaks, filled⟩ := shows
  obtain ⟨part, among, here⟩ := exists_of_forall₂_right filled listed
  obtain ⟨some, held, inside⟩ := List.mem_flatten.1 among
  obtain ⟨line, found, broken⟩ := exists_of_forall₂_right breaks held
  exact here.newline_notMem
    (broken.newline_notMem (Text.newline_notMem_of_mem_lines found) part inside)

/-- Every line fits the width of its table, unless it is wider than any table can be. -/
theorem le_width {cells : List String} {cell line : String} (listed : cell ∈ cells)
    (among : line ∈ Text.lines cell) : min widest (Text.columns line) ≤ Table.width cells :=
  min_le_min_left _ <| le_foldl_max <| .inr <|
    List.mem_map.2 ⟨line, List.mem_flatMap.2 ⟨cell, listed, among⟩, rfl⟩

theorem mem_rule (width : Nat) : ∀ letter ∈ (rule width).toList, letter = '+' ∨ letter = '-' := by
  intro letter listed
  simp [rule] at listed
  rcases listed with corner | ⟨-, dash⟩ | corner
  · exact .inl corner
  · exact .inr dash
  · exact .inl corner

/-- Rows between rules are read back line by line. -/
theorem lines_of_rows {rule : String} {head : List String} {body : List (List String)}
    {title : String} {cells : List String}
    (ruled : ∀ letter ∈ rule.toList, letter = '+' ∨ letter = '-')
    (titled : ShowsCell width title head) (filled : List.Forall₂ (ShowsCell width) cells body) :
    Text.lines ("\n".intercalate ([rule] ++ head ++ [rule] ++ body.flatten ++ [rule])) =
      [rule] ++ head ++ [rule] ++ body.flatten ++ [rule] := by
  have ruling : '\n' ∉ rule.toList := by
    intro inside
    rcases ruled _ inside with corner | dash
    · cases corner
    · cases dash
  refine Text.lines_intercalate (by simp) fun row listed => ?_
  simp only [List.mem_append, List.mem_singleton] at listed
  rcases listed with (((rfl | among) | rfl) | among) | rfl
  · exact ruling
  · exact titled.newline_notMem row among
  · exact ruling
  · obtain ⟨rows, held, inside⟩ := List.mem_flatten.1 among
    obtain ⟨cell, -, shows⟩ := exists_of_forall₂_right filled held
    exact shows.newline_notMem row inside
  · exact ruling

/-- A table shows its title and its cells in order. -/
theorem shows_render (title : String) (cells : List String) :
    Shows title cells (render title cells) := by
  have free : ∀ cell ∈ title :: cells, ∀ line ∈ Text.lines cell,
      min widest (Text.columns line) ≤ Table.width (title :: cells) :=
    fun cell listed line among => le_width listed among
  rw [render, List.flatMap_def]
  generalize Table.width (title :: cells) = width at free ⊢
  have titled := showsCell_cellLines (free title (List.mem_cons_self ..))
  have filled : List.Forall₂ (ShowsCell width) cells
      (cells.map fun cell => (cellLines width cell).map (cellLine width)) := by
    rw [List.forall₂_map_right_iff]
    exact List.forall₂_same.2 fun cell listed =>
      showsCell_cellLines (free cell (List.mem_cons_of_mem _ listed))
  exact ⟨width, rule width, _, _, free, titled, filled, mem_rule width,
    lines_of_rows (mem_rule width) titled filled⟩

end Table

end Tdms
