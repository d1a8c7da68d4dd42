import Mathlib

/-!
Laws of outcomes, which are an answer or an error: when steps in turn, a change
of the answer, and a fold give an answer.
-/

namespace Tdms.Outcome

variable {ε α β : Type}

theorem bind_eq_ok {outcome : Except ε α} {next : α → Except ε β} {answer : β} :
    (outcome >>= next) = .ok answer ↔ ∃ value, outcome = .ok value ∧ next value = .ok answer := by
  cases outcome with
  | error error => simp [bind, Except.bind]
  | ok value => simp [bind, Except.bind]

theorem ok_bind (value : α) (next : α → Except ε β) :
    ((.ok value : Except ε α) >>= next) = next value :=
  rfl

theorem map_eq_ok {outcome : Except ε α} {change : α → β} {answer : β} :
    outcome.map change = .ok answer ↔ ∃ value, outcome = .ok value ∧ change value = answer := by
  cases outcome with
  | error error => simp [Except.map]
  | ok value => simp [Except.map]

theorem exists_of_isSome {outcome : Except ε α} (some : outcome.toOption.isSome = true) :
    ∃ value, outcome = .ok value := by
  cases outcome with
  | error error => cases some
  | ok value => exact ⟨value, rfl⟩

theorem eq_ok_of_toOption {outcome : Except ε α} {value : α}
    (answer : outcome.toOption = some value) : outcome = .ok value := by
  cases outcome with
  | error error => cases answer
  | ok other => exact congrArg Except.ok (Option.some.inj answer)

theorem foldlM_cons_eq_ok {step : β → α → Except ε β} {state final : β} {item : α}
    {items : List α} :
    (item :: items).foldlM step state = .ok final ↔
      ∃ next, step state item = .ok next ∧ items.foldlM step next = .ok final := by
  rw [List.foldlM_cons]
  exact bind_eq_ok

theorem map_eq_error {outcome : Except ε α} {change : α → β} {error : ε} :
    outcome.map change = .error error ↔ outcome = .error error := by
  cases outcome with
  | error other => simp [Except.map]
  | ok value => simp [Except.map]

theorem bind_eq_error {outcome : Except ε α} {next : α → Except ε β} {error : ε} :
    (outcome >>= next) = .error error ↔
      outcome = .error error ∨ ∃ value, outcome = .ok value ∧ next value = .error error := by
  cases outcome with
  | error other => simp [bind, Except.bind]
  | ok value => simp [bind, Except.bind]

/-- A fold that fails takes up some items and is refused the next. -/
theorem foldlM_eq_error {step : β → α → Except ε β} {state : β} {items : List α} {error : ε}
    (failed : items.foldlM step state = .error error) :
    ∃ before item after middle, items = before ++ item :: after ∧
      before.foldlM step state = .ok middle ∧ step middle item = .error error := by
  induction items generalizing state with
  | nil => cases failed
  | cons item rest ih =>
    rw [List.foldlM_cons] at failed
    rcases bind_eq_error.1 failed with refused | ⟨next, first, later⟩
    · exact ⟨[], item, rest, state, rfl, rfl, refused⟩
    · rcases ih later with ⟨before, other, after, middle, rfl, taken, refused⟩
      exact ⟨item :: before, other, after, middle, rfl,
        foldlM_cons_eq_ok.2 ⟨next, first, taken⟩, refused⟩

/-! ## Errors -/

/-- The outcome is an answer or an allowed error. -/
def FailsOnly (allowed : ε → Prop) (outcome : Except ε α) : Prop :=
  ∀ error, outcome = .error error → allowed error

namespace FailsOnly

variable {allowed : ε → Prop} {outcome : Except ε α}

theorem ok (value : α) : FailsOnly allowed (.ok value : Except ε α) :=
  nofun

theorem error {error : ε} (fits : allowed error) :
    FailsOnly allowed (.error error : Except ε α) := by
  intro other same
  cases same
  exact fits

theorem mono {larger : ε → Prop} (fails : FailsOnly allowed outcome)
    (more : ∀ error, allowed error → larger error) : FailsOnly larger outcome :=
  fun error failed => more error (fails error failed)

theorem bind {next : α → Except ε β} (first : FailsOnly allowed outcome)
    (later : ∀ value, FailsOnly allowed (next value)) : FailsOnly allowed (outcome >>= next) := by
  intro error failed
  rcases bind_eq_error.1 failed with refused | ⟨value, -, refused⟩
  · exact first error refused
  · exact later value error refused

theorem foldlM {step : β → α → Except ε β}
    (steps : ∀ state item, FailsOnly allowed (step state item)) (items : List α) (state : β) :
    FailsOnly allowed (items.foldlM step state) := by
  intro error failed
  rcases foldlM_eq_error failed with ⟨-, item, -, middle, -, -, refused⟩
  exact steps middle item error refused

end FailsOnly

/-! ## Collecting -/

/-- What `read` makes of all items, one after another. The first error ends the reading. -/
def collect (read : α → Except ε (List β)) : List α → Except ε (List β)
  | [] => .ok []
  | item :: rest =>
    match read item with
    | .error error => .error error
    | .ok values => (collect read rest).map (values ++ ·)

variable {γ : Type} {read : α → Except ε (List β)} {items : List α}

theorem mapM_flatten (read : α → Except ε (List β)) (items : List α) :
    (items.mapM read).map List.flatten = collect read items := by
  induction items with
  | nil => rfl
  | cons item rest ih =>
    rw [collect, ← ih, List.mapM_cons]
    cases read item with
    | error error => rfl
    | ok values =>
      cases rest.mapM read with
      | error error => rfl
      | ok others => rfl

/-- What is collected depends on what is read alone. -/
theorem collect_map_eq {other : γ → Except ε (List β)} {others : List γ}
    (same : items.map read = others.map other) : collect read items = collect other others := by
  induction items generalizing others with
  | nil =>
    cases others with
    | nil => rfl
    | cons item rest => cases same
  | cons item rest ih =>
    cases others with
    | nil => cases same
    | cons first later =>
      rw [List.map_cons, List.map_cons, List.cons.injEq] at same
      rw [collect, collect, same.1, ih same.2]

theorem collect_congr {other : α → Except ε (List β)}
    (same : ∀ item ∈ items, read item = other item) :
    collect read items = collect other items :=
  collect_map_eq (List.map_congr_left same)

theorem collect_append (read : α → Except ε (List β)) (items others : List α) :
    collect read (items ++ others) =
      match collect read items with
      | .error error => .error error
      | .ok values => (collect read others).map (values ++ ·) := by
  induction items with
  | nil =>
    rw [List.nil_append, collect]
    cases collect read others with
    | error error => rfl
    | ok values => rfl
  | cons item rest ih =>
    rw [List.cons_append, collect, collect, ih]
    cases read item with
    | error error => rfl
    | ok values =>
      cases collect read rest with
      | error error => rfl
      | ok more =>
        cases collect read others with
        | error error => rfl
        | ok last =>
          simp [Except.map]

theorem collect_singleton (read : α → Except ε (List β)) (item : α) :
    collect read [item] = read item := by
  rw [collect, collect]
  cases read item with
  | error error => rfl
  | ok values => simp [Except.map]

theorem collect_flatMap (read : α → Except ε (List β)) (expand : γ → List α) (items : List γ) :
    collect read (items.flatMap expand) =
      collect (fun item => collect read (expand item)) items := by
  induction items with
  | nil => rfl
  | cons item rest ih => rw [List.flatMap_cons, collect_append, collect, ih]

/-- Items of which nothing is read may be left out. -/
theorem collect_filter {keep : α → Bool}
    (nothing : ∀ item ∈ items, keep item = false → read item = .ok []) :
    collect read (items.filter keep) = collect read items := by
  induction items with
  | nil => rfl
  | cons item rest ih =>
    have later := ih fun other listed => nothing other (List.mem_cons_of_mem _ listed)
    cases kept : keep item with
    | true => rw [List.filter_cons_of_pos kept, collect, collect, later]
    | false =>
      have empty : ¬ keep item = true := by
        rw [kept]
        exact Bool.false_ne_true
      rw [List.filter_cons_of_neg empty, collect, nothing item List.mem_cons_self kept, later]
      cases collect read rest with
      | error error => rfl
      | ok values => rfl

theorem collect_map (read : α → Except ε (List β)) (change : β → γ) (items : List α) :
    collect (fun item => (read item).map (List.map change)) items =
      (collect read items).map (List.map change) := by
  induction items with
  | nil => rfl
  | cons item rest ih =>
    rw [collect, collect, ih]
    cases read item with
    | error error => rfl
    | ok values =>
      cases collect read rest with
      | error error => rfl
      | ok others =>
        simp [Except.map]

theorem length_of_collect {size : α → Nat}
    (sized : ∀ item ∈ items, ∀ values, read item = .ok values → values.length = size item)
    {values : List β} (collected : collect read items = .ok values) :
    values.length = (items.map size).sum := by
  induction items generalizing values with
  | nil =>
    cases collected
    rfl
  | cons item rest ih =>
    unfold collect at collected
    cases first : read item with
    | error error =>
      rw [first] at collected
      cases collected
    | ok taken =>
      rw [first] at collected
      rcases map_eq_ok.1 collected with ⟨others, later, rfl⟩
      have one := sized item List.mem_cons_self taken first
      have more := ih (fun other listed => sized other (List.mem_cons_of_mem _ listed)) later
      rw [List.length_append, List.map_cons, List.sum_cons, one, more]

/-- Reading never fails where it reads every item. -/
theorem collect_of_ok {values : α → List β}
    (reads : ∀ item ∈ items, read item = .ok (values item)) :
    collect read items = .ok (items.flatMap values) := by
  induction items with
  | nil => rfl
  | cons item rest ih =>
    rw [collect, reads item List.mem_cons_self,
      ih fun other listed => reads other (List.mem_cons_of_mem _ listed)]
    rfl

/-- What is read of items is read of what they are changed into. -/
theorem collect_of_map {other : γ → Except ε (List β)} {change : α → γ}
    (kept : ∀ item ∈ items, ∀ values, read item = .ok values → other (change item) = .ok values)
    {values : List β} (collected : collect read items = .ok values) :
    collect other (items.map change) = .ok values := by
  induction items generalizing values with
  | nil => exact collected
  | cons item rest ih =>
    unfold collect at collected
    cases first : read item with
    | error error =>
      rw [first] at collected
      cases collected
    | ok taken =>
      rw [first] at collected
      obtain ⟨others, later, rfl⟩ := map_eq_ok.1 collected
      rw [List.map_cons, collect, kept item List.mem_cons_self taken first,
        ih (fun one listed => kept one (List.mem_cons_of_mem _ listed)) later]
      rfl

/-- Collecting answers exactly where every item is read, with what is read of all of them. -/
theorem collect_eq_ok_iff {values : List β} :
    collect read items = .ok values ↔
      ∃ parts, List.Forall₂ (fun item part => read item = .ok part) items parts ∧
        values = parts.flatten := by
  induction items generalizing values with
  | nil => simp [collect, eq_comm]
  | cons item rest ih =>
    rw [collect]
    cases first : read item with
    | error error => simp [List.forall₂_cons_left_iff, first]
    | ok taken =>
      dsimp only
      rw [map_eq_ok]
      constructor
      · rintro ⟨others, later, rfl⟩
        obtain ⟨parts, all, rfl⟩ := ih.1 later
        exact ⟨taken :: parts, .cons first all, rfl⟩
      · rintro ⟨_, all, rfl⟩
        obtain ⟨part, parts, here, later, rfl⟩ := List.forall₂_cons_left_iff.1 all
        cases first.symm.trans here
        exact ⟨parts.flatten, ih.2 ⟨parts, later, rfl⟩, rfl⟩

/-- Collecting fails with the error of the first item that cannot be read. -/
theorem collect_eq_error_iff {error : ε} :
    collect read items = .error error ↔
      ∃ before item after, items = before ++ item :: after ∧
        (∀ other ∈ before, ∃ values, read other = .ok values) ∧ read item = .error error := by
  constructor
  · intro failed
    induction items with
    | nil => cases failed
    | cons item rest ih =>
      rw [collect] at failed
      cases first : read item with
      | error other =>
        rw [first] at failed
        cases failed
        exact ⟨[], item, rest, rfl, nofun, first⟩
      | ok values =>
        rw [first] at failed
        obtain ⟨before, refused, after, rfl, earlier, last⟩ := ih (map_eq_error.1 failed)
        exact ⟨item :: before, refused, after, rfl,
          List.forall_mem_cons.2 ⟨⟨values, first⟩, earlier⟩, last⟩
  · rintro ⟨before, item, after, rfl, earlier, refused⟩
    induction before with
    | nil => rw [List.nil_append, collect, refused]
    | cons other rest ih =>
      obtain ⟨⟨values, first⟩, later⟩ := List.forall_mem_cons.1 earlier
      rw [List.cons_append, collect, first, ih later]
      rfl

/-- Where collecting fails, an item cannot be read. -/
theorem collect_eq_error {error : ε} (failed : collect read items = .error error) :
    ∃ item ∈ items, read item = .error error := by
  obtain ⟨before, item, after, rfl, -, refused⟩ := collect_eq_error_iff.1 failed
  exact ⟨item, by simp, refused⟩

/-! ## Mapping -/

section Mapping

variable {read : α → Except ε β}

theorem mapM_eq_collect (read : α → Except ε β) (items : List α) :
    items.mapM read = collect (fun item => (read item).map fun value => [value]) items := by
  induction items with
  | nil => rfl
  | cons item rest ih =>
    rw [collect, ← ih, List.mapM_cons]
    cases read item with
    | error error => rfl
    | ok value =>
      cases rest.mapM read with
      | error error => rfl
      | ok others => rfl

/-- Mapping answers exactly where every item has an answer. -/
theorem mapM_eq_ok_iff {values : List β} :
    items.mapM read = .ok values ↔
      List.Forall₂ (fun item value => read item = .ok value) items values := by
  induction items generalizing values with
  | nil => simp [pure, Except.pure, eq_comm]
  | cons item rest ih =>
    simp only [List.mapM_cons, bind_eq_ok, ih, List.forall₂_cons_left_iff, pure, Except.pure,
      Except.ok.injEq]
    constructor
    · intro ⟨value, first, others, later, whole⟩
      exact ⟨value, others, first, later, whole.symm⟩
    · intro ⟨value, others, first, later, whole⟩
      exact ⟨value, first, others, later, whole.symm⟩

/-- Mapping fails with the error of the first item that has no answer. -/
theorem mapM_eq_error_iff {error : ε} :
    items.mapM read = .error error ↔
      ∃ before item after, items = before ++ item :: after ∧
        (∀ other ∈ before, ∃ value, read other = .ok value) ∧ read item = .error error := by
  have known : ∀ item, (∃ values, (read item).map (fun value => [value]) = .ok values) ↔
      ∃ value, read item = .ok value := fun item => by
    cases read item with
    | error error => simp [Except.map]
    | ok value => simp [Except.map]
  simp only [mapM_eq_collect, collect_eq_error_iff, map_eq_error, known]

end Mapping

/-! ## Alike outcomes -/

/-- The outcomes are the same answer, or errors that are related. -/
inductive Alike (related : ε → ε → Prop) : Except ε α → Except ε α → Prop
  | ok (value : α) : Alike related (.ok value) (.ok value)
  | error {first second : ε} : related first second → Alike related (.error first) (.error second)

variable {related : ε → ε → Prop}

theorem Alike.map {first second : Except ε α} (alike : Alike related first second)
    (change : α → β) : Alike related (first.map change) (second.map change) := by
  cases alike with
  | ok value => exact .ok (change value)
  | error same => exact .error same

/-- Items that are read alike one by one are collected alike. -/
theorem collect_alike {other : γ → Except ε (List β)} {others : List γ}
    (alike : List.Forall₂ (fun item moved => Alike related (read item) (other moved))
      items others) : Alike related (collect read items) (collect other others) := by
  induction alike with
  | nil => exact .ok []
  | cons first _ ih =>
    rw [collect, collect]
    generalize read _ = one at first
    generalize other _ = two at first
    cases first with
    | ok values => exact ih.map _
    | error same => exact .error same

end Tdms.Outcome
