import Mathlib
import Tdms.ObjectPath

/-!
Object paths are read back from what they are written as, and from nothing else.

A quote that is written twice never closes a name, so the first quote that is
not written twice is where the name ends. `parse?_eq_some_iff` states both
directions for the text that `render` writes. `Spells` is the grammar of paths
without either of the two, and `parse?_inverts` relates all three.
-/

namespace Tdms.ObjectPath

/-! ## Names -/

theorem takeName?_close {rest : List Char} (after : rest.head? ≠ some quote) :
    takeName? (quote :: rest) = some ([], rest) := by
  cases rest with
  | nil => rfl
  | cons next later =>
    have other : next ≠ quote := fun same => after (congrArg some same)
    simp [takeName?, other]

theorem takeName?_quote (rest : List Char) :
    takeName? (quote :: quote :: rest) =
      (takeName? rest).map fun found => (quote :: found.1, found.2) := by
  simp [takeName?]

theorem takeName?_letter {letter : Char} (other : letter ≠ quote) (rest : List Char) :
    takeName? (letter :: rest) =
      (takeName? rest).map fun found => (letter :: found.1, found.2) := by
  rw [takeName?.eq_def]
  dsimp only
  rw [if_neg other]

/-- A name is taken whole if no quote follows its closing quote. -/
theorem takeName?_escape (letters : List Char) {rest : List Char}
    (after : rest.head? ≠ some quote) :
    takeName? (escape letters ++ quote :: rest) = some (letters, rest) := by
  induction letters with
  | nil => exact takeName?_close after
  | cons letter letters ih =>
    unfold escape
    split
    · rename_i same
      rw [List.cons_append, List.cons_append, takeName?_quote, ih, same]
      rfl
    · rename_i other
      rw [List.cons_append, takeName?_letter other, ih]
      rfl

theorem takeComponent?_component (name : String) {rest : List Char}
    (after : rest.head? ≠ some quote) :
    takeComponent? (component name ++ rest) = some (name, rest) := by
  rw [component, List.cons_append, List.cons_append, List.append_assoc, takeComponent?,
    if_pos ⟨rfl, rfl⟩, List.singleton_append, takeName?_escape _ after]
  simp

/-- What is taken as a name is a name as a path writes it. -/
theorem eq_of_takeName? {text name rest : List Char} (taken : takeName? text = some (name, rest)) :
    text = escape name ++ quote :: rest := by
  fun_induction takeName? text generalizing name with
  | case1 => cases taken
  | case2 =>
    cases taken
    rfl
  | case3 later ih =>
    obtain ⟨⟨found, after⟩, inner, same⟩ := Option.map_eq_some_iff.1 taken
    cases same
    rw [ih inner, escape, if_pos rfl]
    rfl
  | case4 next later other =>
    cases taken
    rfl
  | case5 letter later other ih =>
    obtain ⟨⟨found, after⟩, inner, same⟩ := Option.map_eq_some_iff.1 taken
    cases same
    rw [ih inner, escape, if_neg other]
    rfl

theorem eq_of_takeComponent? {text : List Char} {name : String} {rest : List Char}
    (taken : takeComponent? text = some (name, rest)) : text = component name ++ rest := by
  unfold takeComponent? at taken
  split at taken
  · split at taken
    · rename_i opened
      obtain ⟨⟨letters, after⟩, inner, same⟩ := Option.map_eq_some_iff.1 taken
      cases same
      rw [opened.1, opened.2, eq_of_takeName? inner, component, String.toList_ofList]
      simp
    · cases taken
  · cases taken

/-! ## Paths -/

theorem component_ne_root (name : String) (rest : List Char) : component name ++ rest ≠ ['/'] := by
  intro same
  have lengths := congrArg List.length same
  simp [component] at lengths

/-- A path is read back from its text. -/
theorem parse?_render (path : ObjectPath) : parse? path.render = some path := by
  rw [parse?, render, String.toList_ofList]
  cases path with
  | root => rfl
  | group name =>
    have taken : takeComponent? (component name) = some (name, []) := by
      rw [← List.append_nil (component name)]
      exact takeComponent?_component name nofun
    have other : component name ≠ ['/'] := by
      rw [← List.append_nil (component name)]
      exact component_ne_root name []
    rw [letters, if_neg other, taken]
  | channel owner name =>
    have first : takeComponent? (component owner ++ component name) =
        some (owner, component name) :=
      takeComponent?_component owner (by simp [component, quote])
    have second : takeComponent? (component name) = some (name, []) := by
      rw [← List.append_nil (component name)]
      exact takeComponent?_component name nofun
    rw [letters, if_neg (component_ne_root owner _), first]
    cases shape : component name with
    | nil => simp [component] at shape
    | cons letter rest =>
      rw [shape] at second
      dsimp only
      rw [second]

/-- A text is read as a path exactly if it is what the path is written as. -/
theorem parse?_eq_some_iff {text : String} {path : ObjectPath} :
    parse? text = some path ↔ text = path.render := by
  constructor
  · intro read
    rw [render, ← String.toList_inj, String.toList_ofList]
    unfold parse? at read
    split at read
    · rename_i root
      cases read
      exact root
    · split at read
      · cases read
      · rename_i taken
        cases read
        rw [eq_of_takeComponent? taken, List.append_nil]
        rfl
      · split at read
        · rename_i first rest _ taken _ _ also
          cases read
          rw [eq_of_takeComponent? taken, eq_of_takeComponent? also, List.append_nil]
          rfl
        · cases read
  · rintro rfl
    exact parse?_render path

/-! ## The grammar of paths -/

/-- The letters stand for a name between quotes: every quote of the name is there twice, and all
else once. -/
inductive SpellsName : (name letters : List Char) → Prop
  | done : SpellsName [] []
  | letter {letter : Char} {name letters : List Char} :
    letter ≠ quote → SpellsName name letters → SpellsName (letter :: name) (letter :: letters)
  | quote {name letters : List Char} :
    SpellsName name letters → SpellsName (quote :: name) (quote :: quote :: letters)

/-- A slash, and the name in quotes. -/
def SpellsComponent (name : String) (text : List Char) : Prop :=
  ∃ letters, SpellsName name.toList letters ∧ text = '/' :: quote :: (letters ++ [quote])

/-- A path is a slash alone, or one component for each of its names. -/
inductive Spells : ObjectPath → List Char → Prop
  | root : Spells .root ['/']
  | group {name : String} {text : List Char} : SpellsComponent name text → Spells (.group name) text
  | channel {owner name : String} {first second : List Char} :
    SpellsComponent owner first → SpellsComponent name second →
      Spells (.channel owner name) (first ++ second)

theorem spellsName_iff {name letters : List Char} :
    SpellsName name letters ↔ letters = escape name := by
  constructor
  · intro spells
    induction spells with
    | done => rfl
    | letter other _ ih => rw [escape, if_neg other, ih]
    | quote _ ih => rw [escape, if_pos rfl, ih]
  · rintro rfl
    induction name with
    | nil => exact .done
    | cons letter name ih =>
      rw [escape]
      split
      · rename_i same
        rw [same]
        exact .quote ih
      · rename_i other
        exact .letter other ih

theorem spellsComponent_iff {name : String} {text : List Char} :
    SpellsComponent name text ↔ text = component name := by
  simp only [SpellsComponent, spellsName_iff, exists_eq_left, component]

/-- Every path is spelled in one way, as it is written. -/
theorem spells_iff {path : ObjectPath} {text : List Char} :
    Spells path text ↔ text = path.letters := by
  constructor
  · intro spells
    cases spells with
    | root => rfl
    | group named => exact spellsComponent_iff.1 named
    | channel owned named =>
      rw [spellsComponent_iff.1 owned, spellsComponent_iff.1 named]
      rfl
  · rintro rfl
    cases path with
    | root => exact .root
    | group name => exact .group (spellsComponent_iff.2 rfl)
    | channel owner name => exact .channel (spellsComponent_iff.2 rfl) (spellsComponent_iff.2 rfl)

theorem parse?_eq_some_iff_spells {text : String} {path : ObjectPath} :
    parse? text = some path ↔ Spells path text.toList := by
  rw [parse?_eq_some_iff, spells_iff, render, ← String.toList_inj, String.toList_ofList]

/-- Paths are told apart by their texts. -/
theorem render_injective : Function.Injective render := by
  intro path other same
  have read := parse?_render path
  rw [same, parse?_render other] at read
  exact (Option.some.inj read).symm

/-- Reading and writing paths are inverse to each other. What can be read is what the grammar
admits: a slash alone, or one or two names in quotes with the quotes inside them written twice.
The text of a path determines it, and the text of a channel both of its names. -/
theorem parse?_inverts :
    (∀ path : ObjectPath, parse? path.render = some path) ∧
    (∀ text path, parse? text = some path → path.render = text) ∧
    (∀ text path, parse? text = some path ↔ Spells path text.toList) ∧
    Function.Injective render ∧
    ∀ owner name otherOwner otherName : String,
      (channel owner name).render = (channel otherOwner otherName).render →
        owner = otherOwner ∧ name = otherName := by
  refine ⟨parse?_render, fun text path read => (parse?_eq_some_iff.1 read).symm,
    fun text path => parse?_eq_some_iff_spells, render_injective, ?_⟩
  intro owner name otherOwner otherName same
  exact channel.inj (render_injective same)

/-- Names that look like the end of one name and the start of another. -/
theorem parse?_inverts_quotes :
    parse? "/'''/'''/''''" = some (channel "'/'" "'") ∧
      (channel "'/'" "'").render = "/'''/'''/''''" ∧
      Spells (channel "'/'" "'") "/'''/'''/''''".toList := by
  have read : parse? "/'''/'''/''''" = some (channel "'/'" "'") := by decide +kernel
  exact ⟨read, parse?_inverts.2.1 _ _ read, (parse?_inverts.2.2.1 _ _).1 read⟩

end Tdms.ObjectPath
