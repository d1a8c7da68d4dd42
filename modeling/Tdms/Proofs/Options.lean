import Mathlib
import Tdms.Options

/-!
One more flag among the arguments.

Every step of reading the arguments `Passes` a flag on: it keeps what is given,
and does the same with one more flag, as long as it does not give that flag
itself. So arguments that are accepted without a flag are accepted with it, and
give the same options but for the flag.
-/

namespace Tdms.Options

namespace Given

variable {given next final : Given} {flag : Flag}

theorem flags_grant_of_flags (known : given.flags flag = true) (other : Flag) :
    (given.grant other).flags flag = true := by
  simp [grant, known]

/-- Flags may be given in either order. -/
theorem grant_grant (given : Given) (flag other : Flag) :
    (given.grant flag).grant other = (given.grant other).grant flag := by
  simp only [grant, Given.mk.injEq, and_true]
  funext each
  exact Bool.or_left_comm ..

/-- What a step of reading does with flags that it does not give. -/
structure Passes (step : Given → Option Given) : Prop where
  keeps : ∀ {given next flag}, step given = some next → given.flags flag = true →
    next.flags flag = true
  grants : ∀ {given next flag}, step given = some next → next.flags flag = false →
    step (given.grant flag) = some (next.grant flag)

namespace Passes

theorem some : Passes Option.some :=
  ⟨fun same known => Option.some.inj same ▸ known, fun same _ => Option.some.inj same ▸ rfl⟩

theorem bind {step after : Given → Option Given} (first : Passes step) (second : Passes after) :
    Passes fun given => (step given).bind after := by
  refine ⟨fun both known => ?_, fun both missing => ?_⟩
  · obtain ⟨middle, taken, later⟩ := Option.bind_eq_some_iff.1 both
    exact second.keeps later (first.keeps taken known)
  · obtain ⟨middle, taken, later⟩ := Option.bind_eq_some_iff.1 both
    refine Option.bind_eq_some_iff.2
      ⟨middle.grant _, first.grants taken ?_, second.grants later missing⟩
    rw [← Bool.not_eq_true] at missing ⊢
    exact fun known => missing (second.keeps later known)

theorem setFlag? (flag : Flag) : Passes (Given.setFlag? · flag) := by
  refine ⟨fun {given next other} taken known => ?_, fun {given next other} taken missing => ?_⟩
  · obtain ⟨-, same⟩ := Option.ite_none_left_eq_some.1 taken
    exact Option.some.inj same ▸ flags_grant_of_flags known flag
  · obtain ⟨fresh, same⟩ := Option.ite_none_left_eq_some.1 taken
    obtain rfl := Option.some.inj same
    simp only [grant, Bool.or_eq_false_iff, beq_eq_false_iff_ne] at missing
    have still : (given.grant other).flags flag = false := by
      simpa [grant, missing.1.symm] using fresh
    rw [Given.setFlag?, still, grant_grant]
    rfl

theorem setLimit? (text : String) : Passes (Given.setLimit? · text) := by
  refine ⟨fun {given next other} taken known => ?_, fun {given next other} taken missing => ?_⟩
  · unfold Given.setLimit? at taken
    split at taken
    · cases taken
      exact known
    · cases taken
  · unfold Given.setLimit? at taken
    split at taken
    · rename_i unset read
      cases taken
      simp [Given.setLimit?, grant, unset, read]
    · cases taken

theorem setPath? (path : String) : Passes (Given.setPath? · path) := by
  refine ⟨fun {given next other} taken known => ?_, fun {given next other} taken missing => ?_⟩
  · obtain ⟨-, same⟩ := Option.ite_none_left_eq_some.1 taken
    exact Option.some.inj same ▸ known
  · obtain ⟨fresh, same⟩ := Option.ite_none_left_eq_some.1 taken
    obtain rfl := Option.some.inj same
    exact if_neg fresh

theorem addChannel? (group name : String) : Passes (Given.addChannel? · group name) := by
  refine ⟨fun {given next other} taken known => ?_, fun {given next other} taken missing => ?_⟩
  · obtain ⟨-, same⟩ := Option.ite_none_right_eq_some.1 taken
    exact Option.some.inj same ▸ known
  · obtain ⟨values, same⟩ := Option.ite_none_right_eq_some.1 taken
    obtain rfl := Option.some.inj same
    exact if_pos values

theorem take? (argument : String) : Passes (Given.take? · argument) := by
  unfold Given.take?
  split
  · exact setFlag? _
  · split
    · exact setLimit? _
    · split
      · exact setPath? _
      · exact ⟨nofun, nofun⟩

theorem setPaths? (paths : List String) :
    Passes fun given => paths.foldlM Given.setPath? given := by
  induction paths with
  | nil => exact some
  | cons path rest ih => exact (setPath? path).bind ih

end Passes

/-- Nothing that is given is taken back. -/
theorem flags_of_takeAll? {arguments : List String} (taken : given.takeAll? arguments = some final)
    (known : given.flags flag = true) : final.flags flag = true := by
  fun_induction takeAll? given arguments with
  | case1 given => exact Option.some.inj taken ▸ known
  | case2 given paths => exact (Passes.setPaths? paths).keeps taken known
  | case3 given group name rest next added ih =>
    exact ih taken ((Passes.addChannel? group name).keeps added known)
  | case5 given limit rest next set ih =>
    exact ih taken ((Passes.setLimit? limit).keeps set known)
  | case7 given argument rest _ _ _ next understood ih =>
    exact ih taken ((Passes.take? argument).keeps understood known)
  | case4 | case6 | case8 => cases taken

/-- Arguments that are accepted without a flag are accepted after it. -/
theorem takeAll?_grant {arguments : List String} (taken : given.takeAll? arguments = some final)
    (missing : final.flags flag = false) :
    (given.grant flag).takeAll? arguments = some (final.grant flag) := by
  -- On the way there the flag is not given either.
  have before : ∀ {next : Given} {rest : List String}, next.takeAll? rest = some final →
      next.flags flag = false := by
    intro next rest later
    rw [← Bool.not_eq_true] at missing ⊢
    exact fun known => missing (flags_of_takeAll? later known)
  fun_induction takeAll? given arguments with
  | case1 given => exact Option.some.inj taken ▸ rfl
  | case2 given paths => exact (Passes.setPaths? paths).grants taken missing
  | case3 given group name rest next added ih =>
    rw [takeAll?, (Passes.addChannel? group name).grants added (before taken)]
    exact ih taken
  | case5 given limit rest next set ih =>
    rw [takeAll?, (Passes.setLimit? limit).grants set (before taken)]
    exact ih taken
  | case7 given argument rest notPath notChannel notLimit next understood ih =>
    rw [takeAll?, (Passes.take? argument).grants understood (before taken)]
    · exact ih taken
    · exact notPath
    · exact notChannel
    · exact notLimit
  | case4 | case6 | case8 => cases taken

end Given

theorem parse?_eq_some {arguments : List String} {options : Options} :
    parse? arguments = some options ↔ ∃ given path,
      Given.nothing.takeAll? arguments = some given ∧ given.path? = some path ∧
        given.toOptions path = options := by
  rw [parse?]
  cases Given.nothing.takeAll? arguments with
  | none => simp
  | some given => simp

/-- A flag in front of arguments that are accepted without it changes nothing else. -/
theorem parse?_grant {arguments : List String} {given : Given} {path : String} {flag : Flag}
    (taken : Given.nothing.takeAll? arguments = some given) (named : given.path? = some path)
    (missing : given.flags flag = false) {argument : String}
    (stands : Given.nothing.takeAll? (argument :: arguments) =
      (Given.nothing.grant flag).takeAll? arguments) :
    parse? (argument :: arguments) = some ((given.grant flag).toOptions path) :=
  parse?_eq_some.2 ⟨_, path, stands.trans (Given.takeAll?_grant taken missing), named, rfl⟩

theorem parse?_mmap {arguments : List String} {options : Options}
    (accepted : parse? arguments = some options) (unmapped : options.mapped = false) :
    parse? ("--mmap" :: arguments) = some { options with mapped := true } := by
  obtain ⟨given, path, taken, named, rfl⟩ := parse?_eq_some.1 accepted
  exact parse?_grant taken named unmapped rfl

theorem parse?_recover {arguments : List String} {options : Options}
    (accepted : parse? arguments = some options) (strict : options.recover = false) :
    parse? ("--recover" :: arguments) = some { options with recover := true } := by
  obtain ⟨given, path, taken, named, rfl⟩ := parse?_eq_some.1 accepted
  exact parse?_grant taken named strict rfl

/-- No flag, limit or path is given twice, and no value starts with a dash. -/
example : parse? ["--mmap", "--mmap", "a"] = none ∧
    parse? ["--limit=1", "--limit", "2", "a"] = none ∧ parse? ["a", "b"] = none ∧
    parse? ["--channel", "g", "--json", "a"] = none := by decide +kernel

end Tdms.Options
