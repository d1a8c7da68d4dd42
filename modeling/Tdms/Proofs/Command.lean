import Mathlib
import Tdms.Command
import Tdms.Proofs.Options
import Tdms.Proofs.Recovery
import Tdms.Proofs.Sources
import Tdms.Proofs.Table

/-!
What a run of the command leaves behind.

A run fails for one of four reasons, which `Fails` names, and prints nothing on
the first text then. `Settles` says what both texts hold of a run, whether it
fails or not. Two runs that differ in how the file is reached, or in whether it
may be recovered, are compared by what the open file answers; only where the path
leads to a folder do they open something else. `runArguments_settles` says all
this of the arguments that are accepted.
-/

namespace Tdms

open Export (Column)

/-! ## Opening -/

/-- A file that opens strictly opens in the same way if it may be recovered. -/
theorem File.ofFolder_recover {folder : Folder} {path : String} {access : Access} {file : File}
    (opens : File.ofFolder folder path access false = .ok file) (recover : Bool) :
    File.ofFolder folder path access recover = .ok file := by
  unfold File.ofFolder at opens ⊢
  cases reached : folder.source path access with
  | error error =>
    rw [reached] at opens
    cases opens
  | ok source =>
    rw [reached] at opens
    unfold File.ofSource at opens ⊢
    dsimp only at opens ⊢
    cases built : Catalogue.build source false with
    | error error =>
      rw [built] at opens
      cases opens
    | ok pair =>
      rcases pair with ⟨catalogue, stop⟩
      rcases Catalogue.error?_of_strict built with ⟨whole, rfl⟩
      rw [built] at opens
      rw [Catalogue.build_of_taken (Catalogue.foldlM_of_build built), whole]
      exact opens

/-- A folder that is read in the place of a file has no segments if no length is reported of it, is
truncated if less than a lead-in is, and otherwise fails at its first read. -/
theorem File.ofSource_folder (path : String) (length : Nat) (recover : Bool) :
    File.ofSource (.folder path length) recover =
      if length = 0 then .ok ⟨.folder path length, .empty, none⟩
      else if length < leadInLength then
        if recover then .ok ⟨.folder path length, .empty, some 0⟩
        else .error (.truncated 0 leadInLength length)
      else .error (.unreadable (.leadIn 0) .folder) := by
  have reported : (Source.folder path length).length = length := rfl
  unfold File.ofSource Catalogue.build scan
  by_cases unsized : length = 0
  · have ended : Segment.read (.folder path length) 0 0 = .ok none := by
      rw [Segment.read, Segment.readLeadIn, if_pos (by omega)]
    rw [scanFrom_of_none ended, if_pos unsized]
    rfl
  · rw [if_neg unsized]
    by_cases short : length < leadInLength
    · have cut : Segment.read (.folder path length) 0 0 =
          .error (.truncated 0 leadInLength length) := by
        rw [Segment.read, Segment.readLeadIn, if_neg (by omega), if_pos (by omega), Nat.zero_add]
        rfl
      rw [scanFrom_of_error cut, if_pos short]
      cases recover with
      | false => rfl
      | true => rfl
    · have unread : Segment.read (.folder path length) 0 0 =
          .error (.unreadable (.leadIn 0) .folder) := by
        rw [Segment.read, Segment.readLeadIn, if_neg (by omega), if_neg (by omega)]
        rfl
      rw [scanFrom_of_error unread, if_neg short]
      rfl

namespace Command

/-! ## Runs and what they leave behind -/

/-- The file that a run opens. -/
def opened (folder : Folder) (options : Options) : Except Error File :=
  File.ofFolder folder options.path (if options.mapped then .mapped else .buffered)
    options.recover

/-- The reasons for which a run fails: the file is not opened, or the one channel that is asked for
is not found, not read or not made into a column. -/
inductive Fails (folder : Folder) (options : Options) : Failure → Prop
  | opening {error : Error} : opened folder options = .error error →
    Fails folder options (.opening options.path error)
  | lookup {file : File} {group name : String} {error : Error} :
    opened folder options = .ok file → options.channels = [(group, name)] →
    file.channel group name = .error error → Fails folder options (.channel group name error)
  | reading {file : File} {group name : String} {channel : Channel} {error : Error} :
    opened folder options = .ok file → options.channels = [(group, name)] →
    file.channel group name = .ok channel → channel.read file.source = .error error →
    Fails folder options (.channel group name error)
  | converting {file : File} {group name : String} {samples : Samples} {error : Error} :
    opened folder options = .ok file → options.channels = [(group, name)] →
    file.readChannel group name = .ok samples → Column.ofSamples samples = .error error →
    Fails folder options (.channel group name error)

/-- The file opens without the segment at `offset`, which is truncated. -/
def Recovers (folder : Folder) (options : Options) (offset : Nat) : Prop :=
  ∃ file, opened folder options = .ok file ∧ file.truncatedAt = some offset

/-- The second text of a run: a warning exactly if the file was truncated, then an error exactly if
the run fails. -/
structure Reports (folder : Folder) (options : Options) (warning report : String) : Prop where
  warned : ∀ offset, Recovers folder options offset →
    warning = s!"warning: {options.path} is truncated; ignoring data from byte {offset} on\n"
  unwarned : (¬ ∃ offset, Recovers folder options offset) → warning = ""
  failed : ∀ failure, Fails folder options failure → report = failure.message ++ "\n"
  succeeded : (¬ ∃ failure, Fails folder options failure) → report = ""

/-- The first text of a run for one channel: a table that shows the first samples in order, as many
as the limit allows, and how many more there are if it allows too few. -/
def Prints (folder : Folder) (options : Options) (group name text : String) : Prop :=
  ∃ file samples cells table, opened folder options = .ok file ∧
    file.readChannel group name = .ok samples ∧
    (samples.scalars.take (min options.limit samples.length)).map Table.valueText? =
      cells.map some ∧
    Table.Shows name cells table ∧
    text = table ++ "\n" ++
      if options.limit < samples.length then
        s!"... {samples.length - options.limit} more values\n"
      else ""

/-- The first text of a run for no channel or for several: the listing of the file. -/
def Lists (folder : Folder) (options : Options) (text : String) : Prop :=
  ∃ file, opened folder options = .ok file ∧
    text =
      if options.json then
        (Listing.ofFile options.path file options.properties).toJson.pretty ++ "\n"
      else (Listing.ofFile options.path file options.properties).text

/-- What a run leaves behind, by what it is asked to do. -/
structure Settles (folder : Folder) (options : Options) (outcome : Outcome) : Prop where
  exitCode_eq : outcome.exitCode = 0 ∨ outcome.exitCode = 1
  exitCode_iff : outcome.exitCode = 1 ↔ ∃ failure, Fails folder options failure
  silent : outcome.exitCode = 1 → outcome.stdout = ""
  reported : ∃ warning report, outcome.stderr = warning ++ report ∧
    Reports folder options warning report
  printed : outcome.exitCode = 0 → ∀ group name, options.channels = [(group, name)] →
    Prints folder options group name outcome.stdout
  listed : outcome.exitCode = 0 → options.channels.length ≠ 1 →
    Lists folder options outcome.stdout

section

variable {folder : Folder} {options : Options} {file : File}

/-- After the file is open, a run fails exactly if there is no output. -/
theorem fails_iff (found : opened folder options = .ok file) {failure : Failure} :
    Fails folder options failure ↔ output options file = .error failure := by
  constructor
  · intro fails
    cases fails with
    | opening refused => cases found.symm.trans refused
    | lookup same single absent =>
      cases found.symm.trans same
      simp [output, single, File.readChannel, absent]
    | reading same single looked unread =>
      cases found.symm.trans same
      simp [output, single, File.readChannel, looked, unread]
    | converting same single taken broken =>
      cases found.symm.trans same
      simp [output, single, taken, broken]
  · intro refused
    unfold output at refused
    split at refused
    · rename_i group name single
      split at refused
      · rename_i error unread
        cases refused
        cases looked : file.channel group name with
        | error other =>
          rw [File.readChannel, looked] at unread
          cases unread
          exact .lookup found single looked
        | ok channel =>
          rw [File.readChannel, looked] at unread
          exact .reading found single looked unread
      · rename_i samples taken
        split at refused
        · rename_i error broken
          cases refused
          exact .converting found single taken broken
        · cases refused
    · cases refused

theorem warned (found : opened folder options = .ok file) :
    (∀ offset, Recovers folder options offset →
      warning options file =
        s!"warning: {options.path} is truncated; ignoring data from byte {offset} on\n") ∧
      ((¬ ∃ offset, Recovers folder options offset) → warning options file = "") := by
  constructor
  · rintro offset ⟨same, opens, truncated⟩
    cases found.symm.trans opens
    rw [warning, truncated]
  · intro whole
    cases truncated : file.truncatedAt with
    | none => rw [warning, truncated]
    | some offset => exact absurd ⟨offset, file, found, truncated⟩ whole

theorem prints (found : opened folder options = .ok file) {group name text : String}
    (single : options.channels = [(group, name)]) (printed : output options file = .ok text) :
    Prints folder options group name text := by
  rw [output, single] at printed
  dsimp only at printed
  split at printed
  · cases printed
  · rename_i samples taken
    split at printed
    · cases printed
    · rename_i column made
      injection printed with printed
      have shown := cells_of_ofSamples made
      have length : column.length = samples.length := by
        have counted := congrArg List.length shown
        rw [List.length_map, List.length_map, length_scalars] at counted
        exact counted.symm
      refine ⟨file, samples, (column.elements.take options.limit).map
        (Table.cellText column.type), _, found, taken, ?_, Table.shows_render .., ?_⟩
      · rw [← length_scalars, ← List.take_eq_take_min, List.map_take, shown, List.map_map,
          ← List.map_take]
        rfl
      · rw [← printed, columnText, length]
        congr 1
        by_cases few : options.limit < samples.length
        · rw [if_pos few, if_neg (by omega)]
        · rw [if_neg few, if_pos (by omega)]

theorem lists (found : opened folder options = .ok file) {text : String}
    (notSingle : options.channels.length ≠ 1) (printed : output options file = .ok text) :
    Lists folder options text := by
  unfold output at printed
  split at printed
  · rename_i group name single
    rw [single] at notSingle
    exact absurd rfl notSingle
  · cases printed
    exact ⟨file, found, rfl⟩

/-! ## One run -/

theorem run_of_unopened {error : Error} (refused : opened folder options = .error error) :
    run folder options = ⟨1, "", (Failure.opening options.path error).message ++ "\n"⟩ := by
  unfold opened at refused
  simp only [run, refused]

theorem run_of_refused (found : opened folder options = .ok file) {failure : Failure}
    (refused : output options file = .error failure) :
    run folder options = ⟨1, "", warning options file ++ failure.message ++ "\n"⟩ := by
  unfold opened at found
  simp only [run, found, refused]

theorem run_of_printed (found : opened folder options = .ok file) {text : String}
    (printed : output options file = .ok text) :
    run folder options = ⟨0, text, warning options file⟩ := by
  unfold opened at found
  simp only [run, found, printed]

/-- Every run leaves behind what its options ask for. -/
theorem settles (folder : Folder) (options : Options) :
    Settles folder options (run folder options) := by
  cases found : opened folder options with
  | error error =>
    have fails : Fails folder options (.opening options.path error) := .opening found
    rw [run_of_unopened found]
    refine ⟨.inr rfl, ⟨fun _ => ⟨_, fails⟩, fun _ => rfl⟩, fun _ => rfl,
      ⟨"", _, (String.empty_append).symm, ?_, fun _ => rfl, ?_, fun none => ?_⟩, nofun, nofun⟩
    · rintro offset ⟨file, opens, -⟩
      cases found.symm.trans opens
    · intro failure other
      cases other with
      | opening refused =>
        cases found.symm.trans refused
        rfl
      | lookup opens | reading opens | converting opens => cases found.symm.trans opens
    · exact absurd ⟨_, fails⟩ none
  | ok file =>
    rcases warned found with ⟨truncated, whole⟩
    cases printed : output options file with
    | error failure =>
      have fails := (fails_iff found).2 printed
      rw [run_of_refused found printed]
      refine ⟨.inr rfl, ⟨fun _ => ⟨_, fails⟩, fun _ => rfl⟩, fun _ => rfl,
        ⟨_, _, String.append_assoc .., truncated, whole, ?_, fun none => ?_⟩, nofun, nofun⟩
      · intro other also
        cases printed.symm.trans ((fails_iff found).1 also)
        rfl
      · exact absurd ⟨_, fails⟩ none
    | ok text =>
      have passes : ¬ ∃ failure, Fails folder options failure := by
        rintro ⟨failure, fails⟩
        cases printed.symm.trans ((fails_iff found).1 fails)
      rw [run_of_printed found printed]
      refine ⟨.inl rfl, ⟨nofun, fun fails => absurd fails passes⟩, nofun,
        ⟨_, "", String.append_empty.symm, truncated, whole, fun failure fails => ?_, fun _ => rfl⟩,
        fun _ group name single => prints found single printed,
        fun _ notSingle => lists found notSingle printed⟩
      exact absurd ⟨failure, fails⟩ passes

/-! ## Two runs -/

/-- What is printed of an open file depends on nothing but what the file answers. -/
theorem output_congr (options : Options) {other : File} (same : file.answers = other.answers) :
    output options file = output options other ∧ warning options file = warning options other := by
  rcases file with ⟨source, catalogue, truncatedAt⟩
  rcases other with ⟨origin, listed, stop⟩
  injection same with catalogues rest
  injection rest with stops reads
  dsimp only at catalogues stops
  subst catalogues stops
  refine ⟨?_, rfl⟩
  unfold output
  split
  · rw [congrFun (congrFun reads _) _]
  · rfl

/-- Two runs of which the same is asked of an open file leave the same behind if the files that they
open answer alike. -/
theorem run_congr {others : Options} (path_eq : others.path = options.path)
    (asked : ∀ file, output others file = output options file ∧
      warning others file = warning options file)
    (alike : (opened folder others).map File.answers = (opened folder options).map File.answers) :
    run folder others = run folder options := by
  cases first : opened folder others with
  | error error =>
    rw [first] at alike
    have second := Outcome.map_eq_error.1 alike.symm
    rw [run_of_unopened first, run_of_unopened second, path_eq]
  | ok file =>
    rw [first] at alike
    rcases Outcome.map_eq_ok.1 alike.symm with ⟨other, second, same⟩
    rcases asked file with ⟨output_eq, warning_eq⟩
    rcases output_congr options same with ⟨sameOutput, sameWarning⟩
    cases printed : output others file with
    | error failure =>
      have also := (sameOutput.trans output_eq.symm).trans printed
      rw [run_of_refused first printed, run_of_refused second also, warning_eq, sameWarning]
    | ok text =>
      have also := (sameOutput.trans output_eq.symm).trans printed
      rw [run_of_printed first printed, run_of_printed second also, warning_eq, sameWarning]

/-- A file is mapped as it is read by position, and what is not there is refused alike. -/
theorem run_mapped (notFolder : ∀ length, folder options.path ≠ .ok (.folder length))
    (mapped : Bool) : run folder { options with mapped } = run folder options := by
  refine run_congr rfl (fun file => ⟨rfl, rfl⟩) ?_
  unfold opened
  cases found : folder options.path with
  | error fault => simp only [File.ofFolder, Folder.source, found]
  | ok target =>
    cases target with
    | folder length => exact absurd found (notFolder length)
    | file content =>
      rcases grants_of_source found (if mapped then .mapped else .buffered) with
        ⟨source, reached, grants⟩
      rcases grants_of_source found (if options.mapped then .mapped else .buffered) with
        ⟨other, arrived, others⟩
      simp only [File.ofFolder, reached, arrived]
      rw [File.answers_ofSource grants, File.answers_ofSource others]

/-- What a run opens where its path leads to a folder of which a length is reported. A folder cannot
be mapped. To be read by position it can be opened: it has no segments if no length is reported, is
truncated if less than a lead-in is, and otherwise fails at its first read. -/
def openedFolder (options : Options) (length : Nat) : Except Error File :=
  let file : File := ⟨.folder options.path length, .empty, none⟩
  if options.mapped then .error (.unreadable (.opening options.path) .unmappable)
  else if length = 0 then .ok file
  else if length < leadInLength then
    if options.recover then .ok { file with truncatedAt := some 0 }
    else .error (.truncated 0 leadInLength length)
  else .error (.unreadable (.leadIn 0) .folder)

theorem opened_of_folder {length : Nat} (target : folder options.path = .ok (.folder length)) :
    opened folder options = openedFolder options length := by
  unfold opened openedFolder File.ofFolder Folder.source
  rw [target]
  cases options.mapped with
  | true => rfl
  | false => exact File.ofSource_folder options.path length options.recover

/-- A folder of which no length is reported is listed as a file without segments, unless it is to be
mapped. -/
example :
    (runArguments (fun _ => .ok (.folder 0)) ["/proc"]).map Outcome.exitCode = some 0 ∧
      (runArguments (fun _ => .ok (.folder 0)) ["--mmap", "/proc"]).map Outcome.exitCode =
        some 1 := by
  decide +kernel

/-- A run of a file that opens strictly is the same if the file may be recovered. -/
theorem run_recover (opens : opened folder { options with recover := false } = .ok file)
    (recover : Bool) : run folder { options with recover } = run folder options := by
  have same : ∀ recover, opened folder { options with recover } = .ok file :=
    File.ofFolder_recover opens
  refine run_congr rfl (fun file => ⟨rfl, rfl⟩) ?_
  rw [same recover]
  exact congrArg (Except.map File.answers) (same options.recover).symm

/-! ## Arguments -/

/-- A run with accepted arguments leaves behind what its options ask for: it fails exactly if the
file does not open or the one channel that is asked for cannot be shown. Wherever among the
arguments they are asked for, to map the file changes nothing unless the path leads to a folder, and
leave to recover it changes nothing if it opens strictly. Of a folder it is said what opens, mapped
or read by position. -/
theorem runArguments_settles {arguments : List String}
    (accepted : Options.parse? arguments = some options) :
    (∃ outcome, runArguments folder arguments = some outcome ∧ Settles folder options outcome) ∧
      (options.mapped = false →
        Options.parse? ("--mmap" :: arguments) = some { options with mapped := true }) ∧
      (∀ others mapped, Options.parse? others = some { options with mapped } →
        (∀ length, folder options.path ≠ .ok (.folder length)) →
          runArguments folder others = runArguments folder arguments) ∧
      (∀ length, folder options.path = .ok (.folder length) →
        opened folder options = openedFolder options length) ∧
      (options.recover = false →
        Options.parse? ("--recover" :: arguments) = some { options with recover := true }) ∧
      ∀ file, opened folder { options with recover := false } = .ok file →
        ∀ others recover, Options.parse? others = some { options with recover } →
          runArguments folder others = runArguments folder arguments := by
  have runs : ∀ {given : List String} {asked : Options}, Options.parse? given = some asked →
      runArguments folder given = some (run folder asked) := by
    intro given asked known
    rw [runArguments, known, Option.map_some]
  refine ⟨⟨_, runs accepted, settles folder options⟩, Options.parse?_mmap accepted, ?_,
    fun length => opened_of_folder, Options.parse?_recover accepted, ?_⟩
  · intro others mapped known notFolder
    rw [runs known, runs accepted, run_mapped notFolder]
  · intro file opens others recover known
    rw [runs known, runs accepted, run_recover opens]

end

/-- Arguments that ask for the first two of four numbers. -/
def sampleArguments : List String :=
  ["--channel", "g", "a", "--limit", "2", "sample.tdms"]

theorem runArguments_settles_sample :
    ∃ options outcome, Options.parse? sampleArguments = some options ∧
      options.channels = [("g", "a")] ∧
      runArguments sampleFolder sampleArguments = some outcome ∧
      Settles sampleFolder options outcome ∧
      runArguments sampleFolder ("--mmap" :: sampleArguments) = some outcome ∧
      (∃ file, opened sampleFolder { options with recover := false } = .ok file) ∧
      runArguments sampleFolder ("--recover" :: sampleArguments) = some outcome := by
  have accepted : Options.parse? sampleArguments =
      some ⟨"sample.tdms", false, false, false, [("g", "a")], 2, false⟩ := by decide +kernel
  rcases @runArguments_settles sampleFolder _ _ accepted with
    ⟨⟨outcome, runs, settled⟩, mapped, alike, -, recovered, same⟩
  have opens : (File.ofFolder sampleFolder "sample.tdms" .buffered false).toOption.isSome = true :=
    by decide +kernel
  rcases Outcome.exists_of_isSome opens with ⟨file, found⟩
  have target : sampleFolder "sample.tdms" = .ok (.file sampleFile) := if_pos rfl
  have notFolder : ∀ length, sampleFolder "sample.tdms" ≠ .ok (.folder length) := by
    intro length
    rw [target]
    nofun
  exact ⟨_, outcome, accepted, rfl, runs, settled,
    (alike _ true (mapped rfl) notFolder).trans runs, ⟨file, found⟩,
    (same file found _ true (recovered rfl)).trans runs⟩

/-- A folder with nothing but an empty file in it. -/
def emptyFileFolder : Folder := fun path =>
  if path = "input.tdms" then .ok (.file ⟨#[]⟩) else .error .missing

/-- A channel that is asked for twice is not looked for at all: the run succeeds and lists the file,
although the same channel asked for once is missed. -/
theorem runArguments_doubled :
    runArguments emptyFileFolder ["--channel", "g", "x", "input.tdms"] =
        some ⟨1, "", "Failed to read channel 'g/x': No group named 'g'\n"⟩ ∧
      runArguments emptyFileFolder
          ["--channel", "g", "x", "--channel", "g", "x", "input.tdms"] =
        some ⟨0, "input.tdms (0 segments)\n", ""⟩ := by
  decide +kernel

end Command

end Tdms
