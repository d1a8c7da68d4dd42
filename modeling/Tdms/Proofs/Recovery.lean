import Mathlib
import Tdms.Proofs.Catalogue.Cut
import Tdms.Proofs.Reading

/-!
Files that end early.

Recovery is strict opening of what can be read: `build_recovers` relates the two
for all bytes. `recovers_window` says what recovery makes of the first bytes of
a file that opens strictly, wherever it is cut.
-/

namespace Tdms

variable {content : ByteArray}

namespace Catalogue

variable {catalogue : Catalogue} {source : Source}

/-! ## Building -/

theorem build_of_refused {error : Error}
    (refused : (scan source).segments.foldlM apply empty = .error error) (recover : Bool) :
    build source recover = .error error := by
  rw [build, refused]

theorem build_of_taken (taken : (scan source).segments.foldlM apply empty = .ok catalogue)
    (recover : Bool) :
    build source recover =
      match (scan source).error? with
      | none => .ok (catalogue, none)
      | some (.truncated offset required available) =>
        if recover then .ok (catalogue, some offset)
        else .error (.truncated offset required available)
      | some error => .error error := by
  rewrite [build, taken]
  rfl

/-- A strict build leaves nothing out. -/
theorem error?_of_strict {stop : Option Nat} (built : build source false = .ok (catalogue, stop)) :
    (scan source).error? = none ∧ stop = none := by
  rw [build_of_taken (foldlM_of_build built)] at built
  split at built
  · rename_i none
    cases built
    exact ⟨none, rfl⟩
  · cases built
  · cases built

theorem recover_eq_some_iff {offset : Nat} :
    build source true = .ok (catalogue, some offset) ↔
      (scan source).segments.foldlM apply empty = .ok catalogue ∧
        ∃ required available,
          (scan source).error? = some (.truncated offset required available) := by
  constructor
  · intro built
    have taken := foldlM_of_build built
    refine ⟨taken, ?_⟩
    rw [build_of_taken taken] at built
    split at built
    · cases built
    · rename_i place required available found
      obtain ⟨-, rfl⟩ := by simpa using built
      exact ⟨required, available, found⟩
    · cases built
  · rintro ⟨taken, required, available, found⟩
    rw [build_of_taken taken, found]
    rfl

/-- Building strictly finds a truncated segment exactly if recovery leaves one out. -/
theorem strict_truncated_iff {offset : Nat} :
    (∃ required available, build source false = .error (.truncated offset required available)) ↔
      ∃ catalogue, build source true = .ok (catalogue, some offset) := by
  simp only [recover_eq_some_iff]
  cases folded : (scan source).segments.foldlM apply empty with
  | error error =>
    have never : ∀ required available, error ≠ .truncated offset required available := by
      rintro required available rfl
      exact Outcome.FailsOnly.foldlM apply_fails _ _ _ folded
    rw [build_of_refused folded]
    simpa using never
  | ok catalogue =>
    rw [build_of_taken folded]
    cases found : (scan source).error? with
    | none => simp
    | some error => cases error <;> simp

/-- A scan of all bytes before a truncated segment finds the same segments and ends with them. -/
theorem scan_window {offset required available : Nat}
    (found : (scan (.ofBytes content)).error? = some (.truncated offset required available)) :
    (scan (.ofBytes (window content 0 offset))).segments = (scan (.ofBytes content)).segments ∧
      (scan (.ofBytes (window content 0 offset))).error? = none := by
  obtain ⟨-, inside, stop, before⟩ := scanFrom_of_truncated found
  have short : offset ≤ content.size := inside.le
  have size : (window content 0 offset).size = offset := size_window (by omega)
  have whole := window_append_window short
  have cut := @scanFrom_cut (window content 0 offset)
    (window content offset (content.size - offset)) 0 0 (Nat.zero_le _)
  rw [size, whole] at cut
  exact (cut stop.ge).whole before

/-- Whatever the bytes, a strict build finds a segment truncated exactly if recovery leaves it out.
Recovery then answers as a strict build of the bytes before that segment, and in all other cases as
a strict build of all bytes. -/
theorem build_recovers (content : ByteArray) :
    (∀ offset, (∃ required available,
        build (.ofBytes content) false = .error (.truncated offset required available)) ↔
      ∃ catalogue, build (.ofBytes content) true = .ok (catalogue, some offset)) ∧
    (∀ offset catalogue, build (.ofBytes content) true = .ok (catalogue, some offset) →
      offset ≤ content.size ∧
        build (.ofBytes (window content 0 offset)) false = .ok (catalogue, none)) ∧
    ((∀ offset required available,
        build (.ofBytes content) false ≠ .error (.truncated offset required available)) →
      build (.ofBytes content) true = build (.ofBytes content) false ∧
        ∀ catalogue stop, build (.ofBytes content) true = .ok (catalogue, stop) → stop = none) := by
  refine ⟨fun offset => strict_truncated_iff, fun offset catalogue built => ?_, fun never => ?_⟩
  · obtain ⟨taken, required, available, found⟩ := recover_eq_some_iff.1 built
    obtain ⟨segments, ended⟩ := scan_window found
    refine ⟨(scanFrom_of_truncated found).2.1.le, ?_⟩
    rw [← segments] at taken
    rw [build_of_taken taken, ended]
  · have same : build (.ofBytes content) true = build (.ofBytes content) false := by
      cases folded : (scan (.ofBytes content)).segments.foldlM apply empty with
      | error error => rw [build_of_refused folded, build_of_refused folded]
      | ok catalogue =>
        have strict := build_of_taken folded false
        rw [build_of_taken folded true]
        rw [strict] at never ⊢
        cases found : (scan (.ofBytes content)).error? with
        | none => rfl
        | some error =>
          rw [found] at never
          cases error with
          | truncated offset required available =>
            exact absurd rfl (never offset required available)
          | _ => rfl
    refine ⟨same, fun catalogue stop built => ?_⟩
    rw [same] at built
    exact (error?_of_strict built).2

theorem build_recovers_sample :
    ∃ catalogue, build (.ofBytes (window sampleFile 0 140)) true = .ok (catalogue, some 126) ∧
      build (.ofBytes (window (window sampleFile 0 140) 0 126)) false = .ok (catalogue, none) := by
  have answer : (build (.ofBytes (window sampleFile 0 140)) true).toOption.map Prod.snd =
      some (some 126) := by decide +kernel
  obtain ⟨⟨catalogue, stop⟩, built, rfl⟩ := Option.map_eq_some_iff.1 answer
  have found := Outcome.eq_ok_of_toOption built
  exact ⟨catalogue, found, ((build_recovers _).2.1 126 catalogue found).2⟩

/-- Recovery opens what is left of segments that are taken up. -/
theorem build_of_cut {limit : Nat} {segments : List Segment}
    (found : Scan.Cut limit segments (scan source))
    (taken : (scan source).segments.foldlM apply empty = .ok catalogue) :
    ∃ stop, build source true = .ok (catalogue, stop) ∧
      ∀ offset, stop = some offset ↔ ∃ segment ∈ segments,
        segment.offset = offset ∧ offset < limit ∧ limit < segment.reach := by
  simp only [← found.truncated_iff]
  rw [build_of_taken taken]
  rcases found.error?_eq with whole | ⟨offset, required, short⟩
  · rw [whole]
    exact ⟨none, rfl, by simp⟩
  · rw [short]
    exact ⟨some offset, rfl, by simp⟩

end Catalogue

/-! ## Files cut short -/

/-- What recovery makes of the first `limit` bytes of `file`. -/
structure File.CutShort (file : File) (limit : Nat) (cut : File) : Prop where
  /-- The segments are those that reach no farther than the cut, an unfinished one with the raw
  data before it. -/
  segments_eq : (scan cut.source).segments =
    ((scan file.source).segments.filter fun segment => segment.reach ≤ limit).map
      (Segment.cutAt limit)
  indexed : (scan cut.source).segments.foldlM Catalogue.apply .empty = .ok cut.catalogue
  count_eq : cut.catalogue.segmentCount = (scan cut.source).segments.length
  /-- A segment is left out as truncated exactly if the cut goes through its reach. -/
  truncatedAt_iff : ∀ offset, cut.truncatedAt = some offset ↔
    ∃ segment ∈ (scan file.source).segments,
      segment.offset = offset ∧ offset < limit ∧ limit < segment.reach
  groups_prefix : cut.groups <+: file.groups
  channels_prefix : ∀ group ∈ cut.groups, ∃ names others,
    cut.groupChannels group = .ok names ∧ file.groupChannels group = .ok others ∧
      names <+: others
  /-- A channel has the type it has in the file, or none, and its samples lie where the first ones
  lie there, in the order in which they are read. -/
  channel_prefix : ∀ owner name channel, cut.channel owner name = .ok channel →
    ∃ whole, file.channel owner name = .ok whole ∧
      (channel.type = whole.type ∨ channel.type = none) ∧ channel.pieces <+: whole.pieces

/-- The first bytes of a file hold its first segments. -/
theorem scan_cut {limit : Nat} (ended : (scan (.ofBytes content)).error? = none)
    (inside : limit ≤ content.size) :
    Scan.Cut limit (scan (.ofBytes content)).segments
      (scan (.ofBytes (window content 0 limit))) := by
  have size : (window content 0 limit).size = limit := size_window (by omega)
  have found := @scanFrom_cut (window content 0 limit) (window content limit (content.size - limit))
    0 0 (Nat.zero_le _)
  rw [size, window_append_window inside] at found
  exact found (inside.trans (length_le_stop ended))

/-- Wherever a file that opens strictly is cut, recovery opens what is left of it. -/
theorem File.recovers_window {file : File} (opened : File.ofBytes content false = .ok file)
    {limit : Nat} (inside : limit ≤ content.size) :
    ∃ cut, File.ofBytes (window content 0 limit) true = .ok cut ∧ file.CutShort limit cut := by
  obtain ⟨source, built⟩ := File.of_ofBytes opened
  obtain ⟨ended, -⟩ := Catalogue.error?_of_strict built
  have found := scan_cut ended inside
  obtain ⟨catalogue, taken, kept⟩ :=
    Catalogue.foldlM_shortened found.shortened (Catalogue.foldlM_of_build built)
  obtain ⟨stop, rebuilt, stopped⟩ := Catalogue.build_of_cut found taken
  have all := Catalogue.Tracks.of_build built
  have tracks := Catalogue.Tracks.of_build rebuilt
  have records := Walk.records_shortened found.shortened
  have blocks := Walk.blocks_shortened found.shortened .blank
  have groups : catalogue.directory.groups <+: file.catalogue.directory.groups := by
    rw [Catalogue.directory_of_build built, Catalogue.directory_of_build rebuilt]
    exact Directory.groups_prefix records
  have channels : ∀ owner,
      catalogue.directory.channels owner <+: file.catalogue.directory.channels owner := by
    intro owner
    rw [Catalogue.directory_of_build built, Catalogue.directory_of_build rebuilt]
    exact Directory.channels_prefix records owner
  refine ⟨⟨.ofBytes (window content 0 limit), catalogue, stop⟩, ?_, ?_⟩
  · rw [File.ofBytes, File.ofSource, rebuilt]
  · rw [← source] at found stopped
    refine ⟨found.segments_eq, taken, ?_, stopped, ?_, fun group listed => ?_, ?_⟩
    · exact (Catalogue.segmentCount_foldlM taken).trans (Nat.zero_add _)
    · rw [File.groups, File.groups, tracks.named.groups_eq, all.named.groups_eq]
      exact groups
    · rw [File.groups, tracks.named.groups_eq] at listed
      exact ⟨_, _, File.groupChannels_of_mem tracks.named listed,
        File.groupChannels_of_mem all.named (groups.subset listed), channels group⟩
    · intro owner name channel member
      have held := Catalogue.channel?_of_channel member
      have listed := (channels owner).subset (Catalogue.mem_channels_of_channel? held)
      obtain rfl := Catalogue.channelAt_of_channel? held
      refine ⟨_, Catalogue.channel_of_mem listed, ?_,
        tracks.pieces_prefix all blocks (kept owner name)⟩
      cases typed : (catalogue.channelAt owner name).type with
      | none => exact .inr rfl
      | some type => exact .inl (kept owner name type typed).symm

/-- The sample file, cut through the raw data of its unfinished segment. -/
theorem File.recovers_sample :
    ∃ file cut, File.ofBytes sampleFile false = .ok file ∧ 180 ≤ sampleFile.size ∧
      File.ofBytes (window sampleFile 0 180) true = .ok cut ∧ file.CutShort 180 cut := by
  have opens : (File.ofBytes sampleFile false).toOption.isSome = true := by decide +kernel
  have inside : 180 ≤ sampleFile.size := by decide +kernel
  obtain ⟨file, opened⟩ := Outcome.exists_of_isSome opens
  obtain ⟨cut, recovered, short⟩ := File.recovers_window opened inside
  exact ⟨file, cut, opened, inside, recovered, short⟩

end Tdms
