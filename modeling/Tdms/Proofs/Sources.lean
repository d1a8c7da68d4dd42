import Mathlib
import Tdms.Proofs.Safety

/-!
However the bytes of a file are reached, they are the same file.

Files that are read by position, mapped files and bytes in memory differ in what
they say to a read that ends behind the last byte, and in how they are called.
Inside they all show their bytes, and nothing else is ever asked for.
-/

namespace Tdms

variable {source : Source} {content : ByteArray}

/-! ## Reads inside -/

theorem grants_mapped (path : String) (content : ByteArray) :
    (Source.mapped path content).Grants content :=
  ⟨rfl, fun _ _ inside => if_pos inside⟩

/-- A buffered file finds a window inside it full. -/
theorem grants_buffered (path : String) (content : ByteArray) :
    (Source.buffered path content).Grants content :=
  ⟨rfl, fun _ _ inside => if_pos (size_window inside)⟩

/-- However a file is reached, its source shows its bytes. -/
theorem grants_of_source {folder : Folder} {path : String}
    (found : folder path = .ok (.file content)) (access : Access) :
    ∃ source, folder.source path access = .ok source ∧ source.Grants content := by
  unfold Folder.source
  rw [found]
  cases access with
  | buffered => exact ⟨_, rfl, grants_buffered path content⟩
  | mapped => exact ⟨_, rfl, grants_mapped path content⟩
  | inMemory => exact ⟨_, rfl, grants_ofBytes content⟩

/-- To a read inside, a source that grants it says what bytes in memory say. -/
theorem answer_eq_ofBytes (grants : source.Grants content) {request : Request}
    (inside : request.Inside content.size) :
    request.answer source = request.answer (.ofBytes content) := by
  rw [inside.answer_eq grants, inside.answer_eq (grants_ofBytes content)]

/-! ## The same catalogue, the same samples -/

theorem Catalogue.build_eq_ofBytes (grants : source.Grants content) (recover : Bool) :
    build source recover = build (.ofBytes content) recover := by
  have asked := Catalogue.run_ask (.ofBytes content) recover
  rw [← Catalogue.run_ask source recover, grants.length_eq, ← asked]
  exact (Catalogue.ask_asksOnly content.size recover).run_congr
    fun request inside => answer_eq_ofBytes grants inside

theorem Channel.read_eq_ofBytes {channel : Channel} (grants : source.Grants content)
    (only : channel.ask.AsksOnly (Request.Inside content.size)) :
    channel.read source = channel.read (.ofBytes content) := by
  rw [← channel.run_ask, ← channel.run_ask]
  exact only.run_congr fun request inside => answer_eq_ofBytes grants inside

/-- All that an open file answers with: its catalogue, where it is truncated, and the samples of
every channel. -/
def File.answers (file : File) :
    Catalogue × Option Nat × ((owner name : String) → Except Error Samples) :=
  (file.catalogue, file.truncatedAt, file.readChannel)

/-- A source that grants all reads inside it is opened as its bytes are, and answers alike. -/
theorem File.answers_ofSource (grants : source.Grants content) (recover : Bool) :
    (File.ofSource source recover).map File.answers =
      (File.ofBytes content recover).map File.answers := by
  rw [File.ofBytes, File.ofSource, File.ofSource, Catalogue.build_eq_ofBytes grants]
  cases built : Catalogue.build (.ofBytes content) recover with
  | error error => rfl
  | ok pair =>
    rcases pair with ⟨catalogue, truncatedAt⟩
    have tracks := Catalogue.Tracks.of_build built
    have inside := endOffset_le_of_scan content
    have read : ∀ owner name,
        File.readChannel ⟨source, catalogue, truncatedAt⟩ owner name =
          File.readChannel ⟨.ofBytes content, catalogue, truncatedAt⟩ owner name := by
      intro owner name
      rw [File.readChannel, File.readChannel, File.channel, File.channel]
      cases looked : catalogue.channel owner name with
      | error error => rfl
      | ok channel =>
        have here := Catalogue.channelAt_of_channel? (Catalogue.channel?_of_channel looked)
        exact Channel.read_eq_ofBytes grants (here ▸ tracks.ask_asksOnly inside owner name)
    refine congrArg Except.ok (Prod.ext rfl (Prod.ext rfl ?_))
    funext owner name
    exact read owner name

/-- A file opens in the same way whether it is read by position, mapped or taken into memory, and
as the same bytes do: with the same catalogue and the same place where it is truncated, or with the
same error. Every channel of it then gives the same samples or the same error. -/
theorem File.answers_ofFolder {folder : Folder} {path : String} {content : ByteArray}
    (found : folder path = .ok (.file content)) (access : Access) (recover : Bool) :
    (File.ofFolder folder path access recover).map File.answers =
      (File.ofBytes content recover).map File.answers := by
  rcases grants_of_source found access with ⟨source, reached, grants⟩
  rw [File.ofFolder, reached]
  exact File.answers_ofSource grants recover

/-- A folder with nothing but `sampleFile` in it. -/
def sampleFolder : Folder := fun path =>
  if path = "sample.tdms" then .ok (.file sampleFile) else .error .missing

theorem File.answers_sample :
    sampleFolder "sample.tdms" = .ok (.file sampleFile) ∧
      (File.ofFolder sampleFolder "sample.tdms" .buffered true).map File.answers =
        (File.ofBytes sampleFile true).map File.answers ∧
      (File.ofFolder sampleFolder "sample.tdms" .mapped true).map File.answers =
        (File.ofBytes sampleFile true).map File.answers := by
  have found : sampleFolder "sample.tdms" = .ok (.file sampleFile) := if_pos rfl
  exact ⟨found, File.answers_ofFolder found .buffered true,
    File.answers_ofFolder found .mapped true⟩

end Tdms
