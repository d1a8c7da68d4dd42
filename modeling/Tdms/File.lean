import Tdms.Catalogue.Build
import Tdms.Folder
import Tdms.Samples.Read

/-!
Open files: a source with the catalogue of its segments.
-/

namespace Tdms

/-- An open file. -/
structure File where
  source : Source
  catalogue : Catalogue
  /-- Where the segment starts that was left out as truncated. -/
  truncatedAt : Option Nat
  deriving Inhabited

namespace File

/-- Opens a source. With `recover`, a truncated segment ends the file instead of refusing it. -/
def ofSource (source : Source) (recover : Bool) : Except Error File :=
  match Catalogue.build source recover with
  | .error error => .error error
  | .ok (catalogue, truncatedAt) => .ok { source, catalogue, truncatedAt }

/-- Opens the file at `path` in a folder. -/
def ofFolder (folder : Folder) (path : String) (access : Access) (recover : Bool) :
    Except Error File :=
  match folder.source path access with
  | .error error => .error error
  | .ok source => ofSource source recover

/-- Opens bytes held in memory. -/
def ofBytes (content : ByteArray) (recover : Bool) : Except Error File :=
  ofSource (.ofBytes content) recover

/-- Whether a truncated segment was left out. -/
def isTruncated (file : File) : Bool :=
  file.truncatedAt.isSome

/-- Names of the groups, in the order in which the file names them. -/
def groups (file : File) : List String :=
  file.catalogue.groups.values.map (·.name)

/-- Names of the channels of a group, in the order in which the file names them. -/
def groupChannels (file : File) (group : String) : Except Error (List String) :=
  (file.catalogue.group group).map fun group => group.channels.values.map (·.name)

/-- Properties of the file itself. -/
def properties (file : File) : Properties :=
  file.catalogue.properties

/-- Properties of a group. -/
def groupProperties (file : File) (group : String) : Except Error Properties :=
  (file.catalogue.group group).map (·.properties)

/-- A channel of the catalogue. -/
def channel (file : File) (group name : String) : Except Error Channel :=
  file.catalogue.channel group name

/-- Properties of a channel. -/
def channelProperties (file : File) (group name : String) : Except Error Properties :=
  (file.channel group name).map (·.properties)

/-- All samples of a channel. -/
def readChannel (file : File) (group name : String) : Except Error Samples :=
  match file.channel group name with
  | .error error => .error error
  | .ok channel => channel.read file.source

/-- All samples of several channels. All channels are looked up before any is read. -/
def readChannels (file : File) (names : List (String × String)) : Except Error (List Samples) := do
  let channels ← names.mapM fun name => file.channel name.1 name.2
  channels.mapM fun channel => channel.read file.source

/-- An open file in one line: its source, its segments, and where it is truncated. -/
def describe (file : File) : String :=
  let source := Text.quoted file.source.describe
  let truncatedAt :=
    match file.truncatedAt with
    | some offset => s!"Some({offset})"
    | none => "None"
  "TdmsFile \x7b source: " ++ source ++
    s!", segments: {file.catalogue.segmentCount}, truncated_at: {truncatedAt} " ++ "\x7d"

end File

end Tdms
