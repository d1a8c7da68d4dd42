import Tdms.Error

/-!
Folders: what a path leads to when it is followed from a folder.
-/

namespace Tdms

/-- What a path leads to. -/
inductive Folder.Target where
  | file (content : ByteArray)
  /-- A folder, with the length that the system reports of it. -/
  | folder (length : Nat)
  deriving Inhabited

/-- A folder, by what each path leads to from there. -/
abbrev Folder := String → Except Source.Fault Folder.Target

/-- How a file of a folder is reached. -/
inductive Access where
  | buffered
  | mapped
  /-- All bytes are taken into memory first. -/
  | inMemory
  deriving DecidableEq, Repr, Inhabited

namespace Folder

/-- Where the walk along a path has come to. -/
inductive Place where
  /-- The folder where the walk began. -/
  | here
  /-- A folder in which no name is known. -/
  | elsewhere
  | file (content : ByteArray)
  deriving Inhabited

/-- The most bytes of a name. -/
def nameLimit : Nat := 255

/-- The most bytes of a path. -/
def pathLimit : Nat := 4095

/-- Goes from a place to a name in it. No name and one dot stay in a folder, two dots leave it. -/
def step (files : String → Option ByteArray) (place : Place) (name : String) :
    Except Source.Fault Place :=
  match place with
  | .file _ => .error .notFolder
  | .here | .elsewhere =>
    if name = "" || name = "." then .ok place
    else if name = ".." then .ok .elsewhere
    else if nameLimit < name.utf8ByteSize then .error .nameTooLong
    else
      match place, files name with
      | .here, some content => .ok (.file content)
      | _, _ => .error .missing

/-- A folder that holds files and no other folder. Of every folder, `length` is reported. -/
def ofFiles (length : Nat) (files : String → Option ByteArray) : Folder := fun path =>
  if path.isEmpty then .error .missing
  else if pathLimit < path.utf8ByteSize then .error .nameTooLong
  else
    let start := if "/".isPrefixOf path then .elsewhere else .here
    match (path.splitOn "/").foldlM (step files) start with
    | .error fault => .error fault
    | .ok (.file content) => .ok (.file content)
    | .ok .here | .ok .elsewhere => .ok (.folder length)

/-- The source that reaches the file at `path` in a folder. A folder in the place of the file is
refused when it is mapped or taken into memory, but not before it is read by position. -/
def source (folder : Folder) (path : String) (access : Access) : Except Error Source :=
  match folder path with
  | .error fault => .error (.unreadable (.opening path) fault)
  | .ok (.folder length) =>
    match access with
    | .buffered => .ok (.folder path length)
    | .mapped => .error (.unreadable (.opening path) .unmappable)
    | .inMemory => .error (.unreadable (.opening path) .folder)
  | .ok (.file content) =>
    match access with
    | .buffered => .ok (.buffered path content)
    | .mapped => .ok (.mapped path content)
    | .inMemory => .ok (.ofBytes content)

end Folder

end Tdms
