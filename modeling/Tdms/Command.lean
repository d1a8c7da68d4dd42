import Tdms.Listing
import Tdms.Options
import Tdms.Table

/-!
The command: lists what a file holds, or prints the values of one channel.

A run of the command turns a folder and options into an exit code and two
texts. The first text is empty unless the command succeeds. The second holds a
warning if the file was truncated, and the error if the command fails.
-/

namespace Tdms

/-- What a run of the command leaves behind. -/
structure Outcome where
  exitCode : Nat
  stdout : String
  stderr : String
  deriving DecidableEq, Repr, Inhabited

namespace Command

/-- Why the command fails. -/
inductive Failure where
  | opening (path : String) (error : Error)
  | channel (group name : String) (error : Error)
  deriving DecidableEq, Repr

/-- The line that reports a failure. -/
def Failure.message : Failure → String
  | opening path error => s!"Failed to open TDMS file {path}: {error.message}"
  | channel group name error => s!"Failed to read channel '{group}/{name}': {error.message}"

/-- The table of at most `limit` elements of a column, and how many more there are. -/
def columnText (title : String) (limit : Nat) (column : Export.Column) : String :=
  let cells := (column.elements.take limit).map (Table.cellText column.type)
  let more := column.length - limit
  Table.render title cells ++ "\n" ++ if more = 0 then "" else s!"... {more} more values\n"

/-- What the command prints of an open file: the values of a channel if exactly one is asked for,
and the listing otherwise. -/
def output (options : Options) (file : File) : Except Failure String :=
  match options.channels with
  | [(group, name)] =>
    match file.readChannel group name with
    | .error error => .error (.channel group name error)
    | .ok samples =>
      match Export.Column.ofSamples samples with
      | .error error => .error (.channel group name error)
      | .ok column => .ok (columnText name options.limit column)
  | _ =>
    let listing := Listing.ofFile options.path file options.properties
    .ok (if options.json then listing.toJson.pretty ++ "\n" else listing.text)

/-- The warning about a truncated file. -/
def warning (options : Options) (file : File) : String :=
  match file.truncatedAt with
  | some offset =>
    s!"warning: {options.path} is truncated; ignoring data from byte {offset} on\n"
  | none => ""

/-- Runs the command in a folder. -/
def run (folder : Folder) (options : Options) : Outcome :=
  let access : Access := if options.mapped then .mapped else .buffered
  match File.ofFolder folder options.path access options.recover with
  | .error error => ⟨1, "", (Failure.opening options.path error).message ++ "\n"⟩
  | .ok file =>
    match output options file with
    | .error failure => ⟨1, "", warning options file ++ failure.message ++ "\n"⟩
    | .ok text => ⟨0, text, warning options file⟩

/-- Runs the command in a folder with the given arguments, if they are accepted. -/
def runArguments (folder : Folder) (arguments : List String) : Option Outcome :=
  (Options.parse? arguments).map (run folder)

end Command

end Tdms
