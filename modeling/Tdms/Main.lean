import Tdms.Command

/-!
The program: reads the named file and prints what the command makes of it.
-/

namespace Tdms.Command

/-- Why the system did not read a file. -/
def systemFault : IO.Error → Source.Fault
  | .permissionDenied _ _ _ => .denied
  | .inappropriateType _ 21 _ => .folder
  | .inappropriateType _ _ _ => .notFolder
  | .invalidArgument _ 36 _ => .nameTooLong
  | _ => .missing

/-- The length that the system reports of the folder at `path`. -/
def reportedLength (path : String) : IO Nat := do
  let place ← IO.FS.realPath path
  let found ← place.metadata
  pure found.byteSize.toNat

/-- Reads the file at `path`, as a folder in which no other path leads anywhere. -/
def readFolder (path : String) : IO Folder := do
  let target : Except Source.Fault Folder.Target ←
    try pure (.ok (.file (← IO.FS.readBinFile path)))
    catch error =>
      match systemFault error with
      | .folder => pure (.ok (.folder (← reportedLength path)))
      | fault => pure (.error fault)
  pure fun other => if other = path then target else .error .missing

end Tdms.Command

/-- Runs the command on the arguments of the program. Arguments that are not accepted end it with
exit code 2. -/
def main (arguments : List String) : IO UInt32 := do
  match Tdms.Options.parse? arguments with
  | none => pure 2
  | some options =>
    let folder ← Tdms.Command.readFolder options.path
    let outcome := Tdms.Command.run folder options
    IO.print outcome.stdout
    IO.eprint outcome.stderr
    pure (UInt32.ofNat outcome.exitCode)
