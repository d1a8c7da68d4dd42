/-!
Options of the command, as its arguments give them.

Arguments are read from the left. A flag and a limit are given at most once, a
channel any number of times, and exactly one path. What starts with a dash is
no value, unless it is the dash alone or follows two dashes. Arguments that ask
for help, for the version or for messages about the progress are not known here.
-/

namespace Tdms

/-- What the command is asked to do. -/
structure Options where
  /-- Name of the file. -/
  path : String
  /-- Whether a truncated file is opened without its last segment. -/
  recover : Bool
  /-- Whether properties are listed. -/
  properties : Bool
  /-- Whether the listing is JSON. -/
  json : Bool
  /-- Groups and names of the channels that are asked for. -/
  channels : List (String × String)
  /-- The greatest number of values that are printed. -/
  limit : Nat
  /-- Whether the file is mapped into memory. -/
  mapped : Bool
  deriving DecidableEq, Repr, Inhabited

namespace Options

/-- An option without a value. -/
inductive Flag where
  | recover
  | properties
  | json
  | mapped
  deriving DecidableEq, Repr

/-- The flag that an argument stands for. -/
def Flag.ofArgument? : String → Option Flag
  | "--recover" => some .recover
  | "--properties" | "-p" => some .properties
  | "--json" => some .json
  | "--mmap" => some .mapped
  | _ => none

/-- The number that `text` writes in decimal digits, with or without a plus sign. -/
def number? (text : String) : Option Nat :=
  let digits :=
    match text.toList with
    | '+' :: rest => rest
    | letters => letters
  if digits.isEmpty || !digits.all Char.isDigit then none
  else
    let number := digits.foldl (fun number digit => number * 10 + (digit.toNat - 48)) 0
    if number < UInt64.size then some number else none

/-- Whether an argument can be a value. -/
def isValue (argument : String) : Bool :=
  !"-".isPrefixOf argument || argument == "-"

/-- What arguments have given so far. -/
structure Given where
  flags : Flag → Bool
  path? : Option String
  channels : List (String × String)
  limit? : Option Nat

namespace Given

/-- What is given before any argument. -/
def nothing : Given where
  flags _ := false
  path? := none
  channels := []
  limit? := none

/-- Gives a flag. -/
def grant (given : Given) (flag : Flag) : Given :=
  { given with flags := fun other => other == flag || given.flags other }

/-- Gives a flag that was not given before. -/
def setFlag? (given : Given) (flag : Flag) : Option Given :=
  if given.flags flag then none else some (given.grant flag)

/-- Gives the limit that a text writes, if none was given before. -/
def setLimit? (given : Given) (text : String) : Option Given :=
  match given.limit?, number? text with
  | none, some limit => some { given with limit? := some limit }
  | _, _ => none

/-- Gives a path, if none was given before. -/
def setPath? (given : Given) (path : String) : Option Given :=
  if path.isEmpty || given.path?.isSome then none else some { given with path? := some path }

/-- Gives one more channel. -/
def addChannel? (given : Given) (group name : String) : Option Given :=
  if isValue group && isValue name then
    some { given with channels := given.channels ++ [(group, name)] }
  else none

/-- Takes an argument that needs no other: a flag, a limit in one word, or a path. -/
def take? (given : Given) (argument : String) : Option Given :=
  match Flag.ofArgument? argument with
  | some flag => given.setFlag? flag
  | none =>
    if "--limit=".isPrefixOf argument then given.setLimit? (argument.drop 8).toString
    else if isValue argument then given.setPath? argument
    else none

/-- What is given after all arguments, if each of them is known where it stands. -/
def takeAll? (given : Given) : List String → Option Given
  | [] => some given
  | "--" :: rest => rest.foldlM setPath? given
  | "--channel" :: group :: name :: rest =>
    match given.addChannel? group name with
    | some next => next.takeAll? rest
    | none => none
  | "--limit" :: limit :: rest =>
    match given.setLimit? limit with
    | some next => next.takeAll? rest
    | none => none
  | argument :: rest =>
    match given.take? argument with
    | some next => next.takeAll? rest
    | none => none

/-- The options that are given with a path. Without a limit, 20 values are printed. -/
def toOptions (given : Given) (path : String) : Options where
  path := path
  recover := given.flags .recover
  properties := given.flags .properties
  json := given.flags .json
  channels := given.channels
  limit := given.limit?.getD 20
  mapped := given.flags .mapped

end Given

/-- The options that the arguments of the command give. -/
def parse? (arguments : List String) : Option Options :=
  match Given.nothing.takeAll? arguments with
  | some given => given.path?.map given.toOptions
  | none => none

end Options

end Tdms
