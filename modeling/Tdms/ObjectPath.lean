/-!
Object paths: `/` names the file, and one or two quoted names after it a group
and a channel. A quote inside a name is written twice. Names are compared
letter by letter.

`ObjectPath.parse?` reads exactly what `ObjectPath.render` writes.
-/

namespace Tdms

/-- What an object of a file is called. -/
inductive ObjectPath where
  /-- The file itself. -/
  | root
  | group (name : String)
  | channel (owner name : String)
  deriving DecidableEq, Repr, Inhabited

namespace ObjectPath

/-- The quote around a name. -/
def quote : Char := Char.ofNat 39

/-- The letters of a name with every quote written twice. -/
def escape : List Char → List Char
  | [] => []
  | letter :: rest =>
    if letter = quote then quote :: quote :: escape rest else letter :: escape rest

/-- A name as a path writes it: a slash, then the name in quotes. -/
def component (name : String) : List Char :=
  '/' :: quote :: (escape name.toList ++ [quote])

/-- The letters of a path. -/
def letters : ObjectPath → List Char
  | root => ['/']
  | group name => component name
  | channel owner name => component owner ++ component name

/-- A path as text. -/
def render (path : ObjectPath) : String :=
  String.ofList path.letters

/-- The name up to its closing quote, and the letters after it. A quote that is followed by
another belongs to the name. -/
def takeName? : List Char → Option (List Char × List Char)
  | [] => none
  | letter :: rest =>
    if letter = quote then
      match rest with
      | [] => some ([], [])
      | next :: later =>
        if next = quote then
          (takeName? later).map fun found => (quote :: found.1, found.2)
        else some ([], next :: later)
    else (takeName? rest).map fun found => (letter :: found.1, found.2)

/-- The name that `text` starts with as a path writes it, and the letters after it. -/
def takeComponent? (text : List Char) : Option (String × List Char) :=
  match text with
  | slash :: opening :: rest =>
    if slash = '/' ∧ opening = quote then
      (takeName? rest).map fun found => (String.ofList found.1, found.2)
    else none
  | _ => none

/-- The path that `text` writes, or `none` if it writes none or goes deeper than a channel. -/
def parse? (text : String) : Option ObjectPath :=
  if text.toList = ['/'] then some root
  else
    match takeComponent? text.toList with
    | none => none
    | some (first, []) => some (group first)
    | some (first, rest) =>
      match takeComponent? rest with
      | some (second, []) => some (channel first second)
      | _ => none

/-- The group an object belongs to: its own name if it is a group. -/
def group? : ObjectPath → Option String
  | root => none
  | group name => some name
  | channel owner _ => some owner

/-- Whether the object is a channel. -/
def isChannel : ObjectPath → Bool
  | channel _ _ => true
  | root | group _ => false

end ObjectPath

end Tdms
