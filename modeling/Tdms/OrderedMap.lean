/-!
Maps that remember in which order their keys were first put in.

A map is a list of keys with values. `alter` changes the value of a key where
it stands and puts a new key last, so keys never move; `modify` leaves a map
without the key as it is.
-/

namespace Tdms

/-- Values under keys, in the order in which the keys were first put in. -/
structure OrderedMap (κ α : Type) where
  entries : List (κ × α)
  deriving DecidableEq, Repr, Inhabited

namespace OrderedMap

variable {κ α : Type} [DecidableEq κ]

/-- The map without keys. -/
def empty : OrderedMap κ α :=
  ⟨[]⟩

/-- The keys in order. -/
def keys (map : OrderedMap κ α) : List κ :=
  map.entries.map Prod.fst

/-- The values in the order of their keys. -/
def values (map : OrderedMap κ α) : List α :=
  map.entries.map Prod.snd

/-- The value under `key` in a list of entries. -/
def lookup (key : κ) : List (κ × α) → Option α
  | [] => none
  | (found, value) :: rest => if found = key then some value else lookup key rest

/-- The value under `key`. -/
def get? (map : OrderedMap κ α) (key : κ) : Option α :=
  lookup key map.entries

/-- The entries with the value under `key` put through `change`; a key that is not there yet is
put last with what `change` makes of `fresh`. -/
def alterEntries (key : κ) (fresh : α) (change : α → α) : List (κ × α) → List (κ × α)
  | [] => [(key, change fresh)]
  | (found, value) :: rest =>
    if found = key then (found, change value) :: rest
    else (found, value) :: alterEntries key fresh change rest

/-- Puts the value under `key` through `change`, starting from `fresh` if the key is new. -/
def alter (map : OrderedMap κ α) (key : κ) (fresh : α) (change : α → α) : OrderedMap κ α :=
  ⟨alterEntries key fresh change map.entries⟩

/-- Puts the value under `key` through `change`, if the key is there. -/
def modify (map : OrderedMap κ α) (key : κ) (change : α → α) : OrderedMap κ α :=
  ⟨map.entries.map fun entry => if entry.1 = key then (entry.1, change entry.2) else entry⟩

/-- Puts `value` under `key`. -/
def insert (map : OrderedMap κ α) (key : κ) (value : α) : OrderedMap κ α :=
  map.alter key value fun _ => value

/-- Inserts pairs one after another. -/
def insertAll (map : OrderedMap κ α) (pairs : List (κ × α)) : OrderedMap κ α :=
  pairs.foldl (fun map pair => map.insert pair.1 pair.2) map

end OrderedMap

end Tdms
