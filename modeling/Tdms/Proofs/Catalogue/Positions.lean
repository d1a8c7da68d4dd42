import Mathlib
import Tdms.Proofs.Catalogue.Records
import Tdms.Proofs.OrderedMap

/-!
Merging records by the positions of their objects.

An `OrderedMap` looks through its keys for the one it needs. While the records of
a segment are merged, the active objects lie in an array instead, and a hash map
beside it tells where the array has each of them. `Indexed.Finds` says that it
does so for every object, while both grow: putting a value under a key keeps it,
and is what `OrderedMap.insert` does. So `mergeRecords`, which works on the
array, and `applyRecords` are the same on every catalogue whose active objects
are distinct, the records that they refuse included.
-/

namespace Tdms

open Metadata (RawIndex Record)

deriving instance Hashable for ObjectPath

/-! ## Entries under positions -/

theorem getElem?_concat_eq_some_iff {α : Type} {items : List α} {item other : α}
    {position : Nat} :
    (items ++ [item])[position]? = some other ↔
      items[position]? = some other ∨ position = items.length ∧ item = other := by
  rcases lt_trichotomy position items.length with before | rfl | behind
  · simp [List.getElem?_append_left before, before.ne]
  · simp
  · have outside : (items ++ [item])[position]? = none := by
      rw [List.getElem?_eq_none_iff, List.length_append, List.length_singleton]
      exact behind
    simp [outside, List.getElem?_eq_none behind.le, behind.ne']

/-- Values under keys in an array, and the position of every key. -/
structure Indexed (κ α : Type) [BEq κ] [Hashable κ] where
  entries : Array (κ × α)
  positions : Std.HashMap κ Nat

namespace Indexed

variable {κ α : Type} [DecidableEq κ] [Hashable κ]

/-- The keys in order. -/
def keys (indexed : Indexed κ α) : List κ :=
  indexed.entries.toList.map Prod.fst

/-- The same keys and values as a map. -/
def toMap (indexed : Indexed κ α) : OrderedMap κ α :=
  ⟨indexed.entries.toList⟩

/-- The entries of a map, with the positions of its keys collected one after another. -/
def ofMap (map : OrderedMap κ α) : Indexed κ α where
  entries := map.entries.toArray
  positions := .ofList map.keys.zipIdx

/-- Puts a value under a key: where the key is if it has a position, and last otherwise. -/
def put (indexed : Indexed κ α) (key : κ) (value : α) : Indexed κ α :=
  match indexed.positions[key]? with
  | some position =>
    { indexed with
      entries := indexed.entries.modify position fun entry => (entry.1, value) }
  | none =>
    { entries := indexed.entries.push (key, value)
      positions := indexed.positions.insert key indexed.entries.size }

/-- Every key is found exactly where it is. -/
def Finds (indexed : Indexed κ α) : Prop :=
  ∀ (key : κ) (position : Nat),
    indexed.positions[key]? = some position ↔ indexed.keys[position]? = some key

variable {indexed : Indexed κ α} {key : κ}

theorem Finds.nodup (finds : indexed.Finds) : indexed.keys.Nodup := by
  rw [List.nodup_iff_getElem?_ne_getElem?]
  intro early late before inside same
  rw [List.getElem?_eq_getElem inside] at same
  have first := (finds _ early).2 same
  have second := (finds _ late).2 (List.getElem?_eq_getElem inside)
  rw [first] at second
  exact before.ne (Option.some.inj second)

theorem Finds.mem_keys_iff (finds : indexed.Finds) :
    key ∈ indexed.keys ↔ ∃ position, indexed.positions[key]? = some position := by
  rw [List.mem_iff_getElem?]
  exact exists_congr fun position => (finds key position).symm

theorem Finds.notMem_keys (finds : indexed.Finds) (missing : indexed.positions[key]? = none) :
    key ∉ indexed.keys := by
  intro listed
  obtain ⟨position, known⟩ := finds.mem_keys_iff.1 listed
  rw [missing] at known
  cases known

theorem finds_ofMap {map : OrderedMap κ α} (distinct : map.keys.Nodup) : (ofMap map).Finds := by
  have apart : map.keys.zipIdx.Pairwise fun one two => (one.1 == two.1) = false := by
    rw [← List.zipIdx_map_fst 0 map.keys, List.Nodup, List.pairwise_map] at distinct
    exact distinct.imp fun other => beq_eq_false_iff_ne.2 other
  have here : ∀ key position, map.keys[position]? = some key →
      (ofMap map).positions[key]? = some position := fun key position stands =>
    Std.HashMap.getElem?_ofList_of_mem (beq_self_eq_true key) apart
      (List.mem_zipIdx_iff_getElem?.2 stands)
  intro key position
  change _ ↔ map.keys[position]? = some key
  refine ⟨fun found => ?_, here key position⟩
  by_cases listed : key ∈ map.keys
  · obtain ⟨other, stands⟩ := List.mem_iff_getElem?.1 listed
    rw [here key other stands] at found
    rwa [← Option.some.inj found]
  · have missing : (ofMap map).positions[key]? = none :=
      Std.HashMap.getElem?_ofList_of_contains_eq_false (by simpa using listed)
    rw [missing] at found
    cases found

/-- A value put under a key is inserted under it. -/
theorem toMap_put (finds : indexed.Finds) (key : κ) (value : α) :
    (indexed.put key value).toMap = indexed.toMap.insert key value := by
  have distinct : indexed.toMap.keys.Nodup := finds.nodup
  have inserted := OrderedMap.entries_insert distinct key value
  refine congrArg OrderedMap.mk (Eq.trans ?_ inserted.symm)
  unfold put
  cases found : indexed.positions[key]? with
  | none =>
    have fresh : key ∉ indexed.toMap.keys := finds.notMem_keys found
    rw [if_neg fresh]
    exact Array.toList_push
  | some position =>
    have listed : key ∈ indexed.toMap.keys := finds.mem_keys_iff.2 ⟨position, found⟩
    rw [if_pos listed]
    change (indexed.entries.modify position _).toList = _
    rw [Array.toList_modify]
    -- Of all entries only the one at the position has the key.
    refine List.ext_getElem? fun place => ?_
    rw [List.getElem?_modify, List.getElem?_map]
    change _ = indexed.entries.toList[place]?.map _
    cases held : indexed.entries.toList[place]? with
    | none => rfl
    | some entry =>
      have stands : indexed.keys[place]? = some entry.1 := by
        rw [keys, List.getElem?_map, held, Option.map_some]
      have same : position = place ↔ entry.1 = key := by
        rw [← Option.some_inj, ← found, finds key place, stands, Option.some_inj]
      by_cases here : position = place
      · simp [here, same.1 here]
      · simp [here, mt same.2 here]

theorem Finds.put (finds : indexed.Finds) (key : κ) (value : α) :
    (indexed.put key value).Finds := by
  have kept : (indexed.put key value).keys =
      if key ∈ indexed.keys then indexed.keys else indexed.keys ++ [key] := by
    have inserted := OrderedMap.keys_insert indexed.toMap key value
    rw [← toMap_put finds] at inserted
    exact inserted
  intro other position
  rw [kept]
  unfold Indexed.put
  cases found : indexed.positions[key]? with
  | some known =>
    rw [if_pos (finds.mem_keys_iff.2 ⟨known, found⟩)]
    exact finds other position
  | none =>
    have fresh := finds.notMem_keys found
    rw [if_neg fresh]
    change (indexed.positions.insert key indexed.entries.size)[other]? = _ ↔ _
    have size : indexed.entries.size = indexed.keys.length := by simp [keys]
    rw [Std.HashMap.getElem?_insert, getElem?_concat_eq_some_iff, size]
    by_cases same : key = other
    · subst same
      have nowhere : indexed.keys[position]? ≠ some key := fun stands =>
        fresh (List.mem_of_getElem? stands)
      simp [nowhere, eq_comm]
    · simp [same, finds other position]

end Indexed

namespace Catalogue

variable {catalogue : Catalogue} {offset : Nat}

/-! ## Records -/

/-- What merging the records of a segment has come to: the catalogue without its active objects, and
these. -/
structure Merging where
  catalogue : Catalogue
  active : Indexed ObjectPath (Option RawIndex)

namespace Merging

/-- What the records of a segment are merged into. -/
def start (catalogue : Catalogue) (segment : Segment) : Merging where
  catalogue := { catalogue with active := .empty }
  active := .ofMap (if segment.hasNewObjectList then .empty else catalogue.active)

/-- Merges one record. -/
def take (offset : Nat) (merging : Merging) (record : Record) : Except Error Merging := do
  let index? ← merging.catalogue.resolve offset record
  let declared ← merging.catalogue.declareAny offset record.path index?
  pure
    { catalogue := declared.describe record.path record.properties
      active := merging.active.put record.path index? }

/-- The catalogue with the active objects put back. -/
def toCatalogue (merging : Merging) : Catalogue :=
  { merging.catalogue with active := merging.active.toMap }

end Merging

/-- Takes up the records of a segment, with the positions of the active objects at hand. -/
def mergeRecords (catalogue : Catalogue) (segment : Segment) (records : List Record) :
    Except Error Catalogue :=
  (records.foldlM (Merging.take segment.offset) (.start catalogue segment)).map
    Merging.toCatalogue

/-- Declaring raw data does not look at the active objects. -/
theorem declareAny_active (catalogue : Catalogue) (active : OrderedMap ObjectPath (Option RawIndex))
    (offset : Nat) (path : ObjectPath) (index? : Option RawIndex) :
    declareAny { catalogue with active } offset path index? =
      (catalogue.declareAny offset path index?).map fun declared => { declared with active } := by
  cases index? with
  | none => rfl
  | some index =>
    cases path with
    | root | group => rfl
    | channel owner name =>
      unfold declareAny declare
      dsimp only
      have same : channel? { catalogue with active } owner name = catalogue.channel? owner name :=
        rfl
      rw [same]
      cases (catalogue.channel? owner name).bind Channel.type with
      | none => rfl
      | some existing =>
        dsimp only
        split
        · rfl
        · rfl

theorem describe_active (catalogue : Catalogue) (active : OrderedMap ObjectPath (Option RawIndex))
    (path : ObjectPath) (properties : List (String × Property)) :
    describe { catalogue with active } path properties =
      { catalogue.describe path properties with active } := by
  cases path with
  | root | group | channel => rfl

/-- A record is resolved, declared and described, and then put among the active objects. -/
theorem applyRecord_eq_bind (catalogue : Catalogue) (offset : Nat) (record : Record) :
    applyRecord offset catalogue record =
      (catalogue.resolve offset record >>= fun index? =>
        (catalogue.declareAny offset record.path index?).map fun declared =>
          let described := declared.describe record.path record.properties
          { described with active := described.active.insert record.path index? }) := by
  rw [applyRecord]
  cases catalogue.resolve offset record with
  | error error => rfl
  | ok index? =>
    cases index? with
    | none => rfl
    | some index =>
      dsimp only [declareAny, Outcome.ok_bind]
      cases catalogue.declare offset record.path index with
      | error error => rfl
      | ok declared => rfl

namespace Merging

variable {merging next : Merging}

/-- A record is merged as it is taken up. -/
theorem map_take (finds : merging.active.Finds) (offset : Nat) (record : Record) :
    (merging.take offset record).map toCatalogue =
      applyRecord offset merging.toCatalogue record := by
  rw [applyRecord_eq_bind, take]
  have resolved : merging.toCatalogue.resolve offset record =
      merging.catalogue.resolve offset record := rfl
  rw [resolved]
  cases merging.catalogue.resolve offset record with
  | error error => rfl
  | ok index? =>
    rw [Outcome.ok_bind, Outcome.ok_bind, toCatalogue,
      declareAny_active merging.catalogue merging.active.toMap]
    cases merging.catalogue.declareAny offset record.path index? with
    | error error => rfl
    | ok declared =>
      refine congrArg Except.ok ?_
      simp only [toCatalogue, Indexed.toMap_put finds, describe_active]

theorem finds_of_take (finds : merging.active.Finds) {record : Record}
    (taken : merging.take offset record = .ok next) : next.active.Finds := by
  obtain ⟨index?, -, rest⟩ := Outcome.bind_eq_ok.1 taken
  obtain ⟨declared, -, final⟩ := Outcome.bind_eq_ok.1 rest
  cases final
  exact finds.put record.path index?

/-- Records are merged one after another as they are taken up. -/
theorem map_foldlM (finds : merging.active.Finds) (offset : Nat) (records : List Record) :
    (records.foldlM (take offset) merging).map toCatalogue =
      records.foldlM (applyRecord offset) merging.toCatalogue := by
  induction records generalizing merging with
  | nil => rfl
  | cons record rest ih =>
    rw [List.foldlM_cons, List.foldlM_cons, ← map_take finds]
    cases taken : merging.take offset record with
    | error error => rfl
    | ok next => exact ih (finds_of_take finds taken)

end Merging

/-- With or without positions at hand, records are taken up alike and refused alike. -/
theorem mergeRecords_eq (distinct : catalogue.active.keys.Nodup) (segment : Segment)
    (records : List Record) :
    catalogue.mergeRecords segment records = catalogue.applyRecords segment records := by
  have finds : (Merging.start catalogue segment).active.Finds := by
    refine Indexed.finds_ofMap ?_
    split
    · exact List.nodup_nil
    · exact distinct
  rw [mergeRecords, Merging.map_foldlM finds, applyRecords]
  congr 1
  unfold Merging.start Merging.toCatalogue
  split
  · rfl
  · rfl

end Catalogue

end Tdms
