import Mathlib
import Tdms.OrderedMap

/-!
Laws of maps that remember in which order their keys were first put in.

Every operation is described twice: by what `get?` finds afterwards, and by the
keys afterwards, in order. Keys are distinct in every map that starts empty,
and `get?_eq_some_iff` then says that finding a value and listing it are the
same.
-/

namespace Tdms.OrderedMap

variable {κ α : Type} [DecidableEq κ] {map : OrderedMap κ α} {key other : κ}

/-! ## What is found -/

@[simp] theorem get?_empty (key : κ) : (empty : OrderedMap κ α).get? key = none :=
  rfl

theorem lookup_alterEntries (key other : κ) (fresh : α) (change : α → α)
    (entries : List (κ × α)) :
    lookup other (alterEntries key fresh change entries) =
      if other = key then some (change ((lookup key entries).getD fresh))
      else lookup other entries := by
  induction entries with
  | nil =>
    by_cases same : other = key
    · simp [alterEntries, lookup, same]
    · simp [alterEntries, lookup, same, Ne.symm same]
  | cons entry rest ih =>
    obtain ⟨found, value⟩ := entry
    by_cases here : found = key
    · by_cases same : other = key
      · simp [alterEntries, lookup, here, same]
      · simp [alterEntries, lookup, here, same, Ne.symm same]
    · rw [alterEntries, if_neg here, lookup, ih, lookup, lookup, if_neg here]
      by_cases same : other = key
      · have passed : found ≠ other := fun equal => here (equal.trans same)
        rw [if_neg passed, if_pos same, if_pos same]
      · rw [if_neg same, if_neg same]

theorem get?_alter (map : OrderedMap κ α) (key other : κ) (fresh : α) (change : α → α) :
    (map.alter key fresh change).get? other =
      if other = key then some (change ((map.get? key).getD fresh)) else map.get? other :=
  lookup_alterEntries key other fresh change map.entries

theorem get?_insert (map : OrderedMap κ α) (key other : κ) (value : α) :
    (map.insert key value).get? other = if other = key then some value else map.get? other :=
  get?_alter map key other value fun _ => value

theorem lookup_map (entries : List (κ × α)) (key other : κ) (change : α → α) :
    lookup other (entries.map fun entry => if entry.1 = key then (entry.1, change entry.2)
      else entry) =
      if other = key then (lookup key entries).map change else lookup other entries := by
  induction entries with
  | nil => simp [lookup]
  | cons entry rest ih =>
    obtain ⟨found, value⟩ := entry
    rw [List.map_cons]
    by_cases here : found = key
    · by_cases same : other = key
      · simp [lookup, here, same]
      · simp only [here, if_true, lookup, if_neg (Ne.symm same), ih, if_neg same]
    · by_cases same : other = key
      · have passed : found ≠ other := fun equal => here (equal.trans same)
        simp only [lookup, if_neg here, if_neg passed, ih]
      · simp only [lookup, if_neg here, ih, if_neg same]

theorem get?_modify (map : OrderedMap κ α) (key other : κ) (change : α → α) :
    (map.modify key change).get? other =
      if other = key then (map.get? key).map change else map.get? other :=
  lookup_map map.entries key other change

/-! ## The keys in order -/

omit [DecidableEq κ] in
@[simp] theorem keys_empty : (empty : OrderedMap κ α).keys = [] :=
  rfl

theorem map_fst_alterEntries (key : κ) (fresh : α) (change : α → α) (entries : List (κ × α)) :
    (alterEntries key fresh change entries).map Prod.fst =
      if key ∈ entries.map Prod.fst then entries.map Prod.fst
      else entries.map Prod.fst ++ [key] := by
  induction entries with
  | nil => simp [alterEntries]
  | cons entry rest ih =>
    obtain ⟨found, value⟩ := entry
    by_cases here : found = key
    · simp [alterEntries, here]
    · rw [alterEntries, if_neg here, List.map_cons, List.map_cons, ih]
      by_cases later : key ∈ rest.map Prod.fst
      · rw [if_pos later, if_pos (List.mem_cons_of_mem _ later)]
      · have absent : key ∉ found :: rest.map Prod.fst := by
          rw [List.mem_cons, not_or]
          exact ⟨Ne.symm here, later⟩
        rw [if_neg later, if_neg absent, List.cons_append]

/-- A key that is new to a map becomes its last. -/
theorem keys_alter (map : OrderedMap κ α) (key : κ) (fresh : α) (change : α → α) :
    (map.alter key fresh change).keys =
      if key ∈ map.keys then map.keys else map.keys ++ [key] :=
  map_fst_alterEntries key fresh change map.entries

theorem keys_insert (map : OrderedMap κ α) (key : κ) (value : α) :
    (map.insert key value).keys = if key ∈ map.keys then map.keys else map.keys ++ [key] :=
  keys_alter map key value fun _ => value

@[simp] theorem keys_modify (map : OrderedMap κ α) (key : κ) (change : α → α) :
    (map.modify key change).keys = map.keys := by
  simp only [modify, keys, List.map_map]
  apply List.map_congr_left
  intro entry _
  by_cases here : entry.1 = key
  · simp [here]
  · simp [here]

theorem nodup_keys_alter (distinct : map.keys.Nodup) (key : κ) (fresh : α) (change : α → α) :
    (map.alter key fresh change).keys.Nodup := by
  rw [keys_alter]
  by_cases present : key ∈ map.keys
  · rwa [if_pos present]
  · rw [if_neg present]
    exact distinct.append (List.nodup_singleton key) (by simpa using present)

theorem nodup_keys_insert (distinct : map.keys.Nodup) (key : κ) (value : α) :
    (map.insert key value).keys.Nodup :=
  nodup_keys_alter distinct key value fun _ => value

/-! ## Finding and listing -/

theorem lookup_eq_none_iff {entries : List (κ × α)} :
    lookup key entries = none ↔ key ∉ entries.map Prod.fst := by
  induction entries with
  | nil => simp [lookup]
  | cons entry rest ih =>
    obtain ⟨found, value⟩ := entry
    by_cases here : found = key
    · simp [lookup, here]
    · simp [lookup, here, ih, Ne.symm here]

/-- A key is listed exactly when something is found under it. -/
theorem mem_keys_iff : key ∈ map.keys ↔ ∃ value, map.get? key = some value := by
  rw [← Option.isSome_iff_exists, Option.isSome_iff_ne_none, ne_eq, get?, lookup_eq_none_iff,
    not_not, keys]

theorem mem_of_lookup_eq_some {entries : List (κ × α)} {value : α}
    (found : lookup key entries = some value) : (key, value) ∈ entries := by
  induction entries with
  | nil => cases found
  | cons entry rest ih =>
    obtain ⟨first, stored⟩ := entry
    unfold lookup at found
    split at found
    · rename_i here
      cases found
      rw [here]
      exact List.mem_cons_self
    · exact List.mem_cons_of_mem _ (ih found)

theorem lookup_of_mem {entries : List (κ × α)} {value : α}
    (distinct : (entries.map Prod.fst).Nodup) (listed : (key, value) ∈ entries) :
    lookup key entries = some value := by
  induction entries with
  | nil => cases listed
  | cons entry rest ih =>
    obtain ⟨found, stored⟩ := entry
    rw [List.map_cons, List.nodup_cons] at distinct
    rcases List.mem_cons.1 listed with here | later
    · cases here
      simp [lookup]
    · have passed : found ≠ key := by
        rintro rfl
        exact distinct.1 (List.mem_map.2 ⟨_, later, rfl⟩)
      rw [lookup, if_neg passed]
      exact ih distinct.2 later

/-- With distinct keys, a value is found under a key exactly when the two are listed together. -/
theorem get?_eq_some_iff (distinct : map.keys.Nodup) {value : α} :
    map.get? key = some value ↔ (key, value) ∈ map.entries :=
  ⟨mem_of_lookup_eq_some, lookup_of_mem distinct⟩

theorem alterEntries_const (key : κ) (value : α) {entries : List (κ × α)}
    (distinct : (entries.map Prod.fst).Nodup) :
    alterEntries key value (fun _ => value) entries =
      if key ∈ entries.map Prod.fst then
        entries.map fun entry => if entry.1 = key then (key, value) else entry
      else entries ++ [(key, value)] := by
  induction entries with
  | nil => simp [alterEntries]
  | cons entry rest ih =>
    obtain ⟨found, stored⟩ := entry
    rw [List.map_cons, List.nodup_cons] at distinct
    by_cases here : found = key
    · subst here
      have untouched : (rest.map fun entry => if entry.1 = found then (found, value) else entry) =
          rest.map id := by
        apply List.map_congr_left
        intro entry listed
        have other : entry.1 ≠ found := by
          intro equal
          exact distinct.1 (equal ▸ List.mem_map.2 ⟨entry, listed, rfl⟩)
        rw [if_neg other, id]
      simp [alterEntries, untouched]
    · rw [alterEntries, if_neg here, ih distinct.2, List.map_cons, List.map_cons, if_neg here]
      by_cases later : key ∈ rest.map Prod.fst
      · rw [if_pos later, if_pos (List.mem_cons_of_mem _ later)]
      · have absent : key ∉ found :: rest.map Prod.fst := by
          rw [List.mem_cons, not_or]
          exact ⟨Ne.symm here, later⟩
        rw [if_neg later, if_neg absent, List.cons_append]

/-- Inserting under distinct keys replaces the value in place, or puts the pair last. -/
theorem entries_insert (distinct : map.keys.Nodup) (key : κ) (value : α) :
    (map.insert key value).entries =
      if key ∈ map.keys then
        map.entries.map fun entry => if entry.1 = key then (key, value) else entry
      else map.entries ++ [(key, value)] :=
  alterEntries_const key value distinct

/-! ## Many pairs -/

/-- Puts a key last, if there is one and it is not listed yet. -/
def addKey (key? : Option κ) (keys : List κ) : List κ :=
  match key? with
  | none => keys
  | some key => if key ∈ keys then keys else keys ++ [key]

theorem addKey_addKey (key? : Option κ) (keys : List κ) :
    addKey key? (addKey key? keys) = addKey key? keys := by
  cases key? with
  | none => rfl
  | some key =>
    rw [addKey, addKey]
    by_cases listed : key ∈ keys
    · rw [if_pos listed, if_pos listed]
    · rw [if_neg listed, if_pos (by simp)]

/-- Adding keys one after another lists each where it comes first. -/
theorem addKey_eraseDups (key? : Option κ) (keys : List κ) :
    addKey key? keys.eraseDups = (keys ++ key?.toList).eraseDups := by
  cases key? with
  | none => rw [addKey, Option.toList_none, List.append_nil]
  | some key =>
    rw [addKey, Option.toList_some, List.eraseDups_append]
    by_cases listed : key ∈ keys
    · have gone : [key].removeAll keys = [] := by simp [List.removeAll, listed]
      rw [if_pos (List.mem_eraseDups.2 listed), gone, List.eraseDups_nil, List.append_nil]
    · have kept : [key].removeAll keys = [key] := by simp [List.removeAll, listed]
      have absent : key ∉ keys.eraseDups := fun held => listed (List.mem_eraseDups.1 held)
      rw [if_neg absent, kept]
      simp [List.eraseDups_cons]

theorem insertAll_append (map : OrderedMap κ α) (pairs others : List (κ × α)) :
    map.insertAll (pairs ++ others) = (map.insertAll pairs).insertAll others :=
  List.foldl_append

/-- Pairs that are inserted one after another stand where their keys come first. -/
theorem keys_insertAll (pairs : List (κ × α)) :
    ((empty : OrderedMap κ α).insertAll pairs).keys = (pairs.map Prod.fst).eraseDups := by
  induction pairs using List.reverseRecOn with
  | nil => rfl
  | append_singleton pairs pair ih =>
    have last : addKey (some pair.1) (pairs.map Prod.fst).eraseDups =
        (pairs.map Prod.fst ++ [pair.1]).eraseDups := addKey_eraseDups _ _
    rw [insertAll_append, List.map_append, List.map_singleton, ← last, ← ih]
    exact keys_insert _ pair.1 pair.2

/-- Of pairs with the same key the last one counts. -/
theorem get?_insertAll (pairs : List (κ × α)) (key : κ) :
    ((empty : OrderedMap κ α).insertAll pairs).get? key =
      (pairs.reverse.find? fun pair => pair.1 = key).map Prod.snd := by
  induction pairs using List.reverseRecOn with
  | nil => rfl
  | append_singleton pairs pair ih =>
    rw [insertAll_append, List.reverse_append, List.reverse_singleton, List.singleton_append,
      List.find?_cons]
    change (OrderedMap.insert _ pair.1 pair.2).get? key = _
    rw [get?_insert, ih]
    by_cases same : key = pair.1
    · simp [same]
    · simp [same, Ne.symm same]

/-- A map has exactly the keys of some pairs, each where it comes first, with the values that
come last. -/
structure Collects {κ α : Type} [DecidableEq κ] (map : OrderedMap κ α)
    (pairs : List (κ × α)) : Prop where
  keys_eq : map.keys = (pairs.map Prod.fst).eraseDups
  get?_eq : ∀ key, map.get? key =
    (pairs.reverse.find? fun pair => pair.1 = key).map Prod.snd

theorem collects_insertAll {κ α : Type} [DecidableEq κ] (pairs : List (κ × α)) :
    (insertAll .empty pairs).Collects pairs :=
  ⟨keys_insertAll pairs, get?_insertAll pairs⟩

/-! ## Values over other values -/

omit [DecidableEq κ] in
theorem eraseDups_filter [BEq κ] [LawfulBEq κ] (keep : κ → Bool) (keys : List κ) :
    (keys.filter keep).eraseDups = keys.eraseDups.filter keep := by
  induction length : keys.length using Nat.strongRecOn generalizing keys with
  | ind size ih =>
    cases keys with
    | nil => rfl
    | cons key rest =>
      have fewer : (rest.filter fun other => !other == key).length < size := by
        rw [← length, List.length_cons]
        exact Nat.lt_succ_of_le (List.length_filter_le _ _)
      rw [List.eraseDups_cons, List.filter_cons, List.filter_cons, ← ih _ fewer _ rfl]
      by_cases kept : keep key = true
      · rw [if_pos kept, if_pos kept, List.eraseDups_cons, List.filter_comm]
      · have same : (rest.filter fun other => !other == key).filter keep = rest.filter keep := by
          rw [List.filter_filter]
          apply List.filter_congr
          intro other _
          by_cases equal : other = key
          · simp [equal, kept]
          · simp [equal]
        rw [if_neg kept, if_neg kept, same]

/-- Keys of two lists stand where they come first: all of the first list, then the new ones of the
second. -/
theorem eraseDups_append_filter (keys others : List κ) :
    (keys ++ others).eraseDups =
      keys.eraseDups ++ others.eraseDups.filter fun key => key ∉ keys.eraseDups := by
  rw [List.eraseDups_append, List.removeAll, eraseDups_filter]
  congr 1
  apply List.filter_congr
  intro key _
  simp

/-- The map has the values of `later` over those of `earlier`, and keys that are new put last. -/
structure Overrides (map earlier later : OrderedMap κ α) : Prop where
  keys_eq : map.keys = earlier.keys ++ later.keys.filter fun key => key ∉ earlier.keys
  get?_eq : ∀ key, map.get? key = (later.get? key).or (earlier.get? key)

/-- Pairs that are inserted after others override them. -/
theorem overrides_insertAll (pairs others : List (κ × α)) :
    ((empty : OrderedMap κ α).insertAll (pairs ++ others)).Overrides (empty.insertAll pairs)
      (empty.insertAll others) where
  keys_eq := by
    rw [keys_insertAll, keys_insertAll, keys_insertAll, List.map_append, eraseDups_append_filter]
  get?_eq key := by
    rw [get?_insertAll, get?_insertAll, get?_insertAll, List.reverse_append, List.find?_append,
      Option.map_or]

end Tdms.OrderedMap
