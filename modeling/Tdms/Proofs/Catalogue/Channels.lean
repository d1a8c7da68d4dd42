import Mathlib
import Tdms.Catalogue.Build
import Tdms.Proofs.OrderedMap

/-!
What the operations of a catalogue do to its channels.

`channelAt` is the channel under two names, or the channel as the file would
first name it. Every operation is described by the channels it leaves behind;
`Catalogue.Named` says that groups and channels stand under their own names,
and every operation keeps it.
-/

namespace Tdms

namespace OrderedMap

variable {κ α : Type} [DecidableEq κ] {map : OrderedMap κ α} {key : κ}

/-- A property of all values, each with its key, survives a change that keeps it. -/
theorem forall_alter {good : κ → α → Prop} {fresh : α} {change : α → α}
    (all : ∀ other value, map.get? other = some value → good other value)
    (start : good key fresh) (kept : ∀ value, good key value → good key (change value)) :
    ∀ other value, (map.alter key fresh change).get? other = some value → good other value := by
  intro other value found
  rw [get?_alter] at found
  split at found
  · rename_i same
    cases found
    rw [same]
    apply kept
    cases present : map.get? key with
    | none => exact start
    | some stored => exact all key stored present
  · exact all other value found

theorem forall_modify {good : κ → α → Prop} {change : α → α}
    (all : ∀ other value, map.get? other = some value → good other value)
    (kept : ∀ value, good key value → good key (change value)) :
    ∀ other value, (map.modify key change).get? other = some value → good other value := by
  intro other value found
  rw [get?_modify] at found
  split at found
  · rename_i same
    obtain ⟨stored, present, rfl⟩ := Option.map_eq_some_iff.1 found
    rw [same]
    exact kept stored (all key stored present)
  · exact all other value found

end OrderedMap

namespace Catalogue

variable {catalogue : Catalogue} {owner name : String} {change : Channel → Channel}

/-- A channel, as the file would first name it if it has not. -/
def channelAt (catalogue : Catalogue) (owner name : String) : Channel :=
  (catalogue.channel? owner name).getD (.named owner name)

theorem channelAt_of_channel? {channel : Channel}
    (found : catalogue.channel? owner name = some channel) :
    catalogue.channelAt owner name = channel := by
  rw [channelAt, found]
  rfl

/-! ## Channels after a change -/

theorem get?_channels_getD (catalogue : Catalogue) (owner name : String) :
    ((catalogue.groups.get? owner).getD (.named owner)).channels.get? name =
      catalogue.channel? owner name := by
  unfold channel?
  cases catalogue.groups.get? owner with
  | none => rfl
  | some group => rfl

theorem channel?_alterChannel (catalogue : Catalogue) (owner name : String)
    (change : Channel → Channel) (group channel : String) :
    (catalogue.alterChannel owner name change).channel? group channel =
      if group = owner ∧ channel = name then some (change (catalogue.channelAt owner name))
      else catalogue.channel? group channel := by
  rw [channel?, alterChannel, alterGroup, OrderedMap.get?_alter]
  by_cases sameGroup : group = owner
  · subst sameGroup
    rw [if_pos rfl, Option.bind_some, OrderedMap.get?_alter, get?_channels_getD,
      get?_channels_getD, channelAt]
    by_cases sameName : channel = name
    · rw [if_pos sameName, if_pos ⟨rfl, sameName⟩]
    · rw [if_neg sameName, if_neg fun both => sameName both.2]
  · rw [if_neg sameGroup, if_neg fun both => sameGroup both.1, channel?]

/-- A change of a group that keeps its channels keeps all channels. -/
theorem channel?_alterGroup {change : Group → Group}
    (kept : ∀ group, (change group).channels = group.channels) (name group channel : String) :
    (catalogue.alterGroup name change).channel? group channel =
      catalogue.channel? group channel := by
  rw [channel?, alterGroup, OrderedMap.get?_alter]
  by_cases same : group = name
  · subst same
    rw [if_pos rfl, Option.bind_some, kept, get?_channels_getD]
  · rw [if_neg same, channel?]

theorem channel?_modifyChannel (catalogue : Catalogue) (owner name : String)
    (change : Channel → Channel) (group channel : String) :
    (catalogue.modifyChannel owner name change).channel? group channel =
      if group = owner ∧ channel = name then (catalogue.channel? owner name).map change
      else catalogue.channel? group channel := by
  rw [channel?, modifyChannel, OrderedMap.get?_modify]
  by_cases sameGroup : group = owner
  · subst sameGroup
    rw [if_pos rfl, channel?, channel?]
    cases catalogue.groups.get? group with
    | none => simp
    | some found =>
      rw [Option.map_some, Option.bind_some, OrderedMap.get?_modify, Option.bind_some,
        Option.bind_some]
      by_cases sameName : channel = name
      · rw [if_pos sameName, if_pos ⟨rfl, sameName⟩]
      · rw [if_neg sameName, if_neg fun both => sameName both.2]
  · rw [if_neg sameGroup, if_neg fun both => sameGroup both.1, channel?]

theorem channelAt_alterChannel (catalogue : Catalogue) (owner name : String)
    (change : Channel → Channel) (group channel : String) :
    (catalogue.alterChannel owner name change).channelAt group channel =
      if group = owner ∧ channel = name then change (catalogue.channelAt owner name)
      else catalogue.channelAt group channel := by
  rw [channelAt, channel?_alterChannel]
  split
  · rfl
  · rfl

/-! ## Names -/

end Catalogue

/-- A group that stands under `key`: it has this name, and its channels stand under theirs. -/
structure Group.Named (key : String) (group : Group) : Prop where
  name_eq : group.name = key
  distinct : group.channels.keys.Nodup
  channel_named : ∀ name channel, group.channels.get? name = some channel →
    channel.group = key ∧ channel.name = name

/-- All groups and channels stand under their own names. -/
structure Catalogue.Named (catalogue : Catalogue) : Prop where
  distinct : catalogue.groups.keys.Nodup
  group_named : ∀ key group, catalogue.groups.get? key = some group → group.Named key

theorem Group.named_named (name : String) : (Group.named name).Named name where
  name_eq := rfl
  distinct := List.nodup_nil
  channel_named := by
    intro name channel found
    cases found

namespace Catalogue

variable {catalogue : Catalogue} {owner name : String} {change : Channel → Channel}

theorem Named.empty : (Catalogue.empty).Named where
  distinct := List.nodup_nil
  group_named := by
    intro key group found
    cases found

theorem Named.channel (named : catalogue.Named) {channel : Channel}
    (found : catalogue.channel? owner name = some channel) :
    channel.group = owner ∧ channel.name = name := by
  obtain ⟨group, listed, inside⟩ := Option.bind_eq_some_iff.1 found
  exact (named.group_named owner group listed).channel_named name channel inside

/-- Changing a group keeps names if it keeps the names inside the group. -/
theorem Named.alterGroup (named : catalogue.Named) (name : String) {change : Group → Group}
    (kept : ∀ group : Group, group.Named name → (change group).Named name) :
    (catalogue.alterGroup name change).Named where
  distinct := OrderedMap.nodup_keys_alter named.distinct _ _ _
  group_named := OrderedMap.forall_alter named.group_named (Group.named_named name) kept

/-- Changing a channel keeps names if it keeps those of the channel. -/
theorem Named.alterChannel (named : catalogue.Named) (owner name : String)
    (kept : ∀ channel, (change channel).group = channel.group ∧
      (change channel).name = channel.name) :
    (catalogue.alterChannel owner name change).Named := by
  refine named.alterGroup owner fun group inside => ?_
  refine ⟨inside.name_eq, OrderedMap.nodup_keys_alter inside.distinct _ _ _, ?_⟩
  refine OrderedMap.forall_alter inside.channel_named ⟨rfl, rfl⟩ fun channel names => ?_
  rw [(kept channel).1, (kept channel).2]
  exact names

theorem Named.modifyChannel (named : catalogue.Named) (owner name : String)
    (kept : ∀ channel, (change channel).group = channel.group ∧
      (change channel).name = channel.name) :
    (catalogue.modifyChannel owner name change).Named where
  distinct := by
    rw [Catalogue.modifyChannel, OrderedMap.keys_modify]
    exact named.distinct
  group_named := by
    refine OrderedMap.forall_modify named.group_named fun group inside => ?_
    refine ⟨inside.name_eq, ?_, ?_⟩
    · rw [OrderedMap.keys_modify]
      exact inside.distinct
    · refine OrderedMap.forall_modify inside.channel_named fun channel names => ?_
      rw [(kept channel).1, (kept channel).2]
      exact names

end Catalogue

end Tdms
