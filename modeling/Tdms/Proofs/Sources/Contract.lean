import Mathlib
import Tdms.Proofs.Layout.Checked
import Tdms.Proofs.Window

/-!
One contract for reads by position.

A read owes the bytes it was asked for, unless the content ends before it is
full, and then a fault that says so. Bytes in memory and mapped files check the
range that is asked for at once. A file that is read by position is asked again
and again, until the read is full or the system has no more to give: `fill` is
that loop, over all that the system may say to it.

`contract_of_size_lt` states where the three of them keep the contract and what
they do where they do not. Bytes in memory and mapped files refuse to read
nothing behind the end of the content. Of a file, the system refuses reads that
end behind all positions that a file can have.
-/

namespace Tdms.Source

variable {content : ByteArray} {offset wanted : Nat}

/-! ## The contract -/

/-- The fault says that the content ends before the read is full. -/
def Fault.EndsEarly : Fault → Prop
  | .pastEnd _ _ _ | .unfilled => True
  | _ => False

/-- What a source owes to a read of `wanted` bytes from `offset` on. -/
inductive Honours (content : ByteArray) (offset wanted : Nat) : Except Fault ByteArray → Prop
  /-- The content does not end before the read is full. -/
  | full (reaches : wanted = 0 ∨ offset + wanted ≤ content.size) :
    Honours content offset wanted (.ok (window content offset wanted))
  | ends {fault : Fault} (missing : ¬ (wanted = 0 ∨ offset + wanted ≤ content.size))
      (early : fault.EndsEarly) : Honours content offset wanted (.error fault)

/-! ## Ranges that are checked at once -/

/-- Where a range starts and stops, if its end fits 64 bits and does not lie behind `length`. -/
def checkedRange? (offset wanted length : Nat) : Option (Nat × Nat) :=
  ((word? (offset + wanted)).filter (· ≤ length)).map fun stop => (offset, stop)

/-- `readChecked`, with the end of the range counted in 64 bits. -/
def checkedRead (content : ByteArray) (offset wanted : Nat) : Except Fault ByteArray :=
  match checkedRange? offset wanted content.size with
  | some (start, stop) => .ok (content.extract start stop)
  | none => .error (.pastEnd wanted offset content.size)

/-- A range whose end does not fit 64 bits lies outside of any content. -/
theorem readChecked_eq_checkedRead (sized : content.size < UInt64.size) (offset wanted : Nat) :
    readChecked content offset wanted = checkedRead content offset wanted := by
  rw [readChecked, checkedRead, checkedRange?]
  by_cases inside : offset + wanted ≤ content.size
  · rw [if_pos inside, word?_of_lt (inside.trans_lt sized), Option.filter_some,
      if_pos (decide_eq_true inside)]
    rfl
  · have nowhere : (word? (offset + wanted)).filter (· ≤ content.size) = none := by
      rw [Option.filter_eq_none_iff]
      intro stop found
      obtain ⟨-, rfl⟩ := word?_eq_some_iff.1 found
      rwa [decide_eq_true_eq]
    rw [if_neg inside, nowhere]
    rfl

/-! ## Files that are read by position -/

/-- What the operating system says to one positioned read of a file. -/
inductive Reply where
  /-- The next bytes of the file, none at its end. -/
  | bytes (found : ByteArray)
  /-- A signal came before there were any bytes. -/
  | interrupted
  | refused (fault : Fault)

/-- Whether the reply is one that the reader does not ask again for. -/
def Reply.isAnswer : Reply → Bool
  | .interrupted => false
  | .bytes _ | .refused _ => true

/-- Asks for what is missing until `room` bytes more are found. There is no outcome as long as the
reader waits for a reply. -/
def fill : (replies : List Reply) → (found : ByteArray) → (room : Nat) →
    Option (Except Fault ByteArray)
  | [], found, room => if room = 0 then some (.ok found) else none
  | reply :: rest, found, room =>
    if room = 0 then some (.ok found)
    else
      match reply with
      | .bytes more =>
        if more.isEmpty then some (.error .unfilled)
        else fill rest (found ++ more) (room - more.size)
      | .interrupted => fill rest found room
      | .refused fault => some (.error fault)

/-- What the operating system may say, one reply after another, to a reader that is `room` bytes
short at `offset`. -/
inductive Truthful (content : ByteArray) : (offset room : Nat) → List Reply → Prop
  | silent {offset room : Nat} : Truthful content offset room []
  /-- Nothing is asked for, and replies play no part. -/
  | full {offset : Nat} {replies : List Reply} : Truthful content offset 0 replies
  /-- Some of the bytes from `offset` on, perhaps fewer than there are. -/
  | bytes {offset room count : Nat} {rest : List Reply}
      (addressable : offset + room < positionLimit) (positive : 0 < count) (fits : count ≤ room)
      (inside : offset + count ≤ content.size)
      (later : Truthful content (offset + count) (room - count) rest) :
    Truthful content offset room (.bytes (window content offset count) :: rest)
  | ended {offset room : Nat} {rest : List Reply} (addressable : offset + room < positionLimit)
      (asked : 0 < room) (past : content.size ≤ offset) :
    Truthful content offset room (.bytes .empty :: rest)
  | interrupted {offset room : Nat} {rest : List Reply} (asked : 0 < room)
      (later : Truthful content offset room rest) :
    Truthful content offset room (.interrupted :: rest)
  | refused {offset room : Nat} {rest : List Reply} (beyond : positionLimit ≤ offset + room)
      (asked : 0 < room) : Truthful content offset room (.refused .unaddressable :: rest)

theorem fill_zero (replies : List Reply) (found : ByteArray) :
    fill replies found 0 = some (.ok found) := by
  cases replies with
  | nil => rfl
  | cons reply rest => rfl

theorem readUntilFull_of_full (full : (window content offset wanted).size = wanted) :
    readUntilFull content offset wanted = .ok (window content offset wanted) :=
  if_pos full

theorem readUntilFull_of_ended (missing : ¬ (wanted = 0 ∨ offset + wanted ≤ content.size))
    (addressable : offset + wanted < positionLimit) :
    readUntilFull content offset wanted = .error .unfilled := by
  have short : ¬ (window content offset wanted).size = wanted := by
    rwa [size_window_eq_iff]
  rw [readUntilFull, if_neg short, if_neg (Nat.not_le.2 addressable)]

theorem readUntilFull_of_beyond (missing : ¬ (wanted = 0 ∨ offset + wanted ≤ content.size))
    (beyond : positionLimit ≤ offset + wanted) :
    readUntilFull content offset wanted = .error .unaddressable := by
  have short : ¬ (window content offset wanted).size = wanted := by
    rwa [size_window_eq_iff]
  rw [readUntilFull, if_neg short, if_pos beyond]

/-- A reader that has found the first `length` bytes from `start` on comes to what one read of all
bytes does, however the system cuts them. As long as it waits, it has had fewer answers than it is
short of bytes. -/
theorem fill_eq_readUntilFull (sized : content.size < positionLimit) (start length : Nat)
    {room : Nat} {replies : List Reply} (truthful : Truthful content (start + length) room replies)
    (held : (window content start length).size = length) :
    fill replies (window content start length) room =
        some (readUntilFull content start (length + room)) ∨
      fill replies (window content start length) room = none ∧
        replies.countP Reply.isAnswer < room := by
  -- by induction on the replies: what is found and what is missing always end at the same place
  generalize place : start + length = offset at truthful
  induction truthful generalizing length with
  | @silent _ room =>
    rcases Nat.eq_zero_or_pos room with rfl | short
    · rw [fill_zero, Nat.add_zero, readUntilFull_of_full held]
      exact .inl rfl
    · exact .inr ⟨if_neg short.ne', short⟩
  | full =>
    rw [fill_zero, Nat.add_zero, readUntilFull_of_full held]
    exact .inl rfl
  | @bytes _ room count rest addressable positive fits inside later ih =>
    subst place
    have size : (window content (start + length) count).size = count := size_window inside
    have nonempty : ¬ (window content (start + length) count).isEmpty = true := by
      simp only [ByteArray.isEmpty, size, beq_iff_eq]
      exact positive.ne'
    have grown : (window content start (length + count)).size = length + count :=
      size_window (by omega)
    have whole : length + count + (room - count) = length + room := by omega
    rw [fill, if_neg (by omega), if_neg nonempty, window_append, size, ← whole,
      List.countP_cons_of_pos rfl]
    rcases ih (length + count) grown (Nat.add_assoc ..).symm with found | ⟨waiting, few⟩
    · exact .inl found
    · exact .inr ⟨waiting, by omega⟩
  | ended addressable asked past =>
    subst place
    rw [fill, if_neg asked.ne', readUntilFull_of_ended (by omega) (by omega)]
    exact .inl rfl
  | interrupted asked later ih =>
    rw [List.countP_cons_of_neg Bool.false_ne_true, fill, if_neg asked.ne']
    exact ih length held place
  | refused beyond asked =>
    subst place
    rw [fill, if_neg asked.ne', readUntilFull_of_beyond (by omega) (by omega)]
    exact .inl rfl

/-! ## Where the contract is kept -/

/-- How the bytes of a file of `content` are read, in memory, mapped and by position. -/
structure Contract (content : ByteArray) (path : String) (offset wanted : Nat) : Prop where
  memory_eq : (ofBytes content).read offset wanted = checkedRead content offset wanted
  mapped_eq : (mapped path content).read offset wanted = (ofBytes content).read offset wanted
  /-- Whatever the system says, a reader by position comes to the answer of its source, or waits
  and has had fewer answers than it wants bytes. -/
  buffered_eq : ∀ replies, Truthful content offset wanted replies →
    fill replies .empty wanted = some ((buffered path content).read offset wanted) ∨
      fill replies .empty wanted = none ∧ replies.countP Reply.isAnswer < wanted
  /-- In memory the contract is kept, unless nothing is to be read behind the end. -/
  memory_iff : Honours content offset wanted ((ofBytes content).read offset wanted) ↔
    0 < wanted ∨ offset ≤ content.size
  /-- By position it is kept, unless the read ends where no file does. -/
  buffered_iff : Honours content offset wanted ((buffered path content).read offset wanted) ↔
    wanted = 0 ∨ offset + wanted < positionLimit
  memory_refuses : wanted = 0 → content.size < offset →
    (ofBytes content).read offset wanted = .error (.pastEnd 0 offset content.size)
  buffered_refuses : 0 < wanted → positionLimit ≤ offset + wanted →
    (buffered path content).read offset wanted = .error .unaddressable

theorem honours_readChecked_iff :
    Honours content offset wanted (readChecked content offset wanted) ↔
      0 < wanted ∨ offset ≤ content.size := by
  unfold readChecked
  split
  · rename_i inside
    exact iff_of_true (.full (.inr inside)) (.inr (by omega))
  · rename_i outside
    constructor
    · intro honoured
      cases honoured with
      | ends missing _ => omega
    · intro asked
      exact .ends (by omega) trivial

theorem honours_readUntilFull_iff (sized : content.size < positionLimit) :
    Honours content offset wanted (readUntilFull content offset wanted) ↔
      wanted = 0 ∨ offset + wanted < positionLimit := by
  by_cases reaches : wanted = 0 ∨ offset + wanted ≤ content.size
  · rw [readUntilFull_of_full ((size_window_eq_iff ..).2 reaches)]
    exact iff_of_true (.full reaches) (by omega)
  · by_cases addressable : offset + wanted < positionLimit
    · rw [readUntilFull_of_ended reaches addressable]
      exact iff_of_true (.ends reaches trivial) (.inr addressable)
    · rw [readUntilFull_of_beyond reaches (Nat.not_lt.1 addressable)]
      refine iff_of_false (fun honoured => ?_) (by omega)
      cases honoured with
      | ends _ early => exact early

/-- Files of any content that a file can have keep the contract, but for two kinds of reads: of
nothing behind the end where the range is checked at once, and of some bytes behind all positions
of files where they are read by position. -/
theorem contract_of_size_lt (sized : content.size < positionLimit) (path : String)
    (offset wanted : Nat) : Contract content path offset wanted where
  memory_eq := readChecked_eq_checkedRead (sized.trans (by decide)) offset wanted
  mapped_eq := rfl
  buffered_eq replies truthful := by
    have nothing : window content offset 0 = .empty := ByteArray.extract_same
    have filled := fill_eq_readUntilFull sized offset 0 truthful
      ((size_window_eq_iff ..).2 (.inl rfl))
    rwa [nothing, Nat.zero_add] at filled
  memory_iff := honours_readChecked_iff
  buffered_iff := honours_readUntilFull_iff sized
  memory_refuses nothing past := by
    subst nothing
    exact if_neg (Nat.not_le.2 past)
  buffered_refuses asked beyond := by
    have missing : ¬ (wanted = 0 ∨ offset + wanted ≤ content.size) := by omega
    exact readUntilFull_of_beyond missing beyond

/-- Four bytes, each its own place. -/
def fourBytes : ByteArray :=
  ⟨#[0, 1, 2, 3]⟩

/-- The last three of them in two parts, with a signal between the parts. -/
def partialReplies : List Reply :=
  [.bytes (window fourBytes 1 1), .interrupted, .bytes (window fourBytes 2 2)]

theorem truthful_partialReplies : Truthful fourBytes 1 3 partialReplies :=
  .bytes (by decide) (by decide) (by decide) (by decide)
    (.interrupted (by decide)
      (.bytes (by decide) (by decide) (by decide) (by decide) .full))

theorem contract_of_fourBytes :
    fourBytes.size < positionLimit ∧ Contract fourBytes "input.tdms" 1 3 ∧
      Truthful fourBytes 1 3 partialReplies ∧
      fill partialReplies .empty 3 = some ((buffered "input.tdms" fourBytes).read 1 3) := by
  have sized : fourBytes.size < positionLimit := by decide
  have contract := contract_of_size_lt sized "input.tdms" 1 3
  rcases contract.buffered_eq partialReplies truthful_partialReplies with found | ⟨waiting, -⟩
  · exact ⟨sized, contract, truthful_partialReplies, found⟩
  · cases waiting

/-- Behind the end of the four bytes nothing can be read by position, but not in memory. -/
theorem not_honours_nothing_past_end :
    5 < positionLimit ∧ ¬ Honours fourBytes 5 0 ((ofBytes fourBytes).read 5 0) ∧
      ¬ Honours fourBytes 5 0 ((mapped "input.tdms" fourBytes).read 5 0) ∧
      Honours fourBytes 5 0 ((buffered "input.tdms" fourBytes).read 5 0) := by
  have refused : ¬ Honours fourBytes 5 0 (readChecked fourBytes 5 0) := by
    intro honoured
    cases honoured with
    | ends missing _ => exact missing (.inl rfl)
  exact ⟨by decide, refused, refused, .full (.inl rfl)⟩

end Tdms.Source
