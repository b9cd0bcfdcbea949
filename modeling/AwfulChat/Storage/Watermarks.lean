import AwfulChat.Inbound.Claimable

/-!
# Held and saved watermarks

`_watermarkHolds` of `storage.ts` and what is done with it. While a room is
held, `setWatermark` keeps an advance in the room's map; `releaseWatermarks`
takes the map out and hands its entries to `commitWatermark`, which only ever
moves a saved watermark up.
-/

namespace AwfulChat.Storage

open Library Inbound Library.OrderedMap

set_option autoImplicit false

def maxHeldSenders : Nat := 4096

abbrev Holds := OrderedMap Room (OrderedMap Sender Int)

def holdWatermarks (holds : Holds) (room : Room) : Holds :=
  if holds.has room then holds else holds.set room .empty

/-- The room is let go at once; what waited is still to be written. -/
def releaseWatermarks (holds : Holds) (room : Room) : Holds × List (Sender × Int) :=
  match holds.get room with
  | none => (holds, [])
  | some waiting => (holds.delete room, waiting.entries)

/-- An advance of a held room: kept, raised or, past the cap, dropped. -/
def waitAdvance (waiting : OrderedMap Sender Int) (sender : Sender) (lamport : Int) :
    OrderedMap Sender Int :=
  if isSafeInteger lamport ∧ 0 ≤ lamport then
    match waiting.get sender with
    | none => if maxHeldSenders ≤ waiting.size then waiting else waiting.set sender lamport
    | some kept => if kept < lamport then waiting.set sender lamport else waiting
  else waiting

/-- `setWatermark` up to its await: the holds, and whether it goes on to commit. -/
def setWatermark (holds : Holds) (room : Room) (sender : Sender) (lamport : Int) : Holds × Bool :=
  match holds.get room with
  | none => (holds, true)
  | some waiting => (holds.set room (waitAdvance waiting sender lamport), false)

/-- The transaction of `commitWatermark`: only ever up. -/
def commitMark (marks : OrderedMap Sender Int) (sender : Sender) (lamport : Int) :
    OrderedMap Sender Int :=
  match marks.get sender with
  | some mark => if mark < lamport then marks.set sender lamport else marks
  | none => marks.set sender lamport

theorem commit_mark_get (marks : OrderedMap Sender Int) (sender other : Sender) (lamport : Int) :
    (commitMark marks sender lamport).get other =
      if other = sender ∧ (∀ mark, marks.get sender = some mark → mark < lamport) then some lamport
      else marks.get other := by
  unfold commitMark
  cases found : marks.get sender with
  | none =>
    dsimp only
    rw [get_set]
    by_cases hit : other = sender <;> simp [hit]
  | some mark =>
    dsimp only
    by_cases less : mark < lamport
    · rw [if_pos less, get_set]
      by_cases hit : other = sender <;> simp [hit, less]
    · rw [if_neg less, if_neg]
      rintro ⟨-, above⟩
      exact less (above mark rfl)

section Holds

variable (holds : Holds) (room other : Room)

theorem hold_has : (holdWatermarks holds room).has other = (decide (other = room) || holds.has other) := by
  unfold holdWatermarks
  split_ifs with held
  · by_cases hit : other = room
    · subst hit
      simpa using held
    · simp [hit]
  · unfold OrderedMap.has
    rw [get_set]
    by_cases hit : other = room <;> simp [hit]

theorem release_has :
    (releaseWatermarks holds room).1.has other = (!decide (other = room) && holds.has other) := by
  unfold releaseWatermarks
  cases found : holds.get room with
  | none =>
    by_cases hit : other = room
    · subst hit
      simp [OrderedMap.has, found]
    · simp [hit]
  | some waiting =>
    unfold OrderedMap.has
    dsimp only
    rw [get_delete]
    by_cases hit : other = room <;> simp [hit]

theorem set_watermark_has (sender : Sender) (lamport : Int) :
    (setWatermark holds room sender lamport).1.has other = holds.has other := by
  unfold setWatermark
  cases found : holds.get room with
  | none => rfl
  | some waiting =>
    unfold OrderedMap.has
    dsimp only
    rw [get_set]
    by_cases hit : other = room
    · subst hit
      simp [found]
    · simp [hit]

theorem set_watermark_commits (sender : Sender) (lamport : Int) :
    (setWatermark holds room sender lamport).2 = !holds.has room := by
  unfold setWatermark OrderedMap.has
  cases holds.get room <;> rfl

end Holds

end AwfulChat.Storage
