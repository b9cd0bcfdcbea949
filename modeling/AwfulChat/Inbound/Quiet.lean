import AwfulChat.Inbound.Model

/-!
# Steps that leave the claims alone

Most of what `InboundPushes` does is about holding rooms: waits, room records,
timers, the maps a push is registered in. None of it changes which frames a
push took in, what it may claim, or what was claimed. `Quiet` says so once, and
every operation that only holds or lets go is shown to be quiet.
-/

namespace AwfulChat.Inbound

open Library SyncPush List

set_option autoImplicit false

variable {Proc : Type}

/-- A push without the fields that only hold rooms and settle promises. -/
def Push.core (push : Push) : Push :=
  { push with timer := false, ended := false, settled := false }

/-- Calls that neither open a push, report on a frame nor claim a watermark. -/
def Minor : Call Proc → Prop
  | .opened _ _ _ => False
  | .outcome _ _ _ => False
  | .commit _ _ _ _ => False
  | _ => True

theorem log_extends {first second third : List (Call Proc)}
    (left : ∃ extra, second = extra ++ first ∧ ∀ call ∈ extra, Minor call)
    (right : ∃ extra, third = extra ++ second ∧ ∀ call ∈ extra, Minor call) :
    ∃ extra, third = extra ++ first ∧ ∀ call ∈ extra, Minor call := by
  obtain ⟨earlier, earlierLog, earlierMinor⟩ := left
  obtain ⟨later, laterLog, laterMinor⟩ := right
  refine ⟨later ++ earlier, by rw [laterLog, earlierLog, append_assoc], ?_⟩
  intro call mem
  rcases mem_append.mp mem with new | old
  · exact laterMinor call new
  · exact earlierMinor call old

structure Quiet (before after : State Proc) : Prop where
  job : after.job = before.job
  jobCount : after.jobCount = before.jobCount
  pushCount : after.pushCount = before.pushCount
  core : ∀ push, (after.push push).core = (before.push push).core
  registered : ∀ key push, after.pushes.get key = some push → before.pushes.get key = some push
  log : ∃ extra, after.log = extra ++ before.log ∧ ∀ call ∈ extra, Minor call

namespace Quiet

variable {first second third : State Proc}

theorem refl (state : State Proc) : Quiet state state where
  job := rfl
  jobCount := rfl
  pushCount := rfl
  core := fun _ => rfl
  registered := fun _ _ found => found
  log := ⟨[], rfl, by simp⟩

theorem trans (left : Quiet first second) (right : Quiet second third) : Quiet first third where
  job := right.job.trans left.job
  jobCount := right.jobCount.trans left.jobCount
  pushCount := right.pushCount.trans left.pushCount
  core := fun push => (right.core push).trans (left.core push)
  registered := fun key push found => left.registered key push (right.registered key push found)
  log := log_extends left.log right.log

section Fields

variable {before after : State Proc} (quiet : Quiet before after) (push : Nat)
include quiet

theorem field {Value : Type} (project : Push → Value)
    (kept : ∀ record : Push, project record.core = project record) :
    project (after.push push) = project (before.push push) := by
  rw [← kept, quiet.core push, kept]

theorem key : (after.push push).key = (before.push push).key :=
  quiet.field push Push.key fun _ => rfl

theorem room : (after.push push).room = (before.push push).room :=
  quiet.field push Push.room fun _ => rfl

theorem next : (after.push push).next = (before.push push).next :=
  quiet.field push Push.next fun _ => rfl

theorem total : (after.push push).total = (before.push push).total :=
  quiet.field push Push.total fun _ => rfl

theorem broken : (after.push push).broken = (before.push push).broken :=
  quiet.field push Push.broken fun _ => rfl

theorem isPartial : (after.push push).isPartial = (before.push push).isPartial :=
  quiet.field push Push.isPartial fun _ => rfl

theorem floors : (after.push push).floors = (before.push push).floors :=
  quiet.field push Push.floors fun _ => rfl

theorem overflowed : (after.push push).overflowed = (before.push push).overflowed :=
  quiet.field push Push.overflowed fun _ => rfl

theorem chain : (after.push push).chain = (before.push push).chain :=
  quiet.field push Push.chain fun _ => rfl

omit push in
theorem log_mem {call : Call Proc} (major : ¬Minor call) :
    call ∈ after.log ↔ call ∈ before.log := by
  obtain ⟨extra, extended, minor⟩ := quiet.log
  rw [extended, mem_append]
  exact ⟨fun mem => mem.resolve_left fun new => major (minor call new), Or.inr⟩

end Fields

end Quiet

/-- Only rooms, their records, waits, nonces and the history moved. -/
structure HoldOnly (before after : State Proc) : Prop where
  push : after.push = before.push
  pushCount : after.pushCount = before.pushCount
  pushes : after.pushes = before.pushes
  claims : after.claims = before.claims
  job : after.job = before.job
  jobCount : after.jobCount = before.jobCount
  log : ∃ extra, after.log = extra ++ before.log ∧ ∀ call ∈ extra, Minor call

namespace HoldOnly

variable {first second third : State Proc}

theorem refl (state : State Proc) : HoldOnly state state :=
  ⟨rfl, rfl, rfl, rfl, rfl, rfl, [], rfl, by simp⟩

theorem trans (left : HoldOnly first second) (right : HoldOnly second third) :
    HoldOnly first third where
  push := right.push.trans left.push
  pushCount := right.pushCount.trans left.pushCount
  pushes := right.pushes.trans left.pushes
  claims := right.claims.trans left.claims
  job := right.job.trans left.job
  jobCount := right.jobCount.trans left.jobCount
  log := log_extends left.log right.log

theorem quiet (holds : HoldOnly first second) : Quiet first second where
  job := holds.job
  jobCount := holds.jobCount
  pushCount := holds.pushCount
  core := fun _ => by rw [holds.push]
  registered := fun _ _ found => by rwa [holds.pushes] at found
  log := holds.log

end HoldOnly

variable (state : State Proc) (push : Nat)

theorem hold_note (call : Call Proc) (minor : Minor call) :
    HoldOnly state (note state call) :=
  ⟨rfl, rfl, rfl, rfl, rfl, rfl, [call], rfl, by simpa using minor⟩

theorem quiet_note (call : Call Proc) (minor : Minor call) :
    Quiet state (note state call) :=
  (hold_note state call minor).quiet

theorem quiet_of_same {before after : State Proc} (job : after.job = before.job)
    (jobCount : after.jobCount = before.jobCount) (pushCount : after.pushCount = before.pushCount)
    (push : after.push = before.push) (pushes : after.pushes = before.pushes)
    (log : after.log = before.log) : Quiet before after where
  job := job
  jobCount := jobCount
  pushCount := pushCount
  core := fun _ => by rw [push]
  registered := fun _ _ found => by rwa [pushes] at found
  log := ⟨[], by simpa using log, by simp⟩

theorem hold_update_record (record : Nat)
    (change : RoomState → RoomState) : HoldOnly state (updateRecord state record change) :=
  ⟨rfl, rfl, rfl, rfl, rfl, rfl, [], rfl, by simp⟩

theorem hold_clear_wait (nonce : Nat) :
    HoldOnly state (clearWait state nonce) :=
  ⟨rfl, rfl, rfl, rfl, rfl, rfl, [], rfl, by simp⟩

theorem hold_room (name : Room) : HoldOnly state (room state name).2 := by
  unfold room
  split
  · exact hold_note state _ trivial
  · exact ⟨rfl, rfl, rfl, rfl, rfl, rfl, [.hold name], rfl, by simp [Minor]⟩

theorem hold_settle (name : Room) (cause : Option Nat) :
    HoldOnly state (settle state name cause) := by
  unfold settle
  split_ifs
  · exact ⟨rfl, rfl, rfl, rfl, rfl, rfl, [.release cause name], rfl, by simp [Minor]⟩
  · exact HoldOnly.refl state

theorem hold_end_wait (record : Nat) (peer : Peer) (name : Room) :
    HoldOnly state (endWait state record peer name) :=
  (hold_update_record state record _).trans (hold_settle _ name none)

theorem hold_answered (peer : Peer) (name : Room) (nonce : Option Nat) :
    HoldOnly state (answered state peer name nonce) := by
  have told := hold_note state (.answered peer name nonce) trivial
  unfold answered
  dsimp only
  split
  · exact told
  · split
    · exact told
    · split_ifs
      · exact told
      · exact (told.trans (hold_clear_wait _ _)).trans (hold_end_wait _ _ peer name)

theorem hold_clear_before (record : Nat) (peer : Peer) :
    HoldOnly state (clearBefore state record peer) := by
  unfold clearBefore
  split
  · exact hold_clear_wait state _
  · exact HoldOnly.refl state

theorem hold_expect (peer : Peer) (name : Room) :
    HoldOnly state (expect state peer name).2 := by
  have cleared := (hold_room state name).trans
    (hold_clear_before _ (room state name).1 peer)
  refine HoldOnly.trans ?_ (hold_note _ _ trivial)
  refine HoldOnly.trans ?_ (hold_update_record _ _ _)
  exact cleared.trans ⟨rfl, rfl, rfl, rfl, rfl, rfl, [], rfl, by simp⟩

theorem hold_expect_timer (wait : Wait) :
    HoldOnly state (expectTimer state wait) := by
  have fired := hold_clear_wait state wait.nonce
  unfold expectTimer
  dsimp only
  split_ifs
  · refine HoldOnly.trans ?_ (hold_end_wait _ _ _ _)
    exact fired.trans (hold_note _ (.lapsed wait.peer wait.room wait.nonce) trivial)
  · exact fired

theorem hold_leave_room (record : Nat)
    (completed : Bool) : HoldOnly state (leaveRoom state push record completed) :=
  (hold_update_record state record _).trans (hold_note _ (.owed push _ _) trivial)

theorem quiet_update_push (change : Push → Push)
    (same : (change (state.push push)).core = (state.push push).core) :
    Quiet state (updatePush state push change) where
  job := rfl
  jobCount := rfl
  pushCount := rfl
  core := by
    intro other
    by_cases hit : other = push
    · subst other
      simpa [updatePush] using same
    · simp [updatePush, hit]
  registered := fun _ _ found => found
  log := ⟨[], rfl, by simp⟩

theorem quiet_unregister :
    Quiet state (unregister state push) := by
  unfold unregister
  split_ifs
  · refine ⟨rfl, rfl, rfl, fun _ => rfl, ?_, ⟨[], rfl, by simp⟩⟩
    intro key other found
    simp only [OrderedMap.get_delete] at found
    split_ifs at found
    exact found
  · exact Quiet.refl state

theorem quiet_settle_done :
    Quiet state (settleDone state push) := by
  unfold settleDone
  split_ifs
  · refine Quiet.trans ?_ (quiet_update_push _ push _ rfl)
    exact quiet_of_same rfl rfl rfl rfl rfl rfl
  · exact quiet_update_push state push _ rfl

theorem quiet_arm : Quiet state (arm state push) :=
  quiet_update_push state push _ rfl

theorem quiet_claim : Quiet state (claim state push) := by
  unfold claim
  dsimp only
  split_ifs
  · exact Quiet.refl state
  · exact quiet_of_same rfl rfl rfl rfl rfl rfl

theorem quiet_reset : Quiet state (reset state) := by
  refine Quiet.trans ?_ (quiet_note _ _ trivial)
  refine ⟨rfl, rfl, rfl, ?_, ?_, ⟨[], rfl, by simp⟩⟩
  · intro push
    dsimp only
    split_ifs <;> rfl
  · intro key push found
    simp at found

theorem quiet_close_push (completed : Bool) :
    Quiet state (closePush state push completed) := by
  have past := ((quiet_update_push state push
      (fun record => { record with ended := true, timer := false }) rfl).trans
    (quiet_unregister _ push)).trans
      (quiet_note _ (.ended push (state.push push).room completed) trivial)
  unfold closePush
  dsimp only
  split_ifs
  · exact past.trans (quiet_claim _ push)
  · exact past

theorem end_push_quiet (job : Nat) (push : Nat) (completed : Bool) :
    ∃ past stage, Quiet state past ∧ endPush state job push completed = setStage past job stage ∧
      (stage = .done ∨ stage = .releasing) := by
  have closed := quiet_close_push state push completed
  unfold endPush
  split_ifs with ended
  · exact ⟨state, .done, Quiet.refl state, rfl, Or.inl rfl⟩
  · dsimp only
    split
    · exact ⟨_, .done, closed.trans (quiet_settle_done _ push), rfl, Or.inl rfl⟩
    · rename_i record found
      have left := closed.trans (hold_leave_room _ push record completed).quiet
      split_ifs
      · exact ⟨_, .releasing, left.trans (hold_settle _ _ _).quiet, rfl, Or.inr rfl⟩
      · exact ⟨_, .done, left.trans (quiet_settle_done _ push), rfl, Or.inl rfl⟩

end AwfulChat.Inbound
