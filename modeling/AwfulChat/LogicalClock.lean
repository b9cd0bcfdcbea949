import AwfulChat.Library.Runs
import Mathlib.Data.List.Basic
import Mathlib.Tactic.Ring

/-!
# Logical clocks

`transport/logical-clock.ts`, `nextMessageLamport` of `storage.ts` and the direct issue of
`sendUpdateImmediately`. Every map of the source is keyed by room and each call touches its
own room's entry, so the state is what one room has of them: the counter in memory, what
storage holds, and the chain of sends waiting for their lamport. `issued` is not in the
source: it lists what this device gave out, with what storage held when the send began.
-/

namespace AwfulChat.LogicalClock

open Library List Option

set_option autoImplicit false

def BOOTSTRAP_CEILING : Nat := 2 ^ 48

def MAX_REMOTE_JUMP : Nat := 1000000

def MAX_SAFE_INTEGER : Nat := 2 ^ 53 - 1

/-- The highest of the lamports, `0` for none. -/
def highest : List Nat → Nat
  | [] => 0
  | lamport :: rest => max lamport (highest rest)

theorem le_highest {lamports : List Nat} {lamport : Nat} (mem : lamport ∈ lamports) :
    lamport ≤ highest lamports := by
  induction lamports with
  | nil => cases mem
  | cons head rest ih =>
    rcases mem_cons.mp mem with rfl | later
    · exact le_max_left _ _
    · exact (ih later).trans (le_max_right _ _)

theorem highest_le {lamports : List Nat} {bound : Nat}
    (below : ∀ lamport ∈ lamports, lamport ≤ bound) : highest lamports ≤ bound := by
  induction lamports with
  | nil => exact Nat.zero_le _
  | cons head rest ih =>
    apply max_le (below head (by simp))
    apply ih
    intro lamport mem
    exact below lamport (mem_cons_of_mem _ mem)

/-- A send that has called `nextMessageLamport`: what its three reads gave so far, and the
lamports storage held when it was called. -/
structure Sending where
  began : List Nat
  stored : Option Nat
  watermarks : Option (List Nat)
  room : Option Nat
  deriving DecidableEq

structure Issue where
  lamport : Nat
  began : List Nat
  deriving DecidableEq

structure RoomClock where
  clock : Option Nat
  admitted : List Nat
  stored : List Nat
  watermarks : List (String × Nat)
  lastSeenLamport : Option Nat
  chain : List Sending
  issued : List Issue
  deriving DecidableEq

def validLamport (value : Nat) : Bool := decide (value < MAX_SAFE_INTEGER)

def RoomClock.observedLamport (room : RoomClock) : Nat := room.clock.getD 0

def RoomClock.remoteLamportAllowed (room : RoomClock) (value : Nat) : Bool :=
  validLamport value &&
    decide (value ≤ max BOOTSTRAP_CEILING (room.observedLamport + MAX_REMOTE_JUMP))

def RoomClock.observeLamport (room : RoomClock) (value : Nat) : RoomClock :=
  if validLamport value then { room with clock := some (max room.observedLamport value) } else room

/-- `none` is the throw of an exhausted sequence. -/
def RoomClock.issueLamport (room : RoomClock) : Option (RoomClock × Nat) :=
  let next := room.observedLamport + 1
  if validLamport next then some ({ room with clock := some next }, next) else none

def RoomClock.held (room : RoomClock) : List Nat := room.stored ++ room.watermarks.map Prod.snd

/-- A watermark only moves up. -/
def setWatermark : List (String × Nat) → String → Nat → List (String × Nat)
  | [], senderId, maxLamport => [(senderId, maxLamport)]
  | (other, existing) :: rest, senderId, maxLamport =>
    if other = senderId then (other, if existing < maxLamport then maxLamport else existing) :: rest
    else (other, existing) :: setWatermark rest senderId maxLamport

inductive Event
  /-- A remote row passes the gate of `verifyIncoming`. -/
  | allow (lamport : Nat)
  /-- `lamportReceive` of a row admitted before. -/
  | receive (lamport : Nat)
  /-- `_loadHistory` observes a page's newest row. -/
  | loadHistory (lamport : Nat)
  | putMessage (lamport : Nat)
  | setWatermark (senderId : String) (maxLamport : Nat)
  | markRoomSeen (lamport : Nat)
  | nextMessageLamport
  | readStored
  | readWatermarks
  | readRoom
  /-- The reads of the send at the head of the chain are in. -/
  | issue
  /-- A read of the send at the head of the chain failed. -/
  | fail
  | sendUpdateImmediately
  | reload
  deriving DecidableEq

def RoomClock.observeAll (room : RoomClock) (values : List Nat) : RoomClock :=
  values.foldl RoomClock.observeLamport room

def RoomClock.give (room : RoomClock) (began : List Nat) : RoomClock :=
  match room.issueLamport with
  | none => room
  | some (next, lamport) => { next with issued := next.issued ++ [⟨lamport, began⟩] }

def step (room : RoomClock) : Event → Option RoomClock
  | .allow lamport =>
    if room.remoteLamportAllowed lamport then
      some { room with admitted := room.admitted ++ [lamport] }
    else some room
  | .receive lamport =>
    if lamport ∈ room.admitted then
      some ({ room with admitted := room.admitted.erase lamport }.observeLamport lamport)
    else none
  | .loadHistory lamport => if lamport ∈ room.stored then some (room.observeLamport lamport) else none
  | .putMessage lamport =>
    if validLamport lamport then some { room with stored := room.stored ++ [lamport] } else none
  | .setWatermark senderId maxLamport =>
    if validLamport maxLamport then
      some { room with watermarks := LogicalClock.setWatermark room.watermarks senderId maxLamport }
    else none
  | .markRoomSeen lamport =>
    some { room with lastSeenLamport := some (max (room.lastSeenLamport.getD 0) lamport) }
  | .nextMessageLamport =>
    some { room with chain := room.chain ++ [⟨room.held, none, none, none⟩] }
  | .readStored =>
    match room.chain with
    | send :: rest =>
      some { room with chain := { send with stored := some (highest room.stored) } :: rest }
    | [] => none
  | .readWatermarks =>
    match room.chain with
    | send :: rest => some { room with
        chain := { send with watermarks := some (room.watermarks.map Prod.snd) } :: rest }
    | [] => none
  | .readRoom =>
    match room.chain with
    | send :: rest =>
      some { room with chain := { send with room := some (room.lastSeenLamport.getD 0) } :: rest }
    | [] => none
  | .issue =>
    match room.chain with
    | ⟨began, some stored, some watermarks, some seen⟩ :: rest =>
      some (({ room with chain := rest }.observeAll (stored :: seen :: watermarks)).give began)
    | _ => none
  | .fail =>
    match room.chain with
    | _ :: rest => some { room with chain := rest }
    | [] => none
  | .sendUpdateImmediately => some (room.give room.held)
  | .reload => some { room with clock := none, admitted := [], chain := [] }

/-- An immediate send reads no storage: the counter has to have caught up with it. A reload
forgets the counter: what was issued has to be in storage. -/
def CaughtUp (room : RoomClock) : Event → Prop
  | .sendUpdateImmediately => ∀ lamport ∈ room.held, lamport ≤ room.observedLamport
  | .reload => ∀ issue ∈ room.issued, issue.lamport ≤ highest room.held
  | _ => True

instance (room : RoomClock) : DecidablePred (CaughtUp room)
  | .sendUpdateImmediately | .reload => inferInstanceAs (Decidable (∀ _, _))
  | .allow _ | .receive _ | .loadHistory _ | .putMessage _ | .setWatermark _ _ | .markRoomSeen _
  | .nextMessageLamport | .readStored | .readWatermarks | .readRoom | .issue | .fail =>
    isTrue trivial

/-- What this device gave out only went up, and stood above what storage held. -/
structure OnlyUp (issued : List Issue) : Prop where
  ascending : issued.Pairwise fun earlier later => earlier.lamport < later.lamport
  above : ∀ issue ∈ issued, ∀ lamport ∈ issue.began, lamport < issue.lamport

theorem valid_lamport_iff {value : Nat} : validLamport value = true ↔ value < MAX_SAFE_INTEGER := by
  simp [validLamport]

theorem highest_append (left right : List Nat) :
    highest (left ++ right) = max (highest left) (highest right) := by
  induction left with
  | nil => simp [highest]
  | cons head rest ih => rw [cons_append, highest, highest, ih, max_assoc]

theorem highest_valid {lamports : List Nat}
    (valid : ∀ lamport ∈ lamports, validLamport lamport = true) :
    validLamport (highest lamports) = true := by
  induction lamports with
  | nil => decide
  | cons head rest ih =>
    have first := valid_lamport_iff.mp (valid head (by simp))
    have others := valid_lamport_iff.mp (ih fun lamport mem =>
      valid lamport (mem_cons_of_mem _ mem))
    exact valid_lamport_iff.mpr (max_lt first others)

section Observing

variable (room : RoomClock)

structure SameButClock (before after : RoomClock) : Prop where
  admitted : after.admitted = before.admitted
  stored : after.stored = before.stored
  watermarks : after.watermarks = before.watermarks
  chain : after.chain = before.chain
  issued : after.issued = before.issued

theorem SameButClock.trans {first second third : RoomClock} (left : SameButClock first second)
    (right : SameButClock second third) : SameButClock first third :=
  ⟨right.admitted.trans left.admitted, right.stored.trans left.stored,
    right.watermarks.trans left.watermarks, right.chain.trans left.chain,
    right.issued.trans left.issued⟩

theorem observe_same (value : Nat) : SameButClock room (room.observeLamport value) := by
  unfold RoomClock.observeLamport
  split_ifs <;> exact ⟨rfl, rfl, rfl, rfl, rfl⟩

theorem observe_grows (value : Nat) :
    room.observedLamport ≤ (room.observeLamport value).observedLamport := by
  unfold RoomClock.observeLamport
  split_ifs
  · exact le_max_left _ _
  · exact le_rfl

theorem observe_reaches {value : Nat} (valid : validLamport value = true) :
    value ≤ (room.observeLamport value).observedLamport := by
  unfold RoomClock.observeLamport
  rw [if_pos valid]
  exact le_max_right _ _

theorem observe_below {value bound : Nat} (counter : room.observedLamport ≤ bound)
    (below : value ≤ bound) : (room.observeLamport value).observedLamport ≤ bound := by
  unfold RoomClock.observeLamport
  split_ifs
  · exact max_le counter below
  · exact counter

theorem observe_all_same (values : List Nat) : SameButClock room (room.observeAll values) := by
  induction values generalizing room with
  | nil => exact ⟨rfl, rfl, rfl, rfl, rfl⟩
  | cons value rest ih =>
    exact (observe_same room value).trans (ih (room.observeLamport value))

theorem observe_all_grows (values : List Nat) :
    room.observedLamport ≤ (room.observeAll values).observedLamport := by
  induction values generalizing room with
  | nil => exact le_rfl
  | cons value rest ih =>
    exact (observe_grows room value).trans (ih (room.observeLamport value))

theorem observe_all_reaches {values : List Nat} {value : Nat} (mem : value ∈ values)
    (valid : validLamport value = true) : value ≤ (room.observeAll values).observedLamport := by
  induction values generalizing room with
  | nil => cases mem
  | cons head rest ih =>
    rcases mem_cons.mp mem with rfl | later
    · exact (observe_reaches room valid).trans (observe_all_grows _ rest)
    · exact ih (room.observeLamport head) later

end Observing

theorem set_watermark_grows (marks : List (String × Nat)) (senderId : String) (maxLamport : Nat) :
    highest (marks.map Prod.snd) ≤
      highest ((setWatermark marks senderId maxLamport).map Prod.snd) := by
  induction marks with
  | nil => exact Nat.zero_le _
  | cons mark rest ih =>
    obtain ⟨other, existing⟩ := mark
    unfold setWatermark
    split_ifs with same higher <;> simp only [map_cons, highest] <;> omega

theorem set_watermark_valid {marks : List (String × Nat)} {senderId : String} {maxLamport : Nat}
    (valid : ∀ mark ∈ marks, validLamport mark.2 = true) (fits : validLamport maxLamport = true) :
    ∀ mark ∈ setWatermark marks senderId maxLamport, validLamport mark.2 = true := by
  induction marks with
  | nil => simpa [setWatermark] using fits
  | cons mark rest ih =>
    obtain ⟨other, existing⟩ := mark
    have first := valid _ (mem_cons_self)
    have others := fun mark mem => valid mark (mem_cons_of_mem _ mem)
    unfold setWatermark
    split_ifs with same higher
    · simpa [fits] using others
    · simpa [first] using others
    · intro mark mem
      rcases mem_cons.mp mem with rfl | later
      · exact first
      · exact ih others mark later

/-- A waiting send with floors taken when it was called: its reads came later. -/
structure SendHolds (room : RoomClock) (storedAnchor markAnchor storedFloor markFloor : Nat)
    (send : Sending) : Prop where
  overStored : storedAnchor ≤ storedFloor
  overMark : markAnchor ≤ markFloor
  underStored : storedFloor ≤ highest room.stored
  underMark : markFloor ≤ highest (room.watermarks.map Prod.snd)
  began : ∀ lamport ∈ send.began, lamport ≤ storedFloor ∨ lamport ≤ markFloor
  stored : ∀ value ∈ send.stored, validLamport value = true ∧ storedFloor ≤ value
  watermarks : ∀ values ∈ send.watermarks, (∀ value ∈ values, validLamport value = true) ∧
    markFloor ≤ highest values

/-- The anchors are what storage held at the last reload: what was issued before it is under
one of them, what was issued since is under the counter. -/
structure ClockInv (room : RoomClock) (storedAnchor markAnchor : Nat) : Prop where
  storedValid : ∀ lamport ∈ room.stored, validLamport lamport = true
  marksValid : ∀ mark ∈ room.watermarks, validLamport mark.2 = true
  underStored : storedAnchor ≤ highest room.stored
  underMark : markAnchor ≤ highest (room.watermarks.map Prod.snd)
  issued : ∀ issue ∈ room.issued, issue.lamport ≤ room.observedLamport ∨
    issue.lamport ≤ storedAnchor ∨ issue.lamport ≤ markAnchor
  chain : ∀ send ∈ room.chain, ∃ storedFloor markFloor,
    SendHolds room storedAnchor markAnchor storedFloor markFloor send
  up : OnlyUp room.issued

section Steps

variable {room next : RoomClock} {storedAnchor markAnchor storedFloor markFloor : Nat}

theorem SendHolds.grow {send : Sending}
    (holds : SendHolds room storedAnchor markAnchor storedFloor markFloor send)
    (stored : highest room.stored ≤ highest next.stored)
    (marks : highest (room.watermarks.map Prod.snd) ≤ highest (next.watermarks.map Prod.snd)) :
    SendHolds next storedAnchor markAnchor storedFloor markFloor send where
  overStored := holds.overStored
  overMark := holds.overMark
  underStored := holds.underStored.trans stored
  underMark := holds.underMark.trans marks
  began := holds.began
  stored := holds.stored
  watermarks := holds.watermarks

section

variable (inv : ClockInv room storedAnchor markAnchor)
include inv

theorem ClockInv.grow (storedValid : ∀ lamport ∈ next.stored, validLamport lamport = true)
    (marksValid : ∀ mark ∈ next.watermarks, validLamport mark.2 = true)
    (stored : highest room.stored ≤ highest next.stored)
    (marks : highest (room.watermarks.map Prod.snd) ≤ highest (next.watermarks.map Prod.snd))
    (counter : room.observedLamport ≤ next.observedLamport) (chain : next.chain = room.chain)
    (issued : next.issued = room.issued) :
    ClockInv next storedAnchor markAnchor := by
  refine ⟨storedValid, marksValid, inv.underStored.trans stored, inv.underMark.trans marks, ?_, ?_,
    issued ▸ inv.up⟩
  · rw [issued]
    intro issue mem
    exact (inv.issued issue mem).imp_left fun under => under.trans counter
  · rw [chain]
    intro send mem
    obtain ⟨storedFloor, markFloor, holds⟩ := inv.chain send mem
    exact ⟨storedFloor, markFloor, holds.grow stored marks⟩

theorem ClockInv.same
    (same : SameButClock room next) (counter : room.observedLamport ≤ next.observedLamport) :
    ClockInv next storedAnchor markAnchor :=
  inv.grow (same.stored ▸ inv.storedValid) (same.watermarks ▸ inv.marksValid)
    (same.stored ▸ le_rfl) (same.watermarks ▸ le_rfl) counter same.chain same.issued

theorem ClockInv.rechain {chain : List Sending}
    (holds : ∀ send ∈ chain, ∃ storedFloor markFloor,
      SendHolds room storedAnchor markAnchor storedFloor markFloor send) :
    ClockInv { room with chain := chain } storedAnchor markAnchor := by
  refine ⟨inv.storedValid, inv.marksValid, inv.underStored, inv.underMark, inv.issued, ?_, inv.up⟩
  intro send mem
  obtain ⟨storedFloor, markFloor, held⟩ := holds send mem
  exact ⟨storedFloor, markFloor, held.grow le_rfl le_rfl⟩

end

theorem highest_held (room : RoomClock) :
    highest room.held = max (highest room.stored) (highest (room.watermarks.map Prod.snd)) :=
  highest_append _ _

theorem held_under (room : RoomClock) {lamport : Nat} (mem : lamport ∈ room.held) :
    lamport ≤ highest room.stored ∨ lamport ≤ highest (room.watermarks.map Prod.snd) :=
  (mem_append.mp mem).imp le_highest le_highest

theorem ClockInv.give (inv : ClockInv room storedAnchor markAnchor) {began : List Nat}
    (stored : storedAnchor ≤ room.observedLamport) (marks : markAnchor ≤ room.observedLamport)
    (past : ∀ lamport ∈ began, lamport ≤ room.observedLamport) :
    ClockInv (room.give began) storedAnchor markAnchor := by
  unfold RoomClock.give RoomClock.issueLamport
  by_cases valid : validLamport (room.observedLamport + 1) = true
  · simp only [valid, if_true]
    refine ⟨inv.storedValid, inv.marksValid, inv.underStored, inv.underMark, ?_, ?_, ?_, ?_⟩
    · intro issue mem
      left
      rcases mem_append.mp mem with earlier | new
      · have under := inv.issued issue earlier
        show issue.lamport ≤ room.observedLamport + 1
        omega
      · rw [mem_singleton.mp new]
        exact le_rfl
    · intro send mem
      obtain ⟨storedFloor, markFloor, holds⟩ := inv.chain send mem
      exact ⟨storedFloor, markFloor, holds.grow le_rfl le_rfl⟩
    · rw [pairwise_append]
      refine ⟨inv.up.ascending, by simp, ?_⟩
      intro earlier mem later new
      rw [mem_singleton.mp new]
      have under := inv.issued earlier mem
      show earlier.lamport < room.observedLamport + 1
      omega
    · intro issue mem lamport held
      rcases mem_append.mp mem with earlier | new
      · exact inv.up.above issue earlier lamport held
      · rw [mem_singleton.mp new] at held ⊢
        exact Nat.lt_succ_of_le (past lamport held)
  · simp only [valid, if_false]
    exact inv

theorem ClockInv.step (inv : ClockInv room storedAnchor markAnchor) {event : Event}
    (caught : CaughtUp room event) (stepped : step room event = some next) :
    ∃ storedAnchor markAnchor, ClockInv next storedAnchor markAnchor := by
  cases event with
  | allow lamport =>
    simp only [LogicalClock.step] at stepped
    split_ifs at stepped
    · cases stepped
      exact ⟨_, _, inv.grow inv.storedValid inv.marksValid le_rfl le_rfl le_rfl rfl rfl⟩
    · cases stepped
      exact ⟨_, _, inv⟩
  | receive lamport =>
    simp only [LogicalClock.step, ite_none_right_eq_some, Option.some.injEq] at stepped
    rw [← stepped.2]
    have taken : ClockInv { room with admitted := room.admitted.erase lamport } storedAnchor
        markAnchor := inv.grow inv.storedValid inv.marksValid le_rfl le_rfl le_rfl rfl rfl
    exact ⟨_, _, taken.same (observe_same _ _) (observe_grows _ _)⟩
  | loadHistory lamport =>
    simp only [LogicalClock.step, ite_none_right_eq_some, Option.some.injEq] at stepped
    rw [← stepped.2]
    exact ⟨_, _, inv.same (observe_same _ _) (observe_grows _ _)⟩
  | putMessage lamport =>
    simp only [LogicalClock.step, ite_none_right_eq_some, Option.some.injEq] at stepped
    obtain ⟨valid, rfl⟩ := stepped
    refine ⟨_, _, inv.grow ?_ inv.marksValid ?_ le_rfl le_rfl rfl rfl⟩
    · intro other mem
      rcases mem_append.mp mem with old | new
      · exact inv.storedValid other old
      · rw [mem_singleton.mp new]
        exact valid
    · simp only [highest_append]
      exact le_max_left _ _
  | setWatermark senderId maxLamport =>
    simp only [LogicalClock.step, ite_none_right_eq_some, Option.some.injEq] at stepped
    obtain ⟨valid, rfl⟩ := stepped
    exact ⟨_, _, inv.grow inv.storedValid (set_watermark_valid inv.marksValid valid) le_rfl
      (set_watermark_grows _ _ _) le_rfl rfl rfl⟩
  | markRoomSeen lamport =>
    cases stepped
    exact ⟨_, _, inv.grow inv.storedValid inv.marksValid le_rfl le_rfl le_rfl rfl rfl⟩
  | nextMessageLamport =>
    cases stepped
    refine ⟨_, _, inv.rechain ?_⟩
    intro send mem
    rcases mem_append.mp mem with earlier | new
    · exact inv.chain send earlier
    · rw [mem_singleton.mp new]
      exact ⟨_, _, inv.underStored, inv.underMark, le_rfl, le_rfl,
        fun lamport held => held_under room held, by simp, by simp⟩
  | readStored =>
    simp only [LogicalClock.step] at stepped
    split at stepped
    · rename_i send rest waiting
      cases stepped
      refine ⟨_, _, inv.rechain ?_⟩
      intro other mem
      rcases mem_cons.mp mem with rfl | later
      · obtain ⟨storedFloor, markFloor, holds⟩ := inv.chain send (by simp [waiting])
        refine ⟨storedFloor, markFloor, holds.overStored, holds.overMark, holds.underStored,
          holds.underMark, holds.began, ?_, holds.watermarks⟩
        rintro _ ⟨⟩
        exact ⟨highest_valid inv.storedValid, holds.underStored⟩
      · exact inv.chain other (by simp [waiting, later])
    · cases stepped
  | readWatermarks =>
    simp only [LogicalClock.step] at stepped
    split at stepped
    · rename_i send rest waiting
      cases stepped
      refine ⟨_, _, inv.rechain ?_⟩
      intro other mem
      rcases mem_cons.mp mem with rfl | later
      · obtain ⟨storedFloor, markFloor, holds⟩ := inv.chain send (by simp [waiting])
        refine ⟨storedFloor, markFloor, holds.overStored, holds.overMark, holds.underStored,
          holds.underMark, holds.began, holds.stored, ?_⟩
        rintro _ ⟨⟩
        refine ⟨?_, holds.underMark⟩
        intro value mem
        obtain ⟨mark, marked, rfl⟩ := mem_map.mp mem
        exact inv.marksValid mark marked
      · exact inv.chain other (by simp [waiting, later])
    · cases stepped
  | readRoom =>
    simp only [LogicalClock.step] at stepped
    split at stepped
    · rename_i send rest waiting
      cases stepped
      refine ⟨_, _, inv.rechain ?_⟩
      intro other mem
      rcases mem_cons.mp mem with rfl | later
      · obtain ⟨storedFloor, markFloor, holds⟩ := inv.chain send (by simp [waiting])
        exact ⟨storedFloor, markFloor, holds.overStored, holds.overMark, holds.underStored,
          holds.underMark, holds.began, holds.stored, holds.watermarks⟩
      · exact inv.chain other (by simp [waiting, later])
    · cases stepped
  | issue =>
    simp only [LogicalClock.step] at stepped
    split at stepped
    · rename_i began stored watermarks seen rest waiting
      cases stepped
      obtain ⟨storedFloor, markFloor, holds⟩ := inv.chain _ (by rw [waiting]; exact mem_cons_self)
      obtain ⟨storedValid, overStored⟩ := holds.stored stored rfl
      obtain ⟨marksValid, overMark⟩ := holds.watermarks watermarks rfl
      have left : ClockInv { room with chain := rest } storedAnchor markAnchor :=
        inv.rechain fun send mem => inv.chain send (by simp [waiting, mem])
      have observed := left.same (observe_all_same _ (stored :: seen :: watermarks))
        (observe_all_grows _ _)
      have reachedStored := observe_all_reaches { room with chain := rest }
        (mem_cons_self (a := stored) (l := seen :: watermarks)) storedValid
      have reachedMarks : highest watermarks ≤
          ({ room with chain := rest }.observeAll (stored :: seen :: watermarks)).observedLamport := by
        apply highest_le
        intro value mem
        exact observe_all_reaches _ (by simp [mem]) (marksValid value mem)
      have overFloor := overStored.trans reachedStored
      have overMarkFloor := overMark.trans reachedMarks
      refine ⟨_, _, observed.give (holds.overStored.trans overFloor)
        (holds.overMark.trans overMarkFloor) ?_⟩
      intro lamport mem
      rcases holds.began lamport mem with under | under
      · exact under.trans overFloor
      · exact under.trans overMarkFloor
    · cases stepped
  | fail =>
    simp only [LogicalClock.step] at stepped
    split at stepped
    · rename_i send rest waiting
      cases stepped
      exact ⟨_, _, inv.rechain fun other mem => inv.chain other (by simp [waiting, mem])⟩
    · cases stepped
  | sendUpdateImmediately =>
    cases stepped
    have under : highest room.held ≤ room.observedLamport := highest_le caught
    rw [highest_held] at under
    exact ⟨_, _, inv.give (inv.underStored.trans ((le_max_left _ _).trans under))
      (inv.underMark.trans ((le_max_right _ _).trans under)) caught⟩
  | reload =>
    cases stepped
    refine ⟨highest room.stored, highest (room.watermarks.map Prod.snd), inv.storedValid,
      inv.marksValid, le_rfl, le_rfl, ?_, by simp, inv.up⟩
    intro issue mem
    have kept := caught issue mem
    rw [highest_held] at kept
    exact Or.inr (le_max_iff.mp kept)

end Steps

/-- The app as it starts: storage as the last session left it, nothing in memory. -/
def start (stored : List Nat) (watermarks : List (String × Nat)) (lastSeenLamport : Option Nat) :
    RoomClock :=
  ⟨none, [], stored, watermarks, lastSeenLamport, [], []⟩

def Event.raisesItself : Event → Bool
  | .loadHistory _ => true
  | .issue => true
  | .sendUpdateImmediately => true
  | _ => false

def Event.isAdmit : Event → Bool
  | .allow _ => true
  | _ => false

def Bounded (bound : Nat) (room : RoomClock) : Prop :=
  room.observedLamport ≤ bound ∧ ∀ lamport ∈ room.admitted, lamport ≤ bound

theorem Bounded.step {bound : Nat} {room next : RoomClock} {event : Event}
    (bounded : Bounded bound room) (ceiling : BOOTSTRAP_CEILING ≤ bound)
    (remote : event.raisesItself = false) (stepped : step room event = some next) :
    Bounded (bound + if event.isAdmit then MAX_REMOTE_JUMP else 0) next := by
  obtain ⟨counter, admitted⟩ := bounded
  cases event with
  | allow lamport =>
    simp only [LogicalClock.step, Event.isAdmit, if_true] at stepped ⊢
    split_ifs at stepped with allowed
    · cases stepped
      refine ⟨counter.trans (Nat.le_add_right _ _), ?_⟩
      intro other mem
      rcases mem_append.mp mem with old | new
      · exact (admitted other old).trans (Nat.le_add_right _ _)
      · rw [mem_singleton.mp new]
        simp only [RoomClock.remoteLamportAllowed, Bool.and_eq_true, decide_eq_true_eq] at allowed
        omega
    · cases stepped
      exact ⟨counter.trans (Nat.le_add_right _ _),
        fun other mem => (admitted other mem).trans (Nat.le_add_right _ _)⟩
  | receive lamport =>
    simp only [LogicalClock.step, ite_none_right_eq_some, Option.some.injEq] at stepped
    obtain ⟨mem, rfl⟩ := stepped
    refine ⟨observe_below _ counter (admitted lamport mem), ?_⟩
    rw [(observe_same _ _).admitted]
    exact fun other kept => admitted other (mem_of_mem_erase kept)
  | loadHistory lamport | issue | sendUpdateImmediately => cases remote
  | putMessage lamport | setWatermark senderId maxLamport =>
    simp only [LogicalClock.step, ite_none_right_eq_some, Option.some.injEq] at stepped
    obtain ⟨-, rfl⟩ := stepped
    exact ⟨counter, admitted⟩
  | markRoomSeen lamport | nextMessageLamport =>
    cases stepped
    exact ⟨counter, admitted⟩
  | readStored | readWatermarks | readRoom | fail =>
    simp only [LogicalClock.step] at stepped
    split at stepped <;> cases stepped
    exact ⟨counter, admitted⟩
  | reload =>
    cases stepped
    exact ⟨Nat.zero_le _, by simp⟩

theorem bounded_run {bound : Nat} {room final : RoomClock} {events : List Event}
    (bounded : Bounded bound room) (ceiling : BOOTSTRAP_CEILING ≤ bound)
    (remote : ∀ event ∈ events, event.raisesItself = false)
    (ran : run step room events = some final) :
    Bounded (bound + events.countP Event.isAdmit * MAX_REMOTE_JUMP) final := by
  induction events generalizing room bound with
  | nil =>
    cases ran
    simpa using bounded
  | cons event rest ih =>
    obtain ⟨next, stepped, later⟩ := run_cons ran
    have first := bounded.step ceiling (remote event (by simp)) stepped
    have others := ih first (by omega)
      (fun other mem => remote other (mem_cons_of_mem _ mem)) later
    rw [countP_cons]
    convert others using 1
    split_ifs <;> ring

/-- Lamports of one room only go up, as long as every immediate send and every reload finds
the counter and storage caught up; and admitted remote rows raise the counter by a bounded
step each, in any run. -/
theorem lamports_only_go_up (stored : List Nat) (watermarks : List (String × Nat))
    (lastSeenLamport : Option Nat) (events : List Event) (final : RoomClock)
    (storedValid : ∀ lamport ∈ stored, validLamport lamport = true)
    (marksValid : ∀ mark ∈ watermarks, validLamport mark.2 = true)
    (ran : run step (start stored watermarks lastSeenLamport) events = some final)
    (caught : Meets step CaughtUp (start stored watermarks lastSeenLamport) events) :
    OnlyUp final.issued ∧
      ∀ (room after : RoomClock) (arrivals : List Event), room.admitted = [] →
        (∀ event ∈ arrivals, event.raisesItself = false) → run step room arrivals = some after →
        after.observedLamport ≤ max BOOTSTRAP_CEILING room.observedLamport +
          arrivals.countP Event.isAdmit * MAX_REMOTE_JUMP := by
  constructor
  · have begin : ∃ storedAnchor markAnchor,
        ClockInv (start stored watermarks lastSeenLamport) storedAnchor markAnchor :=
      ⟨0, 0, storedValid, marksValid, Nat.zero_le _, Nat.zero_le _, by simp [start],
        by simp [start], by simp [start], by simp [start]⟩
    have keeps : ∀ room event next, (∃ storedAnchor markAnchor,
        ClockInv room storedAnchor markAnchor) → CaughtUp room event →
        step room event = some next →
        ∃ storedAnchor markAnchor, ClockInv next storedAnchor markAnchor := by
      rintro room event next ⟨storedAnchor, markAnchor, inv⟩ caught stepped
      exact inv.step caught stepped
    obtain ⟨storedAnchor, markAnchor, inv⟩ := run_keeps keeps begin caught ran
    exact inv.up
  · intro room after arrivals none remote arrived
    have bounded : Bounded (max BOOTSTRAP_CEILING room.observedLamport) room :=
      ⟨le_max_right _ _, by simp [none]⟩
    exact (bounded_run bounded (le_max_left _ _) remote arrived).1

/-- The app reloads, a teardown update is sent before any other: it gets lamport 1 below the
stored row. A second reload before that update is stored gives 1 out again. -/
theorem lamports_go_back :
    ¬ ∀ (stored : List Nat) (watermarks : List (String × Nat)) (lastSeenLamport : Option Nat)
        (events : List Event) (final : RoomClock),
      (∀ lamport ∈ stored, validLamport lamport = true) →
      (∀ mark ∈ watermarks, validLamport mark.2 = true) →
      run step (start stored watermarks lastSeenLamport) events = some final →
      OnlyUp final.issued := by
  intro goes
  obtain ⟨final, ran, issued⟩ : ∃ final,
      run step (start [5] [("did:key:a", 5)] none)
        [.sendUpdateImmediately, .reload, .sendUpdateImmediately] = some final ∧
      final.issued = [⟨1, [5, 5]⟩, ⟨1, [5, 5]⟩] := ⟨_, rfl, rfl⟩
  have up := goes [5] [("did:key:a", 5)] none _ final (by decide) (by decide) ran
  have above := up.above ⟨1, [5, 5]⟩ (by simp [issued]) 5 (by simp)
  exact absurd above (by decide)

def sampleSends : List Event :=
  [.nextMessageLamport, .readStored, .readWatermarks, .readRoom, .issue, .putMessage 6,
    .sendUpdateImmediately, .putMessage 7, .reload, .nextMessageLamport, .readRoom,
    .readWatermarks, .readStored, .issue]

theorem sample_lamports_only_go_up :
    ∃ final, run step (start [5] [("did:key:a", 5)] none) sampleSends = some final ∧
      final.issued.map Issue.lamport = [6, 7, 8] ∧ OnlyUp final.issued := by
  obtain ⟨final, ran, issued⟩ := map_eq_some_iff.mp
    (show (run step (start [5] [("did:key:a", 5)] none) sampleSends).map
      (fun room => room.issued.map Issue.lamport) = some [6, 7, 8] by decide +kernel)
  exact ⟨final, ran, issued, (lamports_only_go_up [5] [("did:key:a", 5)] none sampleSends final
    (by decide) (by decide) ran (by decide +kernel)).1⟩

end AwfulChat.LogicalClock
