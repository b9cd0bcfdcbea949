import AwfulChat.HistoryRepair
import AwfulChat.Inbound.Calls

/-!
# Per-peer claims and saved watermarks

One peer in one room. Every digest we send it advertises our saved watermarks,
raised by what short pushes of an older build delivered (`withClaims`). The peer
answers any digest it ever got, with its rows above what that digest named: as a
paced push, or, from an older build, as batches that carry no marker. A push
that found claims when it opened is `partial` and commits nothing, so as long as
a push that finds none answers a digest that named none, nothing is committed
over a gap that only the claims covered.
-/

namespace AwfulChat.PeerClaims

open Library MessageOrder SyncPush Inbound List Option
open AwfulChat.HistoryRepair AwfulChat.Storage

set_option autoImplicit false

section World

variable {T : Type} [SentRow T]

/-- A digest as the peer got it, and whether claims of this peer were in it. -/
structure Digest where
  advertised : OrderedMap Sender Int
  claimed : Bool

/-- How a build lays out the rows it sends. -/
inductive Layout (T : Type)
  | paced (plan : PushPlan T)
  | older (batches : List (List T))

/-- One frame of an answer to a digest. -/
structure PeerFrame (T : Type) where
  digest : Digest
  layout : Layout T
  index : Nat

def rowsAbove (rows : List T) (marks : OrderedMap Sender Int) : List T :=
  rows.filter fun row =>
    decide ((marks.get (SentRow.senderId row)).getD (-1) < (Row.cursor row).lamport)

def batchesOf (rows : List T) (frame : PeerFrame T) : List (SentBatch T) :=
  match frame.layout with
  | .paced plan => sentBatches (planPush (rowsAbove rows frame.digest.advertised) plan)
  | .older batches => batches.map fun batch => { rows := batch, order := none }

def sentBy (rows : List T) (frame : PeerFrame T) : Sent T where
  plan := batchesOf rows frame
  index := frame.index

def frameRows (rows : List T) (frame : PeerFrame T) : List T :=
  match (sentBy rows frame).batch with
  | some batch => batch.rows
  | none => []

structure World (T : Type) where
  inbound : State (PeerFrame T)
  marks : OrderedMap Sender Int
  held : List T
  digests : List Digest

inductive PeerEvent (T : Type)
  /-- We send the peer a digest. -/
  | digest
  /-- The write of a commit lands. -/
  | write (push : Nat) (sender : Sender) (lamport : Int)
  /-- `process()` stored these rows of its frame, and put these floors. -/
  | report (job : Nat) (stored : List T) (floors : OrderedMap Sender Int)
  /-- Any other step of the receiving side. -/
  | inbound (event : Event (PeerFrame T))

def worldStep (key : Key) (world : World T) : PeerEvent T → Option (World T)
  | .digest => some
      { world with
        digests :=
          { advertised := withClaims world.inbound key.1 key.2 world.marks
            claimed := world.inbound.claims.has key } :: world.digests }
  | .write _ sender lamport => some { world with marks := commitMark world.marks sender lamport }
  | .report job stored floors =>
    (step world.inbound (.processed job (some ⟨stored.map heldRow, floors⟩))).map fun next =>
      { world with inbound := next, held := stored ++ world.held }
  | .inbound event => (step world.inbound event).map fun next => { world with inbound := next }

/-- No two oldest-first batches of the plan split a sender's lamport. -/
def Untied (rows : List T) (frame : PeerFrame T) : Prop :=
  ∀ (earlier later : Nat) (left right : SentBatch T), earlier < later →
    (batchesOf rows frame)[earlier]? = some left → (batchesOf rows frame)[later]? = some right →
      left.order = some .asc → right.order = some .asc →
        ∀ first ∈ left.rows, ∀ second ∈ right.rows, heldRow first ≠ heldRow second

/-- What an older build sends is what the digest lacked, in any order. -/
def Complete (rows : List T) (frame : PeerFrame T) : Prop :=
  ∀ batches, frame.layout = .older batches →
    ∀ row, row ∈ batches.flatten ↔ row ∈ rowsAbove rows frame.digest.advertised

/-- What the peer, the store and `process()` do at a step. -/
def Plays (rows : List T) (key : Key) (world : World T) : PeerEvent T → Prop
  | .digest => True
  | .write push sender lamport => .commit push key.2 sender lamport ∈ world.inbound.log
  | .report job stored floors => ∀ order frame,
      (world.inbound.job job).task = .batch order frame →
        (∀ row ∈ stored, row ∈ frameRows rows frame) ∧
          ∀ row ∈ frameRows rows frame, row ∈ stored ∨
            ∃ floor ≤ (Row.cursor row).lamport, floors.get (SentRow.senderId row) = some floor
  | .inbound (.batch peer room frame process) => (peer, room) = key ∧
      process.digest ∈ world.digests ∧ Complete rows process ∧ FrameSent frame (sentBy rows process)
  | .inbound (.processed _ (some _)) => False
  | .inbound _ => True

/-- A frame starts or carries on its own answer, ties are not split, and a push
that finds no claims answers a digest that named none. -/
def Guarded (rows : List T) (key : Key) (world : World T) : PeerEvent T → Prop
  | .inbound (.batch _ _ frame process) =>
    OwnFrame (sentBy rows) key world.inbound frame process ∧ Untied rows process ∧
      (opens world.inbound key frame.place = true → world.inbound.claims.has key = false →
        process.digest.claimed = false)
  | _ => True

/-- Every row of the peer up to the marks is held. -/
def Holds (rows held : List T) (marks : OrderedMap Sender Int) : Prop :=
  ∀ row ∈ rows, ∀ mark, marks.get (SentRow.senderId row) = some mark →
    (Row.cursor row).lamport ≤ mark → row ∈ held

structure Sheltered (rows : List T) (key : Key) (world : World T) : Prop where
  tracked : Tracked (sentBy rows) (fun frame => frame.digest.claimed = false) key none world.inbound
  marks : Holds rows world.held world.marks
  digests : ∀ digest ∈ world.digests, digest.claimed = false →
    Holds rows world.held digest.advertised
  opened : ∀ push origin frame, .opened push origin frame ∈ world.inbound.log →
    origin = key ∧ frame.digest ∈ world.digests ∧ Complete rows frame ∧ Untied rows frame
  stored : ∀ push frame outcome, .outcome push frame outcome ∈ world.inbound.log →
    ∀ row ∈ frameRows rows frame, row ∈ world.held ∨
      ∃ floor ≤ (Row.cursor row).lamport, outcome.floors.get (SentRow.senderId row) = some floor

variable {rows : List T} {key : Key} {world next : World T}

variable {marks : OrderedMap Sender Int}

theorem mem_rows_above {row : T} :
    row ∈ rowsAbove rows marks ↔ row ∈ rows ∧
      (marks.get (SentRow.senderId row)).getD (-1) < (Row.cursor row).lamport := by
  simp [rowsAbove]

theorem untied_covers {frame : PeerFrame T} {plan : PushPlan T}
    (layout : frame.layout = .paced plan) (untied : Untied rows frame) {index : Nat}
    {batch : SentBatch T} (placed : (batchesOf rows frame)[index]? = some batch)
    (marked : batch.order = some .asc) {claimed row : T} (carried : claimed ∈ batch.rows)
    (planned : row ∈ rowsAbove rows frame.digest.advertised)
    (sameSender : SentRow.senderId row = SentRow.senderId claimed)
    (upTo : (Row.cursor row).lamport ≤ (Row.cursor claimed).lamport) :
    ∃ earlier ≤ index, ∃ source, (batchesOf rows frame)[earlier]? = some source ∧
      row ∈ source.rows := by
  have plans : batchesOf rows frame =
      sentBatches (planPush (rowsAbove rows frame.digest.advertised) plan) := by
    unfold batchesOf
    rw [layout]
  have placedPlan := placed
  rw [plans] at placedPlan
  obtain ⟨source, sourcePlaced, rfl⟩ := sent_batch_at placedPlan
  rcases lt_or_eq_of_le upTo with below | tied
  · obtain ⟨earlier, before, other, otherPlaced, mem⟩ :=
      asc_batch_covers_below sourcePlaced (Option.some.inj marked) carried planned below
    refine ⟨earlier, before, { rows := other.rows, order := some other.order }, ?_, mem⟩
    rw [plans]
    exact sent_batch_of otherPlaced
  · have sent := (mem_plan_push_rows _ plan row).mpr planned
    obtain ⟨other, otherMember, mem⟩ := mem_batch_rows.mp sent
    obtain ⟨position, bound, found⟩ := getElem_of_mem otherMember
    have otherPlaced : (planPush (rowsAbove rows frame.digest.advertised) plan)[position]? =
        some other := by
      rw [List.getElem?_eq_getElem bound, found]
    by_cases before : position ≤ index
    · refine ⟨position, before, { rows := other.rows, order := some other.order }, ?_, mem⟩
      rw [plans]
      exact sent_batch_of otherPlaced
    · exfalso
      have later : index < position := Nat.lt_of_not_le before
      have otherAsc := plan_push_heads_first _ plan index position source other (le_of_lt later)
        sourcePlaced otherPlaced (Option.some.inj marked)
      refine untied index position _ _ later placed
        (by rw [plans]; exact sent_batch_of otherPlaced) marked (by rw [otherAsc]) claimed carried
        row mem ?_
      simp [heldRow, sameSender, tied]

section

variable {push : Nat} {row : T} {lamport : Int} (sheltered : Sheltered rows key world)
include sheltered

theorem Sheltered.reported_held
    {plan : List (SentBatch T)} {index : Nat} {batch : SentBatch T}
    {older : List (Call (PeerFrame T))} (past : ∀ call ∈ older, call ∈ world.inbound.log)
    (reported : Reported (sentBy rows) older push plan index) (placed : plan[index]? = some batch)
    (mem : row ∈ batch.rows) (upTo : (Row.cursor row).lamport ≤ lamport)
    (floors : ∀ process outcome, .outcome push process outcome ∈ older →
      BelowFloor outcome.floors (SentRow.senderId row) lamport) : row ∈ world.held := by
  obtain ⟨process, outcome, told, source⟩ := reported
  have inFrame : row ∈ frameRows rows process := by
    unfold frameRows
    rw [Sent.batch, source, placed]
    exact mem
  rcases sheltered.stored push process outcome (past _ told) row inFrame with held | floored
  · exact held
  · obtain ⟨floor, low, found⟩ := floored
    have above := floors process outcome told floor found
    omega

theorem Sheltered.commit_held (positive : ∀ row ∈ rows, 0 ≤ (Row.cursor row).lamport) {name : Room}
    {sender : Sender} (committed : .commit push name sender lamport ∈ world.inbound.log)
    (known : row ∈ rows) (sameSender : SentRow.senderId row = sender)
    (upTo : (Row.cursor row).lamport ≤ lamport) : row ∈ world.held := by
  obtain ⟨newer, older, split⟩ := append_of_mem committed
  have past : ∀ call ∈ older, call ∈ world.inbound.log := by
    intro call mem
    rw [split]
    exact mem_append_right _ (mem_cons_of_mem _ mem)
  obtain ⟨⟨origin, opener, opened⟩, proved⟩ := sheltered.tracked.sound.at_commit split
  obtain ⟨rfl, sent, complete, untied⟩ := sheltered.opened push origin opener (past _ opened)
  obtain ⟨unclaimed, reach, floors⟩ := proved opener opened
  subst sameSender
  by_cases named : (opener.digest.advertised.get (SentRow.senderId row)).getD (-1) <
      (Row.cursor row).lamport
  · have planned : row ∈ rowsAbove rows opener.digest.advertised :=
      mem_rows_above.mpr ⟨known, named⟩
    rcases reach with ⟨index, batch, placed, marked, carried, earlier⟩ | whole
    · obtain ⟨claimed, claimedMember, same⟩ := mem_map.mp carried
      have claimedSender : SentRow.senderId row = SentRow.senderId claimed :=
        (congrArg HeldRow.senderId same).symm
      have claimedLamport : (Row.cursor claimed).lamport = lamport := congrArg HeldRow.lamport same
      cases layout : opener.layout with
      | paced plan =>
        obtain ⟨position, before, source, sourcePlaced, mem⟩ :=
          untied_covers layout untied placed marked claimedMember planned claimedSender
            (by rw [claimedLamport]; exact upTo)
        exact sheltered.reported_held past (earlier position before) sourcePlaced mem upTo
          floors
      | older batches =>
        have unmarked : batch.order = none := by
          have found : (batchesOf rows opener)[index]? = some batch := placed
          simp only [batchesOf, layout, List.getElem?_map, map_eq_some_iff] at found
          obtain ⟨_, _, rfl⟩ := found
          rfl
        rw [unmarked] at marked
        cases marked
    · obtain ⟨index, source, placed, mem⟩ : ∃ (index : Nat) (source : SentBatch T),
          (batchesOf rows opener)[index]? = some source ∧ row ∈ source.rows := by
        cases layout : opener.layout with
        | paced plan =>
          have inPlan := (mem_plan_push_rows _ plan row).mpr planned
          obtain ⟨source, sourceMember, mem⟩ := mem_batch_rows.mp inPlan
          obtain ⟨index, bound, found⟩ := getElem_of_mem sourceMember
          refine ⟨index, { rows := source.rows, order := some source.order }, ?_, mem⟩
          unfold batchesOf
          rw [layout]
          refine sent_batch_of ?_
          rw [List.getElem?_eq_getElem bound, found]
        | older batches =>
          have inPlan := (complete batches layout row).mpr planned
          obtain ⟨source, sourceMember, mem⟩ := mem_flatten.mp inPlan
          obtain ⟨index, bound, found⟩ := getElem_of_mem sourceMember
          refine ⟨index, { rows := source, order := none }, ?_, mem⟩
          unfold batchesOf
          rw [layout]
          simp [List.getElem?_map, List.getElem?_eq_getElem bound, found]
      have bound : index < (batchesOf rows opener).length :=
        (List.getElem?_eq_some_iff.mp placed).1
      exact sheltered.reported_held past (whole index bound) placed mem upTo floors
  · cases found : opener.digest.advertised.get (SentRow.senderId row) with
    | none =>
      rw [found, getD_none] at named
      have atLeast := positive row known
      omega
    | some mark =>
      rw [found, getD_some] at named
      exact sheltered.digests opener.digest sent unclaimed row known mark found (by omega)

end

theorem Holds.mono {held more : List T} (holds : Holds rows held marks)
    (grows : ∀ row ∈ held, row ∈ more) :
    Holds rows more marks := by
  intro row known mark found upTo
  exact grows row (holds row known mark found upTo)

omit [SentRow T] in
theorem with_claims_none (state : State (PeerFrame T)) (marks : OrderedMap Sender Int)
    (none : state.claims.has key = false) : withClaims state key.1 key.2 marks = marks := by
  have missing : state.claims.get key = .none := by
    simpa [OrderedMap.has] using none
  unfold withClaims
  rw [missing]

theorem Holds.commit {held : List T} (holds : Holds rows held marks)
    {sender : Sender} {lamport : Int}
    (covered : ∀ row ∈ rows, SentRow.senderId row = sender → (Row.cursor row).lamport ≤ lamport →
      row ∈ held) : Holds rows held (commitMark marks sender lamport) := by
  intro row known mark found upTo
  rw [commit_mark_get] at found
  split_ifs at found with raised
  · cases found
    exact covered row known raised.1 upTo
  · exact holds row known mark found upTo

theorem Sheltered.inbound (sheltered : Sheltered rows key world) {event : Event (PeerFrame T)}
    {after : State (PeerFrame T)} {more : List T} (grows : ∀ row ∈ world.held, row ∈ more)
    (honest : Honest (sentBy rows) key world.inbound event)
    (answers : Answers (fun frame => frame.digest.claimed = false) key world.inbound event)
    (arrives : ∀ peer room frame process, event = .batch peer room frame process →
      (peer, room) = key ∧ process.digest ∈ world.digests ∧ Complete rows process ∧
        Untied rows process)
    (reports : ∀ job outcome, event = .processed job (some outcome) → ∀ order frame,
      (world.inbound.job job).task = .batch order frame → ∀ row ∈ frameRows rows frame,
        row ∈ more ∨ ∃ floor ≤ (Row.cursor row).lamport,
          outcome.floors.get (SentRow.senderId row) = some floor)
    (stepped : step world.inbound event = some after) :
    Sheltered rows key { world with inbound := after, held := more } where
  tracked := sheltered.tracked.step honest answers stepped
  marks := sheltered.marks.mono grows
  digests := fun digest sent unclaimed => (sheltered.digests digest sent unclaimed).mono grows
  opened := by
    intro push origin frame mem
    rcases (step_caused stepped).mem mem with old | ⟨wire, arrived⟩
    · exact sheltered.opened push origin frame old
    · obtain ⟨sameKey, rest⟩ := arrives _ _ _ _ arrived
      exact ⟨sameKey, rest⟩
  stored := by
    intro push frame outcome mem row inFrame
    rcases (step_caused stepped).mem mem with old | ⟨job, order, told, -, task⟩
    · rcases sheltered.stored push frame outcome old row inFrame with held | floored
      · exact Or.inl (grows row held)
      · exact Or.inr floored
    · exact reports job outcome told order frame task row inFrame

theorem inbound_honest {event : Event (PeerFrame T)} (plays : Plays rows key world (.inbound event))
    (guarded : Guarded rows key world (.inbound event)) :
    Honest (sentBy rows) key world.inbound event ∧
      Answers (fun frame => frame.digest.claimed = false) key world.inbound event := by
  cases event with
  | batch peer room frame process =>
    obtain ⟨-, -, -, framed⟩ := plays
    obtain ⟨own, -, answers⟩ := guarded
    exact ⟨⟨fun _ => framed, fun _ => own⟩, fun _ => answers⟩
  | processed job result =>
    cases result with
    | none => exact ⟨⟨trivial, trivial⟩, trivial⟩
    | some outcome => exact plays.elim
  | _ => exact ⟨⟨trivial, trivial⟩, trivial⟩

theorem report_honest {job : Nat} {stored : List T} {floors : OrderedMap Sender Int}
    (plays : Plays rows key world (.report job stored floors)) :
    Honest (sentBy rows) key world.inbound
      (.processed job (some ⟨stored.map heldRow, floors⟩)) := by
  refine ⟨?_, trivial⟩
  intro _ order process task batch carried row held
  obtain ⟨source, mem, rfl⟩ := mem_map.mp held
  have inFrame := (plays order process task).1 source mem
  unfold frameRows at inFrame
  rw [carried] at inFrame
  exact mem_map_of_mem inFrame

theorem Sheltered.step (positive : ∀ row ∈ rows, 0 ≤ (Row.cursor row).lamport)
    (sheltered : Sheltered rows key world) {event : PeerEvent T} (plays : Plays rows key world event)
    (guarded : Guarded rows key world event) (stepped : worldStep key world event = some next) :
    Sheltered rows key next := by
  cases event with
  | digest =>
    cases stepped
    refine ⟨sheltered.tracked, sheltered.marks, ?_, ?_, sheltered.stored⟩
    · intro digest sent unclaimed
      rcases mem_cons.mp sent with rfl | old
      · dsimp only at unclaimed ⊢
        rw [with_claims_none world.inbound world.marks unclaimed]
        exact sheltered.marks
      · exact sheltered.digests digest old unclaimed
    · intro push origin frame mem
      obtain ⟨sameKey, sent, rest⟩ := sheltered.opened push origin frame mem
      exact ⟨sameKey, mem_cons_of_mem _ sent, rest⟩
  | write push sender lamport =>
    cases stepped
    refine ⟨sheltered.tracked, ?_, sheltered.digests, sheltered.opened, sheltered.stored⟩
    apply sheltered.marks.commit
    intro row known sameSender upTo
    exact sheltered.commit_held positive plays known sameSender upTo
  | report job stored floors =>
    obtain ⟨after, taken, rfl⟩ := map_eq_some_iff.mp stepped
    refine sheltered.inbound (fun row held => mem_append_right stored held)
      (report_honest plays) trivial ?_ ?_ taken
    · nofun
    · rintro _ _ ⟨⟩ order frame task row inFrame
      rcases (plays order frame task).2 row inFrame with kept | floored
      · exact Or.inl (mem_append_left world.held kept)
      · exact Or.inr floored
  | inbound event =>
    obtain ⟨after, taken, rfl⟩ := map_eq_some_iff.mp stepped
    obtain ⟨honest, answers⟩ := inbound_honest plays guarded
    refine sheltered.inbound (fun row held => held) honest answers ?_ ?_ taken
    · rintro peer room frame process rfl
      obtain ⟨sameKey, sent, complete, -⟩ := plays
      exact ⟨sameKey, sent, complete, guarded.2.1⟩
    · rintro job outcome rfl
      exact plays.elim

def firstWorld (held : List T) (marks : OrderedMap Sender Int) : World T where
  inbound := State.init (PeerFrame T)
  marks := marks
  held := held
  digests := []

theorem sheltered_first {held : List T}
    (holds : Holds rows held marks) : Sheltered rows key (firstWorld held marks) where
  tracked := tracked_init none
  marks := holds
  digests := nofun
  opened := nofun
  stored := nofun

end World

section Schedules

def bobRows : List HistoryRow := [textRow "a" 1, textRow "b" 2, textRow "c" 3]

def bareDigest : Digest := { advertised := .empty, claimed := false }

def claimDigest : Digest := { advertised := OrderedMap.empty.set "alice" 2, claimed := true }

def wholePaced : PeerFrame HistoryRow where
  digest := bareDigest
  layout := .paced (rowsPerBatch 8)
  index := 0

def pacedRun : List (PeerEvent HistoryRow) :=
  [.digest, .inbound (.batch "bob" "den" (ascFrame 0 1) wholePaced), .inbound (.startJob 0),
    .report 0 bobRows .empty]

def olderCut : PeerFrame HistoryRow where
  digest := bareDigest
  layout := .older [[textRow "c" 3, textRow "b" 2], [textRow "a" 1]]
  index := 0

def claimPaced : PeerFrame HistoryRow where
  digest := claimDigest
  layout := .paced (rowsPerBatch 8)
  index := 0

def leakRun : List (PeerEvent HistoryRow) :=
  [.digest, .inbound (.batch "bob" "den" ⟨.int 0, .int 2, .other⟩ olderCut),
    .inbound (.startJob 0), .report 0 [textRow "b" 2] (OrderedMap.empty.set "alice" 3),
    .inbound (.stallTimer 0), .inbound (.startJob 1), .digest, .digest,
    .inbound (.batch "bob" "den" (ascFrame 0 1) claimPaced),
    .inbound (.batch "bob" "den" (ascFrame 0 1) claimPaced), .inbound (.startJob 4),
    .report 4 [textRow "c" 3] .empty]

theorem paced_run_plays :
    Meets (worldStep ("bob", "den")) (Plays bobRows ("bob", "den")) (firstWorld [] .empty)
      pacedRun := by
  refine Meets.cons trivial rfl (Meets.cons ⟨rfl, mem_cons_self, ?_, rfl, rfl, _, rfl, rfl⟩
    rfl (Meets.cons trivial rfl (Meets.cons ?_ rfl trivial)))
  · rintro batches ⟨⟩
  · rintro order frame ⟨⟩
    exact ⟨by decide, fun row mem => Or.inl mem⟩

theorem paced_run_guarded :
    Meets (worldStep ("bob", "den")) (Guarded bobRows ("bob", "den")) (firstWorld [] .empty)
      pacedRun := by
  refine Meets.cons trivial rfl (Meets.cons ⟨?_, ?_, fun _ _ => rfl⟩ rfl
    (Meets.cons trivial rfl (Meets.cons trivial rfl trivial)))
  · nofun
  · intro earlier later left right less _ placed
    obtain ⟨bound, -⟩ := List.getElem?_eq_some_iff.mp placed
    have single : (batchesOf bobRows wholePaced).length = 1 := rfl
    omega

end Schedules
end AwfulChat.PeerClaims
