import AwfulChat.Sfu.SlotRuns

/-!
# How a session leaves the rooms, and what moves it

A session is lost only to the close of the socket it is on, to the timer armed for that socket,
or to a join whose probe of that socket came back dead. Only a resume moves a session to another
socket, and it takes the newest token of the session, which no resume takes again.
-/

namespace AwfulChat.Sfu

open Library Option Function

set_option autoImplicit false

/-- The ways a session leaves the rooms. Each names the socket the session is on. -/
def LostRightly (grace : Bool) (slots : Slots) (event : SlotEvent) (id : SessionId) : Prop :=
  let session := slots.sessions id
  match event with
  | .closed ws code =>
    session.ws = ws ∧ (grace && holdsForResume code (slots.sockets ws).endedBy) = false
  | .graceEnd ended =>
    ended = id ∧ session.detachTimer = some session.ws ∧
      (slots.sockets session.ws).ready = .closed
  | .finishJoin ws =>
    ∃ probing, (slots.sockets ws).probing = some probing ∧ probing.oldPeer = id ∧
      probing.probedWs = session.ws ∧ slots.answered probing.answer = some false ∧
      Asked slots probing
  | _ => False

/-- A resume with the newest token of the session, which is used by it. -/
def ResumedRightly (slots next : Slots) (event : SlotEvent) (id : SessionId) : Prop :=
  ∃ ws roomCode peerId full buffered token,
    event = .join ws roomCode peerId (some token) full buffered ∧
      slots.handed.find? (fun given => decide (given.1 = id)) = some (id, token) ∧
      next.used = (id, token) :: slots.used

variable {id : SessionId}

theorem enter_members {slots : Slots} (inv : SlotsInv slots) (ws : SocketId) (roomCode : RoomCode)
    (peerId : PeerId) {oldPeer : Option SessionId}
    (held : ∀ old, oldPeer = some old → old ∈ slots.members) (mem : id ∈ slots.members)
    (lost : id ∉ (slots.enter ws roomCode peerId oldPeer).members) : oldPeer = some id := by
  by_contra other
  have spec := inv.seat ws roomCode peerId held
  rw [Slots.enter_eq] at lost
  exact lost (spec.members id mem other)

theorem resume_members (slots : Slots) (id : SessionId) (ws : SocketId) :
    (slots.resumeSession id ws).members = slots.members := by
  unfold Slots.resumeSession
  dsimp only
  split_ifs
  · rfl
  · rfl

theorem leave_lost {slots : Slots} {id other : SessionId} (mem : id ∈ slots.members)
    (lost : id ∉ (slots.leave other).members) : id = other := by
  by_contra apart
  exact lost (List.mem_filter.mpr ⟨mem, decide_eq_true apart⟩)

theorem join_loses_none {slots : Slots} (inv : SlotsInv slots) (ws : SocketId) (roomCode : RoomCode)
    (peerId : PeerId) (resume : Option Token) (full buffered : Bool) (mem : id ∈ slots.members) :
    id ∈ (slots.join ws roomCode peerId resume full buffered).1.members := by
  generalize made : slots.join ws roomCode peerId resume full buffered = outcome
  have cases := join_cases slots ws roomCode peerId resume full buffered
  rw [made] at cases
  cases cases with
  | spent | refused => exact mem
  | entered vacant space =>
    have vacated : ∀ old, none = some old → old ∈ (slots.challenge ws).members := nofun
    by_contra lost
    cases enter_members (inv.challenge ws) ws roomCode peerId vacated mem lost
  | resumed found token =>
    rw [resume_members]
    exact mem
  | asked found =>
    rename_i old
    have probed := (inv.challenge ws).probed old buffered
    exact probed.members ▸ mem

theorem lost_rightly {grace : Bool} {slots next : Slots} {event : SlotEvent} {change : Change}
    (inv : SlotsInv slots) (taken : slotStep grace slots event = some (next, change))
    (mem : id ∈ slots.members) (lost : id ∉ next.members) :
    LostRightly grace slots event id := by
  cases event with
  | join ws roomCode peerId resume full buffered =>
    dsimp only [slotStep] at taken
    split_ifs at taken
    have stays := join_loses_none inv ws roomCode peerId resume full buffered mem
    rw [Option.some.inj taken] at stays
    exact lost stays
  | settle number alive | cut ws cause =>
    dsimp only [slotStep] at taken
    split_ifs at taken
    cases taken
    exact lost mem
  | finishJoin ws =>
    obtain ⟨probing, asked, later⟩ := bind_eq_some_iff.mp taken
    obtain ⟨alive, answered, finished⟩ := map_eq_some_iff.mp later
    have cases := finish_cases slots ws probing alive
    rw [finished] at cases
    cases cases with
    | gone => exact absurd mem lost
    | refused => exact absurd mem lost
    | entered open_ dead vacant =>
      have vacated : ∀ old, none = some old → old ∈ (slots.rest ws none).members := nofun
      cases enter_members (inv.rest ws) ws _ _ vacated mem lost
    | replaced open_ dead found same =>
      have held : ∀ old, some probing.oldPeer = some old →
          old ∈ (slots.rest ws none).members := by
        intro old equal
        cases equal
        exact find_spec found
      have replaced := enter_members (inv.rest ws) ws _ _ held mem lost
      cases replaced
      exact ⟨probing, asked, rfl, same.symm, dead ▸ answered, (inv.asked ws probing asked).2⟩
  | shut ws =>
    cases taken
    exact lost mem
  | closed ws code =>
    dsimp only [slotStep] at taken
    split_ifs at taken
    have cases := closed_cases grace slots ws code
    rw [Option.some.inj taken] at cases
    cases cases with
    | idle other => exact absurd mem lost
    | held acts current own resumable => exact absurd mem lost
    | left acts current own final =>
      cases leave_lost mem lost
      exact ⟨own, final⟩
  | graceEnd ended =>
    obtain ⟨armed, timer, fired⟩ := map_eq_some_iff.mp taken
    obtain ⟨own, gone⟩ := inv.timer ended armed timer
    rcases graceEnd_cases inv timer with left | ⟨_, rested⟩
    · rw [left] at fired
      cases fired
      cases @leave_lost (slots.clearDetachTimer ended) id ended mem lost
      exact ⟨rfl, own ▸ timer, own ▸ gone⟩
    · rw [rested] at fired
      cases fired
      exact absurd mem lost

theorem resumeSession_spec (slots : Slots) (id : SessionId) (ws : SocketId) :
    (slots.resumeSession id ws).used = (id, (slots.sessions id).resumeToken) :: slots.used ∧
      ∀ other, other ≠ id → (slots.resumeSession id ws).sessions other = slots.sessions other := by
  unfold Slots.resumeSession
  dsimp only
  split_ifs
  · exact ⟨rfl, fun other apart => update_of_ne apart _ _⟩
  · exact ⟨rfl, fun other apart => update_of_ne apart _ _⟩

theorem enter_field {γ : Type} (field : Session → γ)
    (kept : ∀ session timer, field { session with detachTimer := timer } = field session)
    (slots : Slots) (ws : SocketId) (roomCode : RoomCode) (peerId : PeerId)
    (oldPeer : Option SessionId) (apart : id ≠ slots.nextSession) :
    field ((slots.enter ws roomCode peerId oldPeer).sessions id) = field (slots.sessions id) := by
  have made : (slots.allocate ws roomCode peerId).sessions id = slots.sessions id :=
    update_of_ne apart _ _
  cases oldPeer with
  | none => exact congrArg field made
  | some old =>
    have cleared : field (((slots.allocate ws roomCode peerId).clearDetachTimer old).sessions id) =
        field ((slots.allocate ws roomCode peerId).sessions id) := field_update field (kept _ _) id
    exact cleared.trans (congrArg field made)

theorem enter_ws (slots : Slots) (ws : SocketId) (roomCode : RoomCode) (peerId : PeerId)
    (oldPeer : Option SessionId) (apart : id ≠ slots.nextSession) :
    ((slots.enter ws roomCode peerId oldPeer).sessions id).ws = (slots.sessions id).ws :=
  enter_field Session.ws (fun _ _ => rfl) slots ws roomCode peerId oldPeer apart

theorem leave_ws (slots : Slots) (id other : SessionId) :
    ((slots.leave id).sessions other).ws = (slots.sessions other).ws :=
  field_update Session.ws (by rfl) other

theorem resumed_rightly {grace : Bool} {slots next : Slots} {event : SlotEvent} {change : Change}
    (inv : SlotsInv slots) (taken : slotStep grace slots event = some (next, change)) :
    (∃ id, change = .resumed id ∧ ResumedRightly slots next event id ∧
        ∀ other, other ≠ id → (next.sessions other).ws = (slots.sessions other).ws) ∨
      (∀ id, change ≠ .resumed id) ∧
        ∀ id, id < slots.nextSession → (next.sessions id).ws = (slots.sessions id).ws := by
  cases event with
  | join ws roomCode peerId resume full buffered =>
    dsimp only [slotStep] at taken
    split_ifs at taken
    have cases := join_cases slots ws roomCode peerId resume full buffered
    rw [Option.some.inj taken] at cases
    cases cases with
    | spent => exact Or.inr ⟨by simp, fun _ _ => rfl⟩
    | refused => exact Or.inr ⟨by simp, fun _ _ => rfl⟩
    | entered vacant space =>
      exact Or.inr ⟨by simp, fun id known => enter_ws _ ws _ _ none (Nat.ne_of_lt known)⟩
    | resumed found token =>
      rename_i old
      have spec := resumeSession_spec ((slots.challenge ws).take ws old) old ws
      refine Or.inl ⟨old, rfl, ⟨ws, roomCode, peerId, full, buffered, _, ?_, ?_, spec.1⟩, ?_⟩
      · rw [token]
        rfl
      · exact inv.handed old (inv.members old (find_spec found))
      · intro other apart
        exact congrArg Session.ws (spec.2 other apart)
    | asked found =>
      rename_i old
      have probed := (inv.challenge ws).probed old buffered
      exact Or.inr ⟨by simp, fun id _ => probed.ws id⟩
  | settle number alive =>
    dsimp only [slotStep] at taken
    split_ifs at taken
    cases taken
    refine Or.inr ⟨by simp, ?_⟩
    intro id _
    simp only [Slots.settle]
    split_ifs
    · rfl
    · rfl
  | finishJoin ws =>
    obtain ⟨probing, asked, later⟩ := bind_eq_some_iff.mp taken
    obtain ⟨alive, answered, finished⟩ := map_eq_some_iff.mp later
    have cases := finish_cases slots ws probing alive
    rw [finished] at cases
    cases cases with
    | gone => exact Or.inr ⟨by simp, fun _ _ => rfl⟩
    | refused => exact Or.inr ⟨by simp, fun _ _ => rfl⟩
    | entered open_ dead vacant =>
      exact Or.inr ⟨by simp, fun id known => enter_ws _ ws _ _ none (Nat.ne_of_lt known)⟩
    | replaced open_ dead found same =>
      exact Or.inr ⟨by simp, fun id known => enter_ws _ ws _ _ _ (Nat.ne_of_lt known)⟩
  | shut ws =>
    cases taken
    exact Or.inr ⟨by simp, fun _ _ => rfl⟩
  | cut ws cause =>
    dsimp only [slotStep] at taken
    split_ifs at taken
    cases taken
    exact Or.inr ⟨by simp, fun _ _ => rfl⟩
  | closed ws code =>
    dsimp only [slotStep] at taken
    split_ifs at taken
    have cases := closed_cases grace slots ws code
    rw [Option.some.inj taken] at cases
    cases cases with
    | idle other => exact Or.inr ⟨by simp, fun _ _ => rfl⟩
    | held acts current own resumable =>
      exact Or.inr ⟨by simp, fun id _ => field_update Session.ws (by rfl) id⟩
    | left acts current own final => exact Or.inr ⟨by simp, fun id _ => leave_ws _ _ id⟩
  | graceEnd ended =>
    obtain ⟨armed, timer, fired⟩ := map_eq_some_iff.mp taken
    have cleared : ∀ id, ((slots.clearDetachTimer ended).sessions id).ws =
        (slots.sessions id).ws := fun id => field_update Session.ws (by rfl) id
    rcases graceEnd_cases inv timer with left | ⟨_, rested⟩
    · rw [left] at fired
      obtain ⟨reached, same⟩ := Prod.mk.inj fired
      refine Or.inr ⟨?_, ?_⟩
      · intro id
        rw [← same]
        split_ifs
        · simp
        · simp
      · intro id _
        rw [← reached]
        exact (leave_ws _ _ id).trans (cleared id)
    · rw [rested] at fired
      cases fired
      exact Or.inr ⟨by simp, fun id _ => cleared id⟩

/-- The slots after an event, its change left aside. -/
def slotMove (grace : Bool) (slots : Slots) (event : SlotEvent) : Option Slots :=
  (slotStep grace slots event).map Prod.fst

theorem slots_inv {grace : Bool} {events : List SlotEvent} {slots : Slots}
    (reached : run (slotMove grace) Slots.start events = some slots) : SlotsInv slots := by
  have always : Meets (slotMove grace) (fun _ _ => True) Slots.start events :=
    meets_of_forall (fun _ _ => trivial) _ _
  refine run_keeps ?_ SlotsInv.start always reached
  intro state event next inv _ moved
  obtain ⟨outcome, taken, same⟩ := map_eq_some_iff.mp moved
  rw [← same]
  exact inv.step taken

/-- In every run of the SFU's handshake each session in the rooms is on an unclosed socket of its
own or waits for a resume, a session is lost and resumed only rightly, and no token works
twice. -/
theorem sessions_keep_their_slots {grace : Bool} {events : List SlotEvent} {slots : Slots}
    (reached : run (slotMove grace) Slots.start events = some slots) :
    (∀ id ∈ slots.members, Seated slots id) ∧
      (slots.used.map fun given => given.2).Nodup ∧
      ∀ event next change, slotStep grace slots event = some (next, change) →
        (∀ id ∈ slots.members, id ∉ next.members → LostRightly grace slots event id) ∧
          ∀ id, id < slots.nextSession →
            change = .resumed id ∨ (next.sessions id).ws ≠ (slots.sessions id).ws →
              ResumedRightly slots next event id := by
  have inv := slots_inv reached
  refine ⟨inv.seated, inv.usedOnce, ?_⟩
  intro event next change taken
  refine ⟨fun id mem lost => lost_rightly inv taken mem lost, ?_⟩
  intro id known moved
  rcases resumed_rightly inv taken with ⟨resumed, same, rightly, others⟩ | ⟨none, still⟩
  · by_cases equal : id = resumed
    · rw [equal]
      exact rightly
    · rcases moved with claimed | elsewhere
      · rw [same] at claimed
        cases claimed
        exact absurd rfl equal
      · exact absurd (others id equal) elsewhere
  · rcases moved with claimed | elsewhere
    · exact absurd claimed (none id)
    · exact absurd (still id known) elsewhere

def sampleCalls : List SlotEvent :=
  [.join 0 "room" "ann" none false false, .join 1 "room" "bob" none false false,
    .cut 0 .heartbeat, .closed 0 1006, .join 2 "room" "ann" (some 0) false false,
    .join 3 "room" "ann" (some 0) false false, .settle 0 false, .finishJoin 3,
    .closed 2 1006, .closed 1 1006, .graceEnd 1]

theorem sample_slots : ∃ slots, run (slotMove true) Slots.start sampleCalls = some slots ∧
    slots.members = [2] ∧ slots.used = [(0, 0)] ∧ ∀ id ∈ slots.members, Seated slots id := by
  have ran : (run (slotMove true) Slots.start sampleCalls).map
      (fun slots => decide (slots.members = [2] ∧ slots.used = [(0, 0)])) = some true := by
    decide +kernel
  obtain ⟨slots, reached, held⟩ := map_eq_some_iff.mp ran
  obtain ⟨members, used⟩ := of_decide_eq_true held
  exact ⟨slots, reached, members, used, (sessions_keep_their_slots reached).1⟩

end AwfulChat.Sfu
