import AwfulChat.Library.OrderedMap
import AwfulChat.Library.Runs

/-!
# Messages already held

`_handleChatMessage` and `_storeSyncBatch` of `transport.svelte.ts` as far as they decide
which rows to write: each looks its ids up, and some awaits later writes by id, with
`putMessage` or `bulkPutMessages`. Verification and the caps only take rows away.
-/

namespace AwfulChat.HeldMessages

open Library List

set_option autoImplicit false

/-- A stored message. The signature covers neither the timestamp, the sender's name, a reply
snapshot's text nor a file's dimensions. -/
structure Row where
  id : String
  roomCode : String
  senderId : String
  lamport : Int
  content : String
  timestamp : Int
  senderName : String
  replyText : Option String
  dimensions : List (Int × Int)
  deriving DecidableEq

/-- `pending` are the runs between their lookup and their write, each with the rows it found
missing. -/
structure Transport where
  stored : OrderedMap String Row
  view : List Row
  pending : List (List Row)

inductive Event
  /-- A chat frame is looked up, on screen and in storage. -/
  | handleChatMessage (row : Row)
  /-- A sync batch looks its ids up in storage. -/
  | storeSyncBatch (rows : List Row)
  /-- A run writes what its checks left of its rows. -/
  | write (run : Nat) (usable : List Row)
  /-- A run ends without a write. -/
  | refuse (run : Nat)
  /-- The messages on screen change. -/
  | show (rows : List Row)
  deriving DecidableEq

def Transport.holds (transport : Transport) (row : Row) : Bool :=
  transport.view.any (fun shown => decide (shown.id = row.id)) || transport.stored.has row.id

/-- One transaction, row by row: an id written twice keeps the later row. -/
def bulkPutMessages (stored : OrderedMap String Row) (rows : List Row) : OrderedMap String Row :=
  rows.foldl (fun held row => held.set row.id row) stored

def Transport.lookUp (transport : Transport) (missing : List Row) : Transport :=
  { transport with pending := transport.pending ++ [missing] }

def step (transport : Transport) : Event → Option Transport
  | .handleChatMessage row =>
    if transport.holds row then some transport else some (transport.lookUp [row])
  | .storeSyncBatch rows =>
    some (transport.lookUp (rows.filter fun row => !transport.stored.has row.id))
  | .write run usable =>
    match transport.pending[run]? with
    | none => none
    | some rows =>
      if usable.Sublist rows then some { transport with
        stored := bulkPutMessages transport.stored usable
        pending := transport.pending.eraseIdx run }
      else none
  | .refuse run =>
    if run < transport.pending.length then
      some { transport with pending := transport.pending.eraseIdx run }
    else none
  | .show rows => some { transport with view := rows }

/-- Runs that write one id write the same row under it. -/
def Agree (left right : List Row) : Prop :=
  ∀ one ∈ left, ∀ two ∈ right, one.id = two.id → one = two

instance : DecidableRel Agree := fun left right => inferInstanceAs (Decidable (∀ _, _))

/-- No run is between lookup and write with another row under an id that is looked up. -/
def Alone (transport : Transport) : Event → Prop
  | .handleChatMessage row => transport.holds row = false →
      ∀ run ∈ transport.pending, Agree run [row]
  | .storeSyncBatch rows => ∀ run ∈ transport.pending,
      Agree run (rows.filter fun row => !transport.stored.has row.id)
  | _ => True

instance (transport : Transport) : DecidablePred (Alone transport)
  | .handleChatMessage row => inferInstanceAs (Decidable (_ → _))
  | .storeSyncBatch rows => inferInstanceAs (Decidable (∀ _, _))
  | .write _ _ | .refuse _ | .show _ => isTrue trivial

/-- What a pending run would write stands in storage already, or nothing does. -/
structure HeldInv (transport : Transport) : Prop where
  agree : transport.pending.Pairwise Agree
  missing : ∀ run ∈ transport.pending, ∀ row ∈ run, ∀ held,
    transport.stored.get row.id = some held → held = row

theorem bulk_put_get {stored : OrderedMap String Row} {rows : List Row} {id : String} {held : Row}
    (found : (bulkPutMessages stored rows).get id = some held) :
    stored.get id = some held ∨ (held ∈ rows ∧ held.id = id) := by
  induction rows generalizing stored with
  | nil => exact Or.inl found
  | cons row rest ih =>
    rcases @ih (stored.set row.id row) found with before | ⟨mem, same⟩
    · rw [OrderedMap.get_set] at before
      split_ifs at before with hit
      · exact Or.inr ⟨by simp [Option.some.inj before], by rw [← Option.some.inj before]; exact hit.symm⟩
      · exact Or.inl before
    · exact Or.inr ⟨mem_cons_of_mem _ mem, same⟩

theorem bulk_put_keeps {stored : OrderedMap String Row} {rows : List Row} {id : String} {held : Row}
    (found : stored.get id = some held) (same : ∀ row ∈ rows, row.id = id → row = held) :
    (bulkPutMessages stored rows).get id = some held := by
  induction rows generalizing stored with
  | nil => exact found
  | cons row rest ih =>
    apply ih
    · rw [OrderedMap.get_set]
      split_ifs with hit
      · rw [same row (by simp) hit.symm]
      · exact found
    · intro other mem
      exact same other (mem_cons_of_mem _ mem)

theorem Agree.symm {left right : List Row} (agree : Agree left right) : Agree right left :=
  fun two twoMember one oneMember same => (agree one oneMember two twoMember same.symm).symm

theorem agree_others {pending : List (List Row)} (agree : pending.Pairwise Agree) {place : Nat}
    {run other : List Row} (found : pending[place]? = some run)
    (stays : other ∈ pending.eraseIdx place) : Agree run other := by
  induction pending generalizing place with
  | nil => simp at found
  | cons head rest ih =>
    rw [pairwise_cons] at agree
    cases place with
    | zero =>
      simp only [List.getElem?_cons_zero, Option.some.injEq] at found
      simp only [eraseIdx_cons_zero] at stays
      exact found ▸ agree.1 other stays
    | succ place =>
      simp only [List.getElem?_cons_succ] at found
      simp only [eraseIdx_cons_succ, mem_cons] at stays
      rcases stays with rfl | later
      · exact (agree.1 run (mem_of_getElem? found)).symm
      · exact ih agree.2 found later

section Steps

variable {transport next : Transport}

section

variable (inv : HeldInv transport)
include inv

theorem HeldInv.lookUp {missing : List Row}
    (absent : ∀ row ∈ missing, transport.stored.get row.id = none)
    (agree : ∀ run ∈ transport.pending, Agree run missing) :
    HeldInv (transport.lookUp missing) := by
  constructor
  · rw [Transport.lookUp, pairwise_append]
    refine ⟨inv.agree, by simp, ?_⟩
    intro run mem last new
    rw [mem_singleton.mp new]
    exact agree run mem
  · intro run mem row listed held found
    rcases mem_append.mp mem with old | new
    · exact inv.missing run old row listed held found
    · rw [mem_singleton.mp new] at listed
      rw [Transport.lookUp, absent row listed] at found
      cases found

theorem HeldInv.drop (place : Nat) :
    HeldInv { transport with pending := transport.pending.eraseIdx place } where
  agree := inv.agree.sublist (eraseIdx_sublist _ _)
  missing := fun run mem => inv.missing run ((eraseIdx_sublist _ _).subset mem)

theorem HeldInv.write {place : Nat} {rows usable : List Row}
    (found : transport.pending[place]? = some rows) (left : usable.Sublist rows) :
    HeldInv { transport with
      stored := bulkPutMessages transport.stored usable
      pending := transport.pending.eraseIdx place } := by
  constructor
  · exact inv.agree.sublist (eraseIdx_sublist _ _)
  · intro run mem row listed held stands
    rcases bulk_put_get stands with before | ⟨written, same⟩
    · exact inv.missing run ((eraseIdx_sublist _ _).subset mem) row listed held before
    · exact agree_others inv.agree found mem held (left.subset written) row listed same

theorem HeldInv.step {event : Event} (alone : Alone transport event)
    (stepped : step transport event = some next) : HeldInv next := by
  cases event with
  | handleChatMessage row =>
    simp only [HeldMessages.step] at stepped
    split_ifs at stepped with shown
    · cases stepped
      exact inv
    · cases stepped
      have missing : transport.holds row = false := by simpa using shown
      apply inv.lookUp _ (alone missing)
      intro other single
      rw [mem_singleton.mp single]
      simpa [Transport.holds, OrderedMap.has] using (Bool.or_eq_false_iff.mp missing).2
  | storeSyncBatch rows =>
    cases stepped
    apply inv.lookUp _ alone
    intro row listed
    simpa [OrderedMap.has] using (mem_filter.mp listed).2
  | write place usable =>
    simp only [HeldMessages.step] at stepped
    split at stepped
    · cases stepped
    · split_ifs at stepped with left
      cases stepped
      exact inv.write ‹_› left
  | refuse place =>
    simp only [HeldMessages.step, Option.ite_none_right_eq_some, Option.some.injEq] at stepped
    rw [← stepped.2]
    exact inv.drop place
  | «show» rows =>
    cases stepped
    exact ⟨inv.agree, inv.missing⟩

theorem stored_stays {event : Event} (stepped : step transport event = some next) {id : String}
    {row : Row} (held : transport.stored.get id = some row) : next.stored.get id = some row := by
  cases event with
  | handleChatMessage other =>
    simp only [HeldMessages.step] at stepped
    split_ifs at stepped <;> cases stepped <;> exact held
  | storeSyncBatch rows | «show» rows =>
    cases stepped
    exact held
  | write place usable =>
    simp only [HeldMessages.step] at stepped
    split at stepped
    · cases stepped
    · rename_i rows found
      split_ifs at stepped with left
      cases stepped
      apply bulk_put_keeps held
      intro other listed same
      have mem := left.subset listed
      exact (inv.missing rows (mem_of_getElem? found) other mem row (same ▸ held)).symm
  | refuse place =>
    simp only [HeldMessages.step, Option.ite_none_right_eq_some, Option.some.injEq] at stepped
    rw [← stepped.2]
    exact held

end

end Steps

/-- In every run in which no id is looked up while another run is about to write a different
row under it, a stored message stays as it is. -/
theorem stored_message_stays (stored : OrderedMap String Row) (view : List Row)
    (before after : List Event) (middle final : Transport) (id : String) (row : Row)
    (reached : run step ⟨stored, view, []⟩ before = some middle)
    (ran : run step middle after = some final)
    (alone : Meets step Alone ⟨stored, view, []⟩ (before ++ after))
    (held : middle.stored.get id = some row) : final.stored.get id = some row := by
  obtain ⟨first, later⟩ := meets_append.mp alone
  have begun : HeldInv ⟨stored, view, []⟩ := ⟨List.Pairwise.nil, by simp⟩
  have keeps : ∀ state event next, HeldInv state → Alone state event →
      step state event = some next → HeldInv next := fun _ _ _ inv alone stepped =>
    inv.step alone stepped
  have inv := run_keeps keeps begun first reached
  have stays : ∀ state event next, HeldInv state ∧ state.stored.get id = some row →
      Alone state event → step state event = some next →
      HeldInv next ∧ next.stored.get id = some row := fun _ _ _ both alone stepped =>
    ⟨both.1.step alone stepped, stored_stays both.1 stepped both.2⟩
  exact (run_keeps stays ⟨inv, held⟩ (later middle reached) ran).2

def sampleRow (id senderName : String) : Row :=
  ⟨id, "room", "did:key:a", 1, "hello", 1000, senderName, none, []⟩

/-- Two copies of a message arrive at once and differ in the sender's name, which nothing
signs: both are found missing, and the later write replaces the earlier. -/
theorem stored_message_replaced :
    ¬ ∀ (stored : OrderedMap String Row) (view : List Row) (before after : List Event)
        (middle final : Transport) (id : String) (row : Row),
      run step ⟨stored, view, []⟩ before = some middle →
      run step middle after = some final →
      middle.stored.get id = some row → final.stored.get id = some row := by
  intro stays
  have kept := stays .empty []
    [.handleChatMessage (sampleRow "m1" "Ann"), .storeSyncBatch [sampleRow "m1" "Eve"],
      .write 0 [sampleRow "m1" "Ann"]]
    [.write 0 [sampleRow "m1" "Eve"]] _ _ "m1" (sampleRow "m1" "Ann") rfl rfl rfl
  exact absurd kept (by decide +kernel)

def sampleBefore : List Event :=
  [.storeSyncBatch [sampleRow "m1" "Ann", sampleRow "m2" "Ann"],
    .write 0 [sampleRow "m1" "Ann", sampleRow "m2" "Ann"]]

def sampleAfter : List Event :=
  [.handleChatMessage (sampleRow "m1" "Eve"), .storeSyncBatch [sampleRow "m2" "Eve"], .write 0 []]

theorem sample_stored_message_stays :
    ∃ middle final, run step ⟨.empty, [], []⟩ sampleBefore = some middle ∧
      run step middle sampleAfter = some final ∧
      final.stored.get "m1" = some (sampleRow "m1" "Ann") :=
  ⟨_, _, rfl, rfl, stored_message_stays .empty [] sampleBefore sampleAfter _ _ "m1"
    (sampleRow "m1" "Ann") rfl rfl (by decide +kernel) rfl⟩

end AwfulChat.HeldMessages
