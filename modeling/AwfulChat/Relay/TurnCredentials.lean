import AwfulChat.Library.Runs
import AwfulChat.Relay.ClientIp
import AwfulChat.Relay.Registry
import Mathlib.Data.List.Chain
import Mathlib.Data.List.DropRight
import Mathlib.Data.List.TakeWhile
import Mathlib.Data.Nat.ModEq

/-!
# TURN credentials

`turnCredentialFor` of `turn.go`. A client holds a few live credentials in each of its buckets and
is handed the newest of them again past that; a fresh one carries the next of the fixed ids of its
widest bucket, in turn. Times are in nanoseconds, expiries in whole seconds.
-/

namespace AwfulChat.Relay.TurnCredentials

open Library List

set_option autoImplicit false

def second : Nat := 1000000000

def turnMaxLivePerClient : Nat := 6

/-- In seconds, as it is compared with. -/
def turnReissueMinLife : Nat := 30 * 60

def sweepInterval : Nat := 60 * second

structure TurnCredential where
  username : Bytes
  expiry : Nat
  slot : Nat
  deriving DecidableEq

def decimal (value : Nat) : Bytes :=
  (Nat.toDigits 10 value).map fun char => UInt8.ofNat char.toNat

/-- The part of the username behind the expiry, which coturn counts its quota by. -/
def TurnCredential.id (credential : TurnCredential) : Bytes :=
  (credential.username.dropWhile fun unit => decide (unit ≠ 58)).tail

def mintTurnCredential (turnCredTTL now : Nat) (id : Bytes) (slot : Nat) :
    TurnCredential where
  username := decimal ((now + turnCredTTL) / second) ++ 58 :: id
  expiry := (now + turnCredTTL) / second
  slot := slot

def TurnCredential.expired (now : Nat) (credential : TurnCredential) : Bool :=
  decide (credential.expiry ≤ now / second)

section Calls

variable {Key : Type}

/-- What each bucket holds, oldest first; a bucket that holds nothing is not listed. -/
structure TurnState (Key : Type) where
  turnLive : Key → List TurnCredential
  turnLastSwept : Option Nat

def TurnState.empty : TurnState Key := ⟨fun _ => [], none⟩

/-- The list that `turnLiveLocked` leaves of a bucket. -/
def liveAt (now : Nat) (held : List TurnCredential) : List TurnCredential :=
  held.dropWhile (TurnCredential.expired now)

def turnLiveLocked [DecidableEq Key] (now : Nat) (key : Key)
    (turnLive : Key → List TurnCredential) :
    Key → List TurnCredential :=
  Function.update turnLive key (liveAt now (turnLive key))

def TurnState.sweep (now : Nat) (state : TurnState Key) : TurnState Key :=
  if (state.turnLastSwept.map fun swept => decide (sweepInterval < now - swept)).getD true then
    ⟨fun key => liveAt now (state.turnLive key), some now⟩
  else state

/-- Whether a bucket gives out its newest credential again. -/
def reissued (now limit : Nat) (live : List TurnCredential) : Option TurnCredential :=
  if live.length < limit then none
  else live.getLast?.filter fun newest => decide (now / second + turnReissueMinLife ≤ newest.expiry)

/-- The loop over the buckets of a client. -/
def reissueLoop [DecidableEq Key] (now : Nat) : List (Key × Nat) → (Key → List TurnCredential) →
    Option TurnCredential × (Key → List TurnCredential)
  | [], turnLive => (none, turnLive)
  | (key, limit) :: rest, turnLive =>
    let cleaned := turnLiveLocked now key turnLive
    match reissued now limit (cleaned key) with
    | some newest => (some newest, cleaned)
    | none => reissueLoop now rest cleaned

/-- What a bucket is left with by a credential that is minted for these buckets. -/
def addMinted [DecidableEq Key] (keys : List (Key × Nat)) (minted : TurnCredential)
    (turnLive : Key → List TurnCredential) (key : Key) : List TurnCredential :=
  if key ∈ keys.map Prod.fst then turnLive key ++ [minted] else turnLive key

/-- The slot after that of the newest credential of a bucket. -/
def nextSlot (ids : Nat) (held : List TurnCredential) : Nat :=
  match held.getLast? with
  | none => 0
  | some newest => (newest.slot + 1) % ids

structure TurnReply where
  credential : TurnCredential
  minted : Bool

variable (turnCredTTL : Nat) (turnClientID : Key → Nat → Bytes)

/-- What the buckets of a client, the widest last, give it with their limits. -/
def turnBucketCredential [DecidableEq Key] (now : Nat) (keys : List (Key × Nat))
    (state : TurnState Key) :
    Option (TurnReply × TurnState Key) :=
  let swept := state.sweep now
  let looped := reissueLoop now keys swept.turnLive
  match looped.1, keys.getLast? with
  | some newest, _ => some (⟨newest, false⟩, { swept with turnLive := looped.2 })
  | none, some (idKey, limit) =>
    let slot := nextSlot (limit + 1) (looped.2 idKey)
    let minted := mintTurnCredential turnCredTTL now (turnClientID idKey slot) slot
    some (⟨minted, true⟩, { swept with turnLive := addMinted keys minted looped.2 })
  | none, none => none

end Calls

section Time

variable {now later : Nat} {held : List TurnCredential} {credential : TurnCredential}

theorem expired_later (order : now ≤ later) (gone : credential.expired now = true) :
    credential.expired later = true := by
  unfold TurnCredential.expired at gone ⊢
  exact decide_eq_true ((of_decide_eq_true gone).trans (Nat.div_le_div_right order))

theorem live_suffix (now : Nat) (held : List TurnCredential) : liveAt now held <:+ held :=
  dropWhile_suffix _

section

variable (sorted : held.Pairwise fun older newer => older.expiry ≤ newer.expiry)
include sorted

theorem live_all :
    ∀ credential ∈ liveAt now held, credential.expired now = false := by
  induction held with
  | nil =>
    nofun
  | cons oldest rest ih =>
    obtain ⟨first, others⟩ := pairwise_cons.mp sorted
    intro credential mem
    unfold liveAt at mem
    cases gone : oldest.expired now with
    | true =>
      rw [dropWhile_cons_of_pos gone] at mem
      exact ih others credential mem
    | false =>
      rw [dropWhile_cons_of_neg (by simp [gone])] at mem
      rcases mem_cons.mp mem with rfl | behind
      · exact gone
      · have later := first credential behind
        unfold TurnCredential.expired at gone ⊢
        have alive := of_decide_eq_false gone
        exact decide_eq_false (by omega)

theorem expired_in_front (now : Nat) :
    ∃ gone live, held = gone ++ live ∧ (∀ credential ∈ gone, credential.expired now = true) ∧
      ∀ credential ∈ live, credential.expired now = false := by
  refine ⟨held.takeWhile (TurnCredential.expired now), liveAt now held, ?_, ?_, live_all sorted⟩
  · exact (takeWhile_append_dropWhile).symm
  · intro credential mem
    exact mem_takeWhile_imp mem

end

theorem live_self (alive : ∀ credential ∈ held, credential.expired now = false) :
    liveAt now held = held := by
  unfold liveAt
  cases held with
  | nil => rfl
  | cons oldest rest =>
    rw [dropWhile_cons_of_neg (by simp [alive oldest mem_cons_self])]

theorem live_filter (sorted : held.Pairwise fun older newer => older.expiry ≤ newer.expiry) :
    (held.filter fun credential => !credential.expired now) = liveAt now held := by
  obtain ⟨gone, live, whole, front, back⟩ := expired_in_front sorted now
  have dropped : liveAt now held = live := by
    rw [whole]
    unfold liveAt
    rw [dropWhile_append_of_pos front]
    exact live_self back
  rw [dropped, whole, filter_append]
  have none : (gone.filter fun credential => !credential.expired now) = [] := by
    rw [filter_eq_nil_iff]
    intro credential mem
    simp [front credential mem]
  have all : (live.filter fun credential => !credential.expired now) = live := by
    rw [filter_eq_self]
    intro credential mem
    simp [back credential mem]
  rw [none, all, nil_append]

theorem live_mem (mem : credential ∈ held) (alive : credential.expired now = false) :
    credential ∈ liveAt now held := by
  rw [← takeWhile_append_dropWhile (p := TurnCredential.expired now) (l := held),
    mem_append] at mem
  rcases mem with front | back
  · rw [mem_takeWhile_imp front] at alive
    cases alive
  · exact back

theorem live_length_le (order : now ≤ later) :
    (liveAt later held).length ≤ (liveAt now held).length := by
  induction held with
  | nil => exact Nat.le_refl 0
  | cons oldest rest ih =>
    unfold liveAt at ih ⊢
    cases gone : oldest.expired now with
    | true =>
      rw [dropWhile_cons_of_pos gone,
        dropWhile_cons_of_pos (expired_later order gone)]
      exact ih
    | false =>
      have whole : (oldest :: rest).dropWhile (TurnCredential.expired now) = oldest :: rest :=
        dropWhile_cons_of_neg (by simp [gone])
      rw [whole]
      exact (dropWhile_suffix _).length_le

end Time

section Slots

/-- Slots in turn. -/
def InTurn (ids : Nat) (held : List TurnCredential) : Prop :=
  held.IsChain fun older newer => newer.slot = (older.slot + 1) % ids

variable {held : List TurnCredential}

variable {ids : Nat}

theorem slot_behind (turns : InTurn ids held) {newest : TurnCredential}
    (last : held.getLast? = some newest) :
    ∀ credential ∈ held, ∃ steps < held.length,
      credential.slot + steps ≡ newest.slot [MOD ids] := by
  induction held with
  | nil =>
    nofun
  | cons oldest rest ih =>
    intro credential mem
    cases rest with
    | nil =>
      cases last
      rw [mem_singleton.mp mem]
      exact ⟨0, Nat.one_pos, Nat.ModEq.refl _⟩
    | cons next others =>
      obtain ⟨turn, behind⟩ := isChain_cons_cons.mp turns
      have shown : (next :: others).getLast? = some newest := by
        rw [← last]
        rfl
      rcases mem_cons.mp mem with rfl | later
      · obtain ⟨steps, few, same⟩ := ih behind shown next mem_cons_self
        refine ⟨steps + 1, by rw [length_cons]; omega, ?_⟩
        have moved : credential.slot + 1 ≡ next.slot [MOD ids] := by
          rw [turn]
          exact (Nat.mod_modEq _ _).symm
        have whole := (moved.add_right steps).trans same
        rw [Nat.add_assoc, Nat.add_comm 1 steps] at whole
        exact whole
      · obtain ⟨steps, few, same⟩ := ih behind shown credential later
        exact ⟨steps, Nat.lt_succ_of_lt few, same⟩

theorem next_slot_fresh (turns : InTurn ids held)
    (few : held.length < ids) : ∀ credential ∈ held, credential.slot ≠ nextSlot ids held := by
  intro credential mem same
  unfold nextSlot at same
  cases last : held.getLast? with
  | none =>
    rw [List.getLast?_eq_none_iff.mp last] at mem
    cases mem
  | some newest =>
    rw [last] at same
    dsimp only at same
    obtain ⟨steps, within, behind⟩ := slot_behind turns last credential mem
    rw [same] at behind
    have around : newest.slot + (steps + 1) ≡ newest.slot + 0 [MOD ids] := by
      have moved := (Nat.mod_modEq (newest.slot + 1) ids).symm.add_right steps
      have whole := moved.trans behind
      rw [Nat.add_assoc, Nat.add_comm 1 steps] at whole
      exact whole
    have zero := Nat.ModEq.add_left_cancel' newest.slot around
    have divides := (Nat.modEq_zero_iff_dvd).mp zero
    have enough := Nat.le_of_dvd (Nat.succ_pos steps) divides
    omega

theorem InTurn.append (turns : InTurn ids held) {credential : TurnCredential}
    (next : credential.slot = nextSlot ids held) :
    InTurn ids (held ++ [credential]) := by
  unfold InTurn
  rw [isChain_append]
  refine ⟨turns, isChain_singleton _, ?_⟩
  intro newest last first head
  cases head
  rw [next]
  unfold nextSlot
  rw [Option.mem_def.mp last]

theorem InTurn.suffix {held part : List TurnCredential} (turns : InTurn ids held)
    (behind : part <:+ held) : InTurn ids part :=
  List.IsChain.suffix turns behind

theorem next_slot_lt (positive : 0 < ids) (held : List TurnCredential) :
    nextSlot ids held < ids := by
  unfold nextSlot
  split
  · exact positive
  · exact Nat.mod_lt _ positive

end Slots

section Buckets

variable {turnCredTTL limit now later : Nat} {held : List TurnCredential}

/-- A bucket with its credentials in order: at most one more than its limit are live, and where
there are that many, all but the newest will have expired once that is near its end. -/
structure Bucket (turnCredTTL limit now : Nat) (held : List TurnCredential) : Prop where
  sorted : held.Pairwise fun older newer => older.expiry ≤ newer.expiry
  recent : ∀ credential ∈ held, credential.expiry ≤ (now + turnCredTTL) / second
  few : (liveAt now held).length ≤ limit + 1
  spaced : limit < (liveAt now held).length → ∀ older newest, held = older ++ [newest] →
    ∀ credential ∈ older, credential.expiry + turnReissueMinLife ≤ newest.expiry

theorem Bucket.empty (turnCredTTL limit now : Nat) : Bucket turnCredTTL limit now [] where
  sorted := .nil
  recent := nofun
  few := Nat.zero_le _
  spaced := nofun

theorem Bucket.passes (bucket : Bucket turnCredTTL limit now held) (order : now ≤ later) :
    Bucket turnCredTTL limit later held where
  sorted := bucket.sorted
  recent := by
    intro credential mem
    exact (bucket.recent credential mem).trans (Nat.div_le_div_right (by omega))
  few := (live_length_le order).trans bucket.few
  spaced := fun many => bucket.spaced (Nat.lt_of_lt_of_le many (live_length_le order))

theorem Bucket.live (bucket : Bucket turnCredTTL limit now held) :
    Bucket turnCredTTL limit now (liveAt now held) := by
  have alive : ∀ credential ∈ liveAt now held, credential.expired now = false :=
    live_all bucket.sorted
  have behind := live_suffix now held
  refine ⟨bucket.sorted.sublist behind.sublist, ?_, ?_, ?_⟩
  · intro credential mem
    exact bucket.recent credential (behind.subset mem)
  · rw [live_self alive]
    exact bucket.few
  · rw [live_self alive]
    intro many older newest shape credential mem
    obtain ⟨gone, whole⟩ := behind
    rw [shape, ← append_assoc] at whole
    exact bucket.spaced many (gone ++ older) newest whole.symm credential
      (mem_append_right _ mem)

theorem bucket_not_full (positive : 0 < limit) (bucket : Bucket turnCredTTL limit now held)
    (alive : ∀ credential ∈ held, credential.expired now = false)
    (none : reissued now limit held = none) :
    held.length ≤ limit ∧ (limit ≤ held.length → ∀ credential ∈ held,
      credential.expiry < now / second + turnReissueMinLife) := by
  have short : ∀ older newest, held = older ++ [newest] → limit ≤ held.length →
      newest.expiry < now / second + turnReissueMinLife := by
    intro older newest shape many
    unfold reissued at none
    rw [if_neg (Nat.not_lt.mpr many), shape, List.getLast?_concat] at none
    have spent : decide (now / second + turnReissueMinLife ≤ newest.expiry) = false := by
      simpa [Option.filter] using none
    exact Nat.lt_of_not_le (of_decide_eq_false spent)
  have all : limit ≤ held.length → ∀ credential ∈ held,
      credential.expiry < now / second + turnReissueMinLife := by
    intro many credential mem
    obtain ⟨older, newest, shape⟩ :=
      (eq_nil_or_concat' held).resolve_left (ne_nil_of_mem mem)
    have end_near := short older newest shape many
    have sorted := bucket.sorted
    rw [shape] at sorted mem
    rcases mem_append.mp mem with before | last
    · have order := (pairwise_append.mp sorted).2.2 credential before newest (by simp)
      omega
    · rw [mem_singleton.mp last]
      exact end_near
  refine ⟨?_, all⟩
  by_contra many
  have past : limit < held.length := Nat.lt_of_not_le many
  have filled : held ≠ [] := ne_nil_of_length_pos (by omega)
  obtain ⟨older, newest, shape⟩ := (eq_nil_or_concat' held).resolve_left filled
  have end_near := short older newest shape past.le
  have count := congrArg List.length shape
  rw [length_append, length_singleton] at count
  obtain ⟨credential, mem⟩ := exists_mem_of_length_pos (by omega : 0 < older.length)
  have whole : limit < (liveAt now held).length := by
    rw [live_self alive]
    exact past
  have apart := bucket.spaced whole older newest shape credential mem
  have left := alive credential (by rw [shape]; exact mem_append_left _ mem)
  have living := of_decide_eq_false left
  omega

theorem Bucket.minted (long : 2 * turnReissueMinLife * second ≤ turnCredTTL) (positive : 0 < limit)
    (bucket : Bucket turnCredTTL limit now held)
    (alive : ∀ credential ∈ held, credential.expired now = false)
    (none : reissued now limit held = none) (id : Bytes) (slot : Nat) :
    Bucket turnCredTTL limit now (held ++ [mintTurnCredential turnCredTTL now id slot]) := by
  obtain ⟨room, spent⟩ := bucket_not_full positive bucket alive none
  have ahead : now / second + 2 * turnReissueMinLife ≤ (now + turnCredTTL) / second := by
    unfold second turnReissueMinLife at *
    omega
  have living : ∀ credential ∈ held ++ [mintTurnCredential turnCredTTL now id slot],
      credential.expired now = false := by
    intro credential mem
    rcases mem_append.mp mem with before | last
    · exact alive credential before
    · rw [mem_singleton.mp last]
      unfold TurnCredential.expired mintTurnCredential
      unfold turnReissueMinLife at ahead
      exact decide_eq_false (by dsimp only; omega)
  refine ⟨?_, ?_, ?_, ?_⟩
  · refine pairwise_append.mpr ⟨bucket.sorted, pairwise_singleton _ _, ?_⟩
    intro credential mem newest last
    rw [mem_singleton.mp last]
    exact bucket.recent credential mem
  · intro credential mem
    rcases mem_append.mp mem with before | last
    · exact bucket.recent credential before
    · rw [mem_singleton.mp last]
      exact Nat.le_refl _
  · rw [live_self living, length_append, length_singleton]
    exact Nat.succ_le_succ room
  · rw [live_self living, length_append, length_singleton]
    intro many older newest shape credential mem
    obtain ⟨same, last⟩ := append_inj' shape rfl
    rw [← (List.cons.inj last).1]
    rw [← same] at mem
    have near := spent (Nat.le_of_lt_succ many) credential mem
    unfold mintTurnCredential
    dsimp only
    omega

end Buckets

section Ids

theorem decimal_digit {value : Nat} {unit : UInt8} (mem : unit ∈ decimal value) :
    48 ≤ unit.toNat ∧ unit.toNat ≤ 57 := by
  obtain ⟨char, listed, rfl⟩ := mem_map.mp mem
  have digit := Nat.isDigit_of_mem_toDigits (by decide) (by decide) listed
  simp only [Char.isDigit, Bool.and_eq_true, decide_eq_true_eq] at digit
  have low : 48 ≤ char.toNat := UInt32.le_iff_toNat_le.mp digit.1
  have high : char.toNat ≤ 57 := UInt32.le_iff_toNat_le.mp digit.2
  rw [UInt8.toNat_ofNat', Nat.mod_eq_of_lt (by omega)]
  exact ⟨low, high⟩

theorem minted_id (turnCredTTL now : Nat) (id : Bytes) (slot : Nat) :
    (mintTurnCredential turnCredTTL now id slot).id = id := by
  unfold TurnCredential.id mintTurnCredential
  dsimp only
  have digits : ∀ unit ∈ decimal ((now + turnCredTTL) / second), decide (unit ≠ 58) = true :=
    fun unit mem => decide_eq_true (ne_of_apply_ne UInt8.toNat (by
      have digit := decimal_digit mem
      have colon : (58 : UInt8).toNat = 58 := rfl
      omega))
  rw [dropWhile_append_of_pos digits, dropWhile_cons_of_neg (by simp), tail_cons]

end Ids

section Calls

variable {Key Client : Type} {keysOf : Client → List (Key × Nat)}
  {turnCredTTL now later : Nat} {turnClientID : Key → Nat → Bytes}
  {turnLive cleaned : Key → List TurnCredential}

/-- Clients that share a bucket share its limit and their widest bucket, whose ids they carry. -/
structure TurnKeys (keysOf : Client → List (Key × Nat)) : Prop where
  filled : ∀ client, keysOf client ≠ []
  positive : ∀ client key limit, (key, limit) ∈ keysOf client → 0 < limit
  shared : ∀ client other key limit bound, (key, limit) ∈ keysOf client →
    (key, bound) ∈ keysOf other →
      limit = bound ∧ (keysOf client).getLast? = (keysOf other).getLast?

/-- The buckets of all clients: their ids are those of the widest, held in turn, and what is live in
one is in the widest too. -/
structure Held (keysOf : Client → List (Key × Nat)) (turnCredTTL : Nat)
    (turnClientID : Key → Nat → Bytes) (now : Nat)
    (turnLive : Key → List TurnCredential) : Prop where
  bucket : ∀ client key limit, (key, limit) ∈ keysOf client →
    Bucket turnCredTTL limit now (turnLive key)
  turns : ∀ client idKey limit, (keysOf client).getLast? = some (idKey, limit) →
    InTurn (limit + 1) (turnLive idKey)
  ids : ∀ client idKey limit, (keysOf client).getLast? = some (idKey, limit) →
    ∀ key ∈ (keysOf client).map Prod.fst, ∀ credential ∈ turnLive key,
      credential.id = turnClientID idKey credential.slot ∧ credential.slot < limit + 1
  inside : ∀ client idKey limit, (keysOf client).getLast? = some (idKey, limit) →
    ∀ key ∈ (keysOf client).map Prod.fst, ∀ credential ∈ turnLive key,
      credential.expired now = true ∨ credential ∈ turnLive idKey
  known : ∀ key, ∀ credential ∈ turnLive key, ∃ client limit, (key, limit) ∈ keysOf client

theorem Held.empty (keysOf : Client → List (Key × Nat)) (turnCredTTL : Nat)
    (turnClientID : Key → Nat → Bytes) (now : Nat) :
    Held keysOf turnCredTTL turnClientID now fun _ => [] := by
  refine ⟨fun _ _ limit _ => Bucket.empty turnCredTTL limit now, fun _ _ _ _ => .nil, ?_, ?_,
    ?_⟩
  · nofun
  · nofun
  · nofun

theorem Held.passes (held : Held keysOf turnCredTTL turnClientID now turnLive)
    (order : now ≤ later) : Held keysOf turnCredTTL turnClientID later turnLive := by
  refine ⟨?_, held.turns, held.ids, ?_, held.known⟩
  · intro client key limit listed
    exact (held.bucket client key limit listed).passes order
  · intro client idKey limit widest key listed credential mem
    exact (held.inside client idKey limit widest key listed credential mem).imp_left
      (expired_later order)

/-- Of some buckets the expired credentials were dropped. -/
def Cleaned (now : Nat) (turnLive cleaned : Key → List TurnCredential) : Prop :=
  ∀ key, cleaned key = turnLive key ∨ cleaned key = liveAt now (turnLive key)

theorem live_again (now : Nat) (held : List TurnCredential) :
    liveAt now (liveAt now held) = liveAt now held :=
  dropWhile_idempotent _ held

theorem Cleaned.trans {middle : Key → List TurnCredential} (first : Cleaned now turnLive middle)
    (next : Cleaned now middle cleaned) : Cleaned now turnLive cleaned := by
  intro key
  rcases next key with same | dropped
  · rw [same]
    exact first key
  · right
    rw [dropped]
    rcases first key with before | already
    · rw [before]
    · rw [already, live_again]

variable {keys : List (Key × Nat)} {credential : TurnCredential} {key : Key}

theorem cleaned_subset (clean : Cleaned now turnLive cleaned) (mem : credential ∈ cleaned key) :
    credential ∈ turnLive key := by
  rcases clean key with same | dropped
  · exact same ▸ mem
  · rw [dropped] at mem
    exact (live_suffix now _).subset mem

theorem mem_cleaned (clean : Cleaned now turnLive cleaned) (mem : credential ∈ turnLive key)
    (living : credential.expired now = false) : credential ∈ cleaned key := by
  rcases clean key with same | dropped
  · rw [same]
    exact mem
  · rw [dropped]
    exact live_mem mem living

theorem Held.clean (held : Held keysOf turnCredTTL turnClientID now turnLive)
    (clean : Cleaned now turnLive cleaned) :
    Held keysOf turnCredTTL turnClientID now cleaned := by
  refine ⟨?_, ?_, ?_, ?_, fun key _ mem => held.known key _ (cleaned_subset clean mem)⟩
  · intro client key limit listed
    have bucket := held.bucket client key limit listed
    rcases clean key with same | dropped
    · rw [same]
      exact bucket
    · rw [dropped]
      exact bucket.live
  · intro client idKey limit widest
    have turns := held.turns client idKey limit widest
    rcases clean idKey with same | dropped
    · rw [same]
      exact turns
    · rw [dropped]
      exact turns.suffix (live_suffix now _)
  · intro client idKey limit widest key listed credential mem
    exact held.ids client idKey limit widest key listed credential (cleaned_subset clean mem)
  · intro client idKey limit widest key listed credential mem
    cases gone : credential.expired now with
    | true => exact Or.inl rfl
    | false =>
      right
      have inside := (held.inside client idKey limit widest key listed credential
        (cleaned_subset clean mem)).resolve_left (by simp [gone])
      exact mem_cleaned clean inside gone

theorem sweep_cleaned (now : Nat) (state : TurnState Key) :
    Cleaned now state.turnLive (state.sweep now).turnLive := by
  intro key
  unfold TurnState.sweep
  split_ifs
  · exact Or.inr rfl
  · exact Or.inl rfl

theorem limit_of_key (mem : key ∈ keys.map Prod.fst) :
    ∃ limit, (key, limit) ∈ keys := by
  simpa using mem

theorem TurnKeys.same_widest (turnKeys : TurnKeys keysOf) {client other : Client}
    (first : key ∈ (keysOf client).map Prod.fst) (second : key ∈ (keysOf other).map Prod.fst) :
    (keysOf client).getLast? = (keysOf other).getLast? := by
  obtain ⟨limit, listed⟩ := limit_of_key first
  obtain ⟨bound, shown⟩ := limit_of_key second
  exact (turnKeys.shared client other key limit bound listed shown).2

variable {client : Client} {idKey : Key} {limit : Nat}

theorem widest_listed (widest : keys.getLast? = some (idKey, limit)) : idKey ∈ keys.map Prod.fst :=
  mem_map.mpr ⟨(idKey, limit), mem_of_getLast? widest, rfl⟩

theorem Held.slot_fresh (turnKeys : TurnKeys keysOf)
    (held : Held keysOf turnCredTTL turnClientID now turnLive)
    (widest : (keysOf client).getLast? = some (idKey, limit))
    (alive : ∀ credential ∈ turnLive idKey, credential.expired now = false)
    (short : reissued now limit (turnLive idKey) = none)
    (listed : key ∈ (keysOf client).map Prod.fst) (mem : credential ∈ turnLive key)
    (living : credential.expired now = false) :
    credential.slot ≠ nextSlot (limit + 1) (turnLive idKey) := by
  have there := mem_of_getLast? widest
  have room := bucket_not_full (turnKeys.positive client idKey limit there)
    (held.bucket client idKey limit there) alive short
  have inside := (held.inside client idKey limit widest key listed credential mem).resolve_left
    (by simp [living])
  exact next_slot_fresh (held.turns client idKey limit widest) (Nat.lt_succ_of_le room.1)
    credential inside

variable [DecidableEq Key]

theorem locked_cleaned (now : Nat) (key : Key) (turnLive : Key → List TurnCredential) :
    Cleaned now turnLive (turnLiveLocked now key turnLive) := by
  intro other
  unfold turnLiveLocked
  by_cases same : other = key
  · rw [same, Function.update_self]
    exact Or.inr rfl
  · rw [Function.update_of_ne same]
    exact Or.inl rfl

theorem loop_cleaned (now : Nat) (keys : List (Key × Nat)) (turnLive : Key → List TurnCredential) :
    Cleaned now turnLive (reissueLoop now keys turnLive).2 := by
  induction keys generalizing turnLive with
  | nil => exact fun key => Or.inl rfl
  | cons bucket rest ih =>
    obtain ⟨key, limit⟩ := bucket
    have first := locked_cleaned now key turnLive
    unfold reissueLoop
    dsimp only
    split
    · exact first
    · exact first.trans (ih _)

theorem loop_again {newest : TurnCredential}
    (found : (reissueLoop now keys turnLive).1 = some newest) :
    ∃ key limit, (key, limit) ∈ keys ∧ newest ∈ turnLive key ∧
      now / second + turnReissueMinLife ≤ newest.expiry := by
  induction keys generalizing turnLive with
  | nil => cases found
  | cons bucket rest ih =>
    obtain ⟨key, limit⟩ := bucket
    have first := locked_cleaned now key turnLive
    unfold reissueLoop at found
    dsimp only at found
    split at found
    · rename_i again shown
      cases found
      unfold reissued at shown
      split_ifs at shown
      obtain ⟨last, left⟩ := Option.filter_eq_some_iff.mp shown
      refine ⟨key, limit, mem_cons_self, ?_, of_decide_eq_true left⟩
      exact cleaned_subset first (mem_of_getLast? last)
    · obtain ⟨other, bound, listed, mem, left⟩ := ih found
      exact ⟨other, bound, mem_cons_of_mem _ listed, cleaned_subset first mem, left⟩

theorem loop_none (found : (reissueLoop now keys turnLive).1 = none) :
    ∀ key limit, (key, limit) ∈ keys →
      (reissueLoop now keys turnLive).2 key = liveAt now (turnLive key) ∧
        reissued now limit ((reissueLoop now keys turnLive).2 key) = none := by
  induction keys generalizing turnLive with
  | nil =>
    nofun
  | cons bucket rest ih =>
    obtain ⟨first, bound⟩ := bucket
    have locked := locked_cleaned now first turnLive
    have own : turnLiveLocked now first turnLive first = liveAt now (turnLive first) := by
      unfold turnLiveLocked
      rw [Function.update_self]
    unfold reissueLoop at found ⊢
    dsimp only at found ⊢
    split at found
    · cases found
    · rename_i short
      intro key limit listed
      rcases mem_cons.mp listed with same | later
      · cases same
        have rest_cleaned := loop_cleaned now rest (turnLiveLocked now first turnLive) first
        rw [own, live_again, or_self] at rest_cleaned
        rw [rest_cleaned]
        rw [own] at short
        exact ⟨rfl, short⟩
      · obtain ⟨left, none_again⟩ := ih found key limit later
        refine ⟨?_, none_again⟩
        rw [left]
        rcases locked key with same | dropped
        · rw [same]
        · rw [dropped, live_again]

theorem add_minted_mem {minted credential : TurnCredential}
    (mem : credential ∈ addMinted keys minted turnLive key) :
    credential ∈ turnLive key ∨ key ∈ keys.map Prod.fst ∧ credential = minted := by
  unfold addMinted at mem
  split_ifs at mem with listed
  · exact (mem_append.mp mem).imp_right fun last => ⟨listed, mem_singleton.mp last⟩
  · exact Or.inl mem

theorem mem_add_minted {minted credential : TurnCredential}
    (mem : credential ∈ turnLive key) : credential ∈ addMinted keys minted turnLive key := by
  unfold addMinted
  split_ifs
  · exact mem_append_left _ mem
  · exact mem

theorem Held.minted (turnKeys : TurnKeys keysOf)
    (long : 2 * turnReissueMinLife * second ≤ turnCredTTL)
    (held : Held keysOf turnCredTTL turnClientID now turnLive)
    (widest : (keysOf client).getLast? = some (idKey, limit))
    (ready : ∀ key bound, (key, bound) ∈ keysOf client →
      (∀ credential ∈ turnLive key, credential.expired now = false) ∧
        reissued now bound (turnLive key) = none) :
    Held keysOf turnCredTTL turnClientID now
      (addMinted (keysOf client) (mintTurnCredential turnCredTTL now
        (turnClientID idKey (nextSlot (limit + 1) (turnLive idKey)))
        (nextSlot (limit + 1) (turnLive idKey))) turnLive) := by
  refine ⟨?_, ?_, ?_, ?_, ?_⟩
  · intro other key bound listed
    have bucket := held.bucket other key bound listed
    unfold addMinted
    split_ifs with inside
    · obtain ⟨own, shown⟩ := limit_of_key inside
      obtain ⟨alive, none⟩ := ready key own shown
      rw [(turnKeys.shared other client key bound own listed shown).1] at bucket ⊢
      exact bucket.minted long (turnKeys.positive client key own shown) alive none _ _
    · exact bucket
  · intro other otherKey bound otherWidest
    have turns := held.turns other otherKey bound otherWidest
    unfold addMinted
    split_ifs with inside
    · have same := turnKeys.same_widest inside (widest_listed otherWidest)
      rw [widest, otherWidest] at same
      cases same
      exact turns.append rfl
    · exact turns
  · intro other otherKey bound otherWidest key listed credential mem
    rcases add_minted_mem mem with before | ⟨inside, rfl⟩
    · exact held.ids other otherKey bound otherWidest key listed credential before
    · have same := turnKeys.same_widest inside listed
      rw [widest, otherWidest] at same
      cases same
      exact ⟨minted_id turnCredTTL now _ _, next_slot_lt (Nat.succ_pos _) _⟩
  · intro other otherKey bound otherWidest key listed credential mem
    rcases add_minted_mem mem with before | ⟨inside, rfl⟩
    · exact (held.inside other otherKey bound otherWidest key listed credential before).imp_right
        mem_add_minted
    · have same := turnKeys.same_widest inside listed
      rw [widest, otherWidest] at same
      cases same
      right
      unfold addMinted
      rw [if_pos (widest_listed widest)]
      exact mem_append_right _ (mem_singleton_self _)
  · intro key credential mem
    rcases add_minted_mem mem with before | ⟨inside, _⟩
    · exact held.known key credential before
    · obtain ⟨bound, listed⟩ := limit_of_key inside
      exact ⟨client, bound, listed⟩

/-- A reply carries an id of the widest bucket: when it is fresh, one that no live credential of the
client's buckets carries, and else it is one of them with enough of its life left. -/
structure Served (turnClientID : Key → Nat → Bytes) (now : Nat) (idKey : Key) (limit : Nat)
    (keys : List (Key × Nat)) (turnLive : Key → List TurnCredential) (reply : TurnReply) :
    Prop where
  fixed : ∃ slot < limit + 1, reply.credential.id = turnClientID idKey slot
  fresh : reply.minted = true → ∀ key ∈ keys.map Prod.fst, ∀ credential ∈ turnLive key,
    credential.expired now = false → credential.id ≠ reply.credential.id
  again : reply.minted = false → now / second + turnReissueMinLife ≤ reply.credential.expiry

theorem Held.ready (held : Held keysOf turnCredTTL turnClientID now turnLive)
    (found : (reissueLoop now (keysOf client) turnLive).1 = none) (key : Key) (bound : Nat)
    (listed : (key, bound) ∈ keysOf client) :
    (∀ credential ∈ (reissueLoop now (keysOf client) turnLive).2 key,
      credential.expired now = false) ∧
        reissued now bound ((reissueLoop now (keysOf client) turnLive).2 key) = none := by
  obtain ⟨left, short⟩ := loop_none found key bound listed
  refine ⟨?_, short⟩
  rw [left]
  exact live_all (held.bucket client key bound listed).sorted

theorem Held.call (turnKeys : TurnKeys keysOf)
    (long : 2 * turnReissueMinLife * second ≤ turnCredTTL) {state : TurnState Key}
    (held : Held keysOf turnCredTTL turnClientID now state.turnLive)
    (widest : (keysOf client).getLast? = some (idKey, limit))
    (apart : ∀ slot other, slot < limit + 1 → other < limit + 1 →
      turnClientID idKey slot = turnClientID idKey other → slot = other) :
    ∃ reply after,
      turnBucketCredential turnCredTTL turnClientID now (keysOf client) state =
          some (reply, after) ∧
        Held keysOf turnCredTTL turnClientID now after.turnLive ∧
        Served turnClientID now idKey limit (keysOf client) state.turnLive reply := by
  have swept_clean := sweep_cleaned now state
  have swept := held.clean swept_clean
  have loop_clean := loop_cleaned now (keysOf client) (state.sweep now).turnLive
  have looped := swept.clean loop_clean
  have clean := swept_clean.trans loop_clean
  unfold turnBucketCredential
  dsimp only
  cases found : (reissueLoop now (keysOf client) (state.sweep now).turnLive).1 with
  | some newest =>
    obtain ⟨key, bound, listed, mem, left⟩ := loop_again found
    have inside : key ∈ (keysOf client).map Prod.fst := mem_map.mpr ⟨_, listed, rfl⟩
    obtain ⟨fixed, slots⟩ := swept.ids client idKey limit widest key inside newest mem
    refine ⟨_, _, rfl, looped, ⟨newest.slot, slots, fixed⟩, ?_, fun _ => left⟩
    nofun
  | none =>
    have ready := swept.ready found
    rw [widest]
    refine ⟨_, _, rfl, looped.minted turnKeys long widest ready, ?_, ?_, ?_⟩
    · exact ⟨_, next_slot_lt (Nat.succ_pos limit) _, minted_id turnCredTTL now _ _⟩
    · intro _ key listed credential mem living same
      obtain ⟨alive, short⟩ := ready idKey limit (mem_of_getLast? widest)
      have kept : credential ∈ (reissueLoop now (keysOf client) (state.sweep now).turnLive).2 key :=
        mem_cleaned clean mem living
      obtain ⟨id, slots⟩ := held.ids client idKey limit widest key listed credential mem
      dsimp only at same
      rw [minted_id, id] at same
      exact looped.slot_fresh turnKeys widest alive short listed kept living
        (apart _ _ slots (next_slot_lt (Nat.succ_pos limit) _) same)
    · nofun

end Calls

section Clients

open Library.NetAddr Relay.ClientIp

def turnKeysOf (buckets : Bytes × Bytes) : List (Bytes × Nat) :=
  if buckets.2 = [] then [(buckets.1, turnMaxLivePerClient)]
  else [(buckets.1, turnMaxLivePerClient),
    (buckets.2, turnMaxLivePerClient * ipv6AggregateFactor)]

def addressKeys (address : NetAddr) : List (Bytes × Nat) :=
  turnKeysOf (bucketsOf address.unmap)

def siteText (bits : Nat) (value : Fin (2 ^ 128)) : Bytes :=
  groupsText (groups (masked bits value)) ++ 47 :: decimalText bits

theorem site_string {bits : Nat} (site : bits = 64 ∨ bits = 48) (value : Fin (2 ^ 128))
    (zone : Bytes) : (NetAddr.prefixOf bits (.v6 value zone)).string =
      siteText bits value := by
  have plain : is4In6 (masked bits value) = false := by
    unfold is4In6 masked
    apply decide_eq_false
    rcases site with rfl | rfl
    · norm_num
      omega
    · norm_num
      omega
  unfold NetPrefix.string NetAddr.prefixOf NetAddr.string siteText zoneText
  simp [plain]

theorem address_keys (address : NetAddr) :
    (∃ value, addressKeys address = [(octetsText (octets value), turnMaxLivePerClient)]) ∨
      ∃ value, addressKeys address = [(siteText 64 value, turnMaxLivePerClient),
        (siteText 48 value, turnMaxLivePerClient * ipv6AggregateFactor)] := by
  unfold addressKeys
  cases address.unmap with
  | v4 value => exact Or.inl ⟨value, rfl⟩
  | v6 value zone =>
    right
    refine ⟨value, ?_⟩
    have buckets : bucketsOf (.v6 value zone) = (siteText 64 value, siteText 48 value) := by
      unfold bucketsOf
      dsimp only
      rw [site_string (Or.inl rfl), site_string (Or.inr rfl)]
    rw [buckets]
    exact if_neg (by simp [siteText])

theorem site_text_last (bits : Nat) (value : Fin (2 ^ 128)) :
    (siteText bits value).getLast? = some (digit (bits % 10)) := by
  unfold siteText decimalText
  rw [← append_assoc, ← cons_append, ← append_assoc, List.getLast?_concat]

theorem site_text_colon (bits : Nat) (value : Fin (2 ^ 128)) : (58 : UInt8) ∈ siteText bits value :=
  mem_append_left _ (groups_text_colon _)

theorem octets_not_site (one : Fin (2 ^ 32)) (bits : Nat) (other : Fin (2 ^ 128)) :
    octetsText (octets one) ≠ siteText bits other := by
  intro same
  have colon := site_text_colon bits other
  rw [← same] at colon
  exact (octets_text_units colon).1 rfl

theorem own_not_site (one other : Fin (2 ^ 128)) : siteText 64 one ≠ siteText 48 other := by
  intro same
  have last := site_text_last 64 one
  rw [same, site_text_last] at last
  exact absurd last (by decide)

theorem own_same_site {one other : Fin (2 ^ 128)} (same : siteText 64 one = siteText 64 other) :
    siteText 48 one = siteText 48 other := by
  unfold siteText at same
  have inner := groups_text_injective (append_cancel_right same)
  have bits := congrArg Fin.val inner
  unfold masked at bits
  dsimp only at bits
  have wider : masked 48 one = masked 48 other := by
    apply Fin.ext
    unfold masked
    dsimp only
    norm_num at bits ⊢
    omega
  unfold siteText
  rw [wider]

theorem address_turn_keys : TurnKeys addressKeys := by
  refine ⟨?_, ?_, ?_⟩
  · intro address
    rcases address_keys address with ⟨value, keys⟩ | ⟨value, keys⟩
    · simp [keys]
    · simp [keys]
  · intro address key limit listed
    rcases address_keys address with ⟨value, keys⟩ | ⟨value, keys⟩
    · rw [keys] at listed
      cases mem_singleton.mp listed
      decide
    · rw [keys, mem_cons, mem_singleton] at listed
      rcases listed with own | site
      · cases own
        decide
      · cases site
        decide
  · intro address other key limit bound listed shown
    rcases address_keys address with ⟨one, keys⟩ | ⟨one, keys⟩ <;>
      rcases address_keys other with ⟨two, others⟩ | ⟨two, others⟩ <;>
      rw [keys] at listed ⊢ <;> rw [others] at shown ⊢ <;>
      simp only [mem_cons, not_mem_nil, or_false, Prod.mk.injEq] at listed shown
    · obtain ⟨rfl, rfl⟩ := listed
      obtain ⟨same, rfl⟩ := shown
      simp [same]
    · obtain ⟨rfl, rfl⟩ := listed
      rcases shown with ⟨same, rfl⟩ | ⟨same, rfl⟩
      · exact absurd same (octets_not_site one 64 two)
      · exact absurd same (octets_not_site one 48 two)
    · obtain ⟨rfl, rfl⟩ := shown
      rcases listed with ⟨same, rfl⟩ | ⟨same, rfl⟩
      · exact absurd same (octets_not_site two 64 one)
      · exact absurd same (octets_not_site two 48 one)
    · rcases listed with ⟨rfl, rfl⟩ | ⟨rfl, rfl⟩
      · rcases shown with ⟨same, rfl⟩ | ⟨same, rfl⟩
        · simp [own_same_site same]
        · exact absurd same (own_not_site one two)
      · rcases shown with ⟨same, rfl⟩ | ⟨same, rfl⟩
        · exact absurd same.symm (own_not_site two one)
        · simp [same]

structure TurnCall where
  trusted : TrustedProxySet
  r : ForwardedRequest
  now : Nat
  random : Option Bytes

def TurnCall.addr (call : TurnCall) : Bytes := clientAddr call.trusted call.r

variable (mac : Bytes → Bytes → Bytes) (secret : Bytes)

def idText (bucket : Bytes) (slot : Nat) : Bytes :=
  ascii "awful turn id" ++ 0 :: (bucket ++ 0 :: decimal slot)

def hexText8 (bytes : Bytes) : Bytes :=
  bytes.flatMap fun byte => [digit (byte.toNat / 16), digit (byte.toNat % 16)]

def turnClientID (bucket : Bytes) (slot : Nat) : Bytes :=
  hexText8 ((mac secret (idText bucket slot)).take 8)

variable (turnCredTTL : Nat)

def turnCredentialFor (call : TurnCall) (state : TurnState Bytes) :
    Option (TurnReply × TurnState Bytes) :=
  if exemptFromShares call.trusted call.addr then
    call.random.map fun id => (⟨mintTurnCredential turnCredTTL call.now id 0, true⟩, state)
  else
    turnBucketCredential turnCredTTL (turnClientID mac secret) call.now
      (turnKeysOf (ClientIp.clientBuckets call.addr)) state

structure TurnRelay where
  turn : TurnState Bytes
  clock : Nat

/-- The clock does not go back from one call to the next. -/
def TurnRelay.step (relay : TurnRelay) (call : TurnCall) : Option TurnRelay :=
  if relay.clock ≤ call.now then
    some ⟨((turnCredentialFor mac secret turnCredTTL call relay.turn).map Prod.snd).getD relay.turn,
      call.now⟩
  else none

/-- The shortened MACs of the slots of one bucket differ. -/
def MacsApart : Prop :=
  ∀ bucket slot other, slot ≤ turnMaxLivePerClient * ipv6AggregateFactor →
    other ≤ turnMaxLivePerClient * ipv6AggregateFactor →
      (mac secret (idText bucket slot)).take 8 = (mac secret (idText bucket other)).take 8 →
        slot = other

theorem digit_injective {one other : Nat} (low : one < 16) (small : other < 16)
    (same : digit one = digit other) : one = other := by
  have table : ∀ one < 16, ∀ other < 16, digit one = digit other → one = other := by decide
  exact table one low other small same

theorem hex_text8_injective {one other : Bytes} (same : hexText8 one = hexText8 other) :
    one = other := by
  induction one generalizing other with
  | nil =>
    cases other with
    | nil => rfl
    | cons byte rest => cases same
  | cons byte rest ih =>
    cases other with
    | nil => cases same
    | cons next others =>
      have limit := byte.toNat_lt
      have bound := next.toNat_lt
      unfold hexText8 at same ih
      rw [flatMap_cons, flatMap_cons, cons_append, cons_append,
        cons_append, cons_append, nil_append, nil_append] at same
      obtain ⟨high, behind⟩ := List.cons.inj same
      obtain ⟨low, tails⟩ := List.cons.inj behind
      have upper := digit_injective (by omega) (by omega) high
      have lower := digit_injective (by omega) (by omega) low
      have whole : byte.toNat = next.toNat := by omega
      rw [UInt8.toNat_inj.mp whole, ih tails]

variable {mac secret turnCredTTL}

theorem widest_limit {address : NetAddr} {idKey : Bytes} {limit : Nat}
    (widest : (addressKeys address).getLast? = some (idKey, limit)) :
    limit ≤ turnMaxLivePerClient * ipv6AggregateFactor := by
  rcases address_keys address with ⟨value, keys⟩ | ⟨value, keys⟩
  · rw [keys] at widest
    cases widest
    decide
  · rw [keys] at widest
    cases widest
    exact Nat.le_refl _

theorem ids_apart (apart : MacsApart mac secret) {address : NetAddr} {idKey : Bytes}
    {limit : Nat} (widest : (addressKeys address).getLast? = some (idKey, limit)) (slot other : Nat)
    (low : slot < limit + 1) (small : other < limit + 1)
    (same : turnClientID mac secret idKey slot = turnClientID mac secret idKey other) :
    slot = other := by
  have most := widest_limit widest
  exact apart idKey slot other (by omega) (by omega) (hex_text8_injective same)

theorem address_of_call {call : TurnCall}
    (counted : exemptFromShares call.trusted call.addr = false) :
    ∃ address, turnKeysOf (ClientIp.clientBuckets call.addr) = addressKeys address := by
  unfold exemptFromShares at counted
  cases parsed : NetAddr.parse call.addr with
  | none =>
    rw [parsed] at counted
    cases counted
  | some address =>
    refine ⟨address, ?_⟩
    unfold ClientIp.clientBuckets addressKeys
    rw [parsed]

def RelayHeld (mac : Bytes → Bytes → Bytes) (secret : Bytes)
    (turnCredTTL : Nat) (relay : TurnRelay) : Prop :=
  Held addressKeys turnCredTTL (turnClientID mac secret) relay.clock relay.turn.turnLive

section

variable (apart : MacsApart mac secret) (long : 2 * turnReissueMinLife * second ≤ turnCredTTL)
include apart long

theorem RelayHeld.served {relay : TurnRelay} (held : RelayHeld mac secret turnCredTTL relay)
    {call : TurnCall} (order : relay.clock ≤ call.now)
    (counted : exemptFromShares call.trusted call.addr = false) :
    ∃ idKey limit reply after,
      (turnKeysOf (ClientIp.clientBuckets call.addr)).getLast? = some (idKey, limit) ∧
        turnCredentialFor mac secret turnCredTTL call relay.turn = some (reply, after) ∧
        RelayHeld mac secret turnCredTTL ⟨after, call.now⟩ ∧
        Served (turnClientID mac secret) call.now idKey limit (turnKeysOf (ClientIp.clientBuckets call.addr))
          relay.turn.turnLive reply := by
  obtain ⟨address, keys⟩ := address_of_call counted
  cases widest : (addressKeys address).getLast? with
  | none => exact absurd (List.getLast?_eq_none_iff.mp widest) (address_turn_keys.filled address)
  | some bucket =>
    obtain ⟨idKey, limit⟩ := bucket
    have passed : Held addressKeys turnCredTTL (turnClientID mac secret) call.now
      relay.turn.turnLive := Held.passes held order
    obtain ⟨reply, after, given, kept, served⟩ :=
      passed.call address_turn_keys long widest (ids_apart apart widest)
    refine ⟨idKey, limit, reply, after, by rw [keys, widest], ?_, kept, by rw [keys]; exact served⟩
    unfold turnCredentialFor
    rw [counted, keys]
    exact given

theorem RelayHeld.call (relay : TurnRelay) (call : TurnCall) (next : TurnRelay)
    (held : RelayHeld mac secret turnCredTTL relay) (_ : True)
    (stepped : relay.step mac secret turnCredTTL call = some next) :
    RelayHeld mac secret turnCredTTL next := by
  unfold TurnRelay.step at stepped
  split_ifs at stepped with order
  cases stepped
  cases counted : exemptFromShares call.trusted call.addr with
  | true =>
    have same : ((turnCredentialFor mac secret turnCredTTL call relay.turn).map Prod.snd).getD
        relay.turn = relay.turn := by
      unfold turnCredentialFor
      rw [counted]
      cases call.random <;> rfl
    rw [same]
    exact Held.passes held order
  | false =>
    obtain ⟨_, _, reply, after, _, given, kept, _⟩ := held.served apart long order counted
    rw [given]
    exact kept

end

def sampleMac (_ message : Bytes) : Bytes :=
  message.reverse.takeWhile fun unit => decide (unit ≠ 0)

def sampleCall (remote : String) (now : Nat) : TurnCall where
  trusted := ⟨[], []⟩
  r := ⟨ascii remote, []⟩
  now := now * second
  random := none

def sampleCalls : List TurnCall :=
  List.replicate 7 (sampleCall "198.51.100.7:4711" 1000) ++
    [sampleCall "[2001:db8::9]:4711" 1000, sampleCall "10.0.0.3:80" 1001,
      sampleCall "198.51.100.7:4711" 8300]

theorem sample_macs_apart : MacsApart sampleMac [] := by
  have digits : ∀ slot, ∀ unit ∈ (decimal slot).reverse, decide (unit ≠ 0) = true := by
    intro slot unit mem
    have digit := decimal_digit (mem_reverse.mp mem)
    refine decide_eq_true (ne_of_apply_ne UInt8.toNat ?_)
    have zero : (0 : UInt8).toNat = 0 := rfl
    omega
  have read : ∀ bucket slot, sampleMac [] (idText bucket slot) = (decimal slot).reverse := by
    intro bucket slot
    unfold sampleMac idText
    rw [reverse_append, reverse_cons, reverse_append, reverse_cons,
      append_assoc, append_assoc, append_assoc,
      takeWhile_append_of_pos (digits slot)]
    simp
  intro bucket slot other low small same
  rw [read, read] at same
  have table : ∀ slot < 25, ∀ other < 25,
      (decimal slot).reverse.take 8 = (decimal other).reverse.take 8 → slot = other := by
    decide +kernel
  exact table slot (Nat.lt_succ_of_le low) other (Nat.lt_succ_of_le small) same

end Clients

end AwfulChat.Relay.TurnCredentials
