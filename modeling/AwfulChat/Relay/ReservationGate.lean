import AwfulChat.Library.Runs
import AwfulChat.Relay.Registry

/-!
# The reservation gate

`relaygate.go`: how many circuit reservations one public address and one /48 may hold. The
counters are those of the entries in every run. A peer that moves to another address gives
its entry up before the new address is asked for room, and a refusal does not give it back.
-/

namespace AwfulChat.Relay

open Library Library.OrderedMap List

set_option autoImplicit false

def maxReservationsPerAddr : Nat := 32

def maxReservationsPerAggregate : Nat := maxReservationsPerAddr * ipv6AggregateFactor

structure GateEntry where
  keys : List SourceKey
  expires : Int

variable {Peer : Type} [DecidableEq Peer]

structure ReservationGate (Peer : Type) [DecidableEq Peer] where
  ttl : Int
  byPeer : OrderedMap Peer GateEntry
  counts : OrderedMap SourceKey Int

def newReservationGate (ttl : Int) : ReservationGate Peer := ⟨ttl, .empty, .empty⟩

/-- The keys an address is budgeted under, with their limits. -/
def reservationLimits (addr : Address) : List (SourceKey × Nat) :=
  ((clientBuckets addr).1, maxReservationsPerAddr) ::
    ((clientBuckets addr).2.map fun agg => (agg, maxReservationsPerAggregate)).toList

def reservationKeys (addr : Address) : List SourceKey := (reservationLimits addr).map Prod.fst

def release (counts : OrderedMap SourceKey Int) (key : SourceKey) : OrderedMap SourceKey Int :=
  if (counts.get key).getD 0 - 1 ≤ 0 then counts.delete key
  else counts.set key ((counts.get key).getD 0 - 1)

def charge (counts : OrderedMap SourceKey Int) (key : SourceKey) : OrderedMap SourceKey Int :=
  counts.set key ((counts.get key).getD 0 + 1)

namespace ReservationGate

def dropLocked (g : ReservationGate Peer) (p : Peer) : ReservationGate Peer :=
  match g.byPeer.get p with
  | none => g
  | some entry =>
    { g with byPeer := g.byPeer.delete p, counts := entry.keys.foldl release g.counts }

/-- The map is ranged over in any order: along `walk`, and then through what is left. -/
def expireLocked (g : ReservationGate Peer) (now : Int) (walk : List Peer) :
    ReservationGate Peer :=
  (walk ++ g.byPeer.keys).foldl (fun g p =>
    if (g.byPeer.get p).any fun entry => entry.expires < now then g.dropLocked p else g) g

def full (g : ReservationGate Peer) (addr : Address) : Bool :=
  (reservationLimits addr).any fun limit => (limit.2 : Int) ≤ (g.counts.get limit.1).getD 0

def grant (g : ReservationGate Peer) (p : Peer) (addr : Address) (now : Int) :
    Bool × ReservationGate Peer :=
  if g.full addr then (false, g)
  else (true, { g with
    byPeer := g.byPeer.set p ⟨reservationKeys addr, now + g.ttl⟩
    counts := (reservationKeys addr).foldl charge g.counts })

/-- `AllowReserve` once the lapsed entries are out. -/
def reserveLocked (isProxyClassAddr : Address → Bool) (g : ReservationGate Peer) (p : Peer)
    (addr : Address) (now : Int) : Bool × ReservationGate Peer :=
  if isProxyClassAddr addr then (true, g.dropLocked p)
  else
    match g.byPeer.get p with
    | none => g.grant p addr now
    | some entry =>
      if entry.keys = reservationKeys addr then
        (true, { g with byPeer := g.byPeer.set p { entry with expires := now + g.ttl } })
      else (g.dropLocked p).grant p addr now

end ReservationGate

/-- A request for a reservation; without an address there is nothing to budget. -/
structure ReserveCall (Peer : Type) where
  peer : Peer
  addr : Option Address
  now : Int
  walk : List Peer

def allowReserve (isProxyClassAddr : Address → Bool) (g : ReservationGate Peer)
    (call : ReserveCall Peer) : Bool × ReservationGate Peer :=
  match call.addr with
  | none => (true, g)
  | some addr =>
    (g.expireLocked call.now call.walk).reserveLocked isProxyClassAddr call.peer addr call.now

inductive GateCall (Peer : Type)
  | allowReserve (call : ReserveCall Peer)
  | forget (p : Peer)

def gateStep (isProxyClassAddr : Address → Bool) (g : ReservationGate Peer) :
    GateCall Peer → Option (ReservationGate Peer)
  | .allowReserve call => some (allowReserve isProxyClassAddr g call).2
  | .forget p => some (g.dropLocked p)

namespace ReservationGate

def holding (g : ReservationGate Peer) (key : SourceKey) : Int :=
  g.byPeer.total fun _ entry => if key ∈ entry.keys then 1 else 0

def tally (amount : Int) : Option Int := if amount = 0 then none else some amount

structure Exact (g : ReservationGate Peer) : Prop where
  /-- A key that no entry has is not counted at all. -/
  counts : ∀ key, g.counts.get key = tally (g.holding key)
  keys : ∀ p entry, g.byPeer.get p = some entry → ∃ addr, entry.keys = reservationKeys addr
  shares : ∀ addr, ∀ limit ∈ reservationLimits addr, g.holding limit.1 ≤ limit.2

theorem tally_get (amount : Int) : (tally amount).getD 0 = amount := by
  unfold tally
  split <;> simp_all

theorem reservation_keys_once (addr : Address) : (reservationKeys addr).Nodup := by
  cases addr <;> simp [reservationKeys, reservationLimits, clientBuckets]

/-- A key has one limit, whichever address it is of. -/
theorem limit_unique {one two : Address} {first second : SourceKey × Nat}
    (left : first ∈ reservationLimits one) (right : second ∈ reservationLimits two)
    (same : first.1 = second.1) : first.2 = second.2 := by
  obtain ⟨key, limit⟩ := first
  obtain ⟨_, other⟩ := second
  cases same
  cases one <;> cases two <;> simp [reservationLimits, clientBuckets] at left right <;>
    rcases left with ⟨rfl, rfl⟩ | ⟨rfl, rfl⟩ <;> simp_all

theorem holding_nonneg (g : ReservationGate Peer) (key : SourceKey) : 0 ≤ g.holding key :=
  total_nonneg (fun _ _ => by split <;> decide) _

section

variable {keys : List SourceKey} {counts : OrderedMap SourceKey Int} {amount : SourceKey → Int}
  (once : keys.Nodup)
include once

theorem release_keys (counted : ∀ key, counts.get key = tally (amount key))
    (some_ : ∀ key ∈ keys, 0 < amount key) (key : SourceKey) : (keys.foldl release counts).get key =
      tally (amount key - if key ∈ keys then 1 else 0) := by
  induction keys generalizing counts amount with
  | nil => simp [counted]
  | cons first rest ih =>
    obtain ⟨fresh, others⟩ := nodup_cons.mp once
    have positive := some_ first (by simp)
    have now : ∀ other, (release counts first).get other =
        tally (amount other - if other = first then 1 else 0) := by
      intro other
      unfold release
      rw [counted first, tally_get]
      split
      · rw [get_delete]
        split
        · rename_i same
          rw [same, show amount first - 1 = 0 by omega]
          rfl
        · rw [counted, Int.sub_zero]
      · rw [get_set]
        split
        · rename_i same
          rw [same, tally, if_neg (by omega)]
        · rw [counted, Int.sub_zero]
    rw [foldl_cons, ih others now]
    · by_cases same : key = first
      · simp [same, fresh]
      · simp [same]
    · intro other mem
      have apart : other ≠ first := by
        rintro rfl
        exact fresh mem
      rw [if_neg apart, Int.sub_zero]
      exact some_ other (mem_cons_of_mem _ mem)

theorem charge_keys (counted : ∀ key, counts.get key = tally (amount key))
    (positive : ∀ key, 0 ≤ amount key) (key : SourceKey) : (keys.foldl charge counts).get key =
      tally (amount key + if key ∈ keys then 1 else 0) := by
  induction keys generalizing counts amount with
  | nil => simp [counted]
  | cons first rest ih =>
    obtain ⟨fresh, others⟩ := nodup_cons.mp once
    have now : ∀ other, (charge counts first).get other =
        tally (amount other + if other = first then 1 else 0) := by
      intro other
      rw [charge, counted first, tally_get, get_set]
      split
      · rename_i same
        have some_ := positive first
        rw [same, tally, if_neg (by omega)]
      · rw [counted, Int.add_zero]
    rw [foldl_cons, ih others now]
    · by_cases same : key = first
      · simp [same, fresh]
      · simp [same]
    · intro other
      have some_ := positive other
      split <;> omega

end

variable {g : ReservationGate Peer} {p : Peer}

theorem Exact.drop (exact : Exact g) (p : Peer) : Exact (g.dropLocked p) := by
  unfold dropLocked
  cases found : g.byPeer.get p with
  | none => exact exact
  | some entry =>
    obtain ⟨addr, keys⟩ := exact.keys p entry found
    have fewer : ∀ key, (g.byPeer.delete p).total (fun _ entry => if key ∈ entry.keys then 1 else 0) =
        g.holding key - if key ∈ entry.keys then 1 else 0 :=
      fun key => total_delete_of_present _ found
    have once : entry.keys.Nodup := keys ▸ reservation_keys_once addr
    refine ⟨?_, ?_, ?_⟩
    · intro key
      rw [holding, fewer]
      apply release_keys once exact.counts
      intro held mem
      have one := @le_total Peer GateEntry _ g.byPeer p entry
        (fun _ entry => if held ∈ entry.keys then 1 else 0) (fun _ _ => by split <;> decide) found
      rw [if_pos mem] at one
      exact one
    · intro other entry there
      rw [get_delete] at there
      split at there
      · cases there
      · exact exact.keys other entry there
    · intro other limit mem
      have share := exact.shares other limit mem
      rw [holding, fewer]
      split <;> omega

theorem drop_get (g : ReservationGate Peer) (p other : Peer) :
    (g.dropLocked p).byPeer.get other = if other = p then none else g.byPeer.get other := by
  unfold dropLocked
  split
  · split
    · simp_all
    · rfl
  · exact get_delete _ _ _

theorem Exact.expire (exact : Exact g) (now : Int) (walk : List Peer) :
    Exact (g.expireLocked now walk) := by
  unfold expireLocked
  induction walk ++ g.byPeer.keys generalizing g with
  | nil => exact exact
  | cons p rest ih =>
    rw [foldl_cons]
    split
    · exact ih (exact.drop p)
    · exact ih exact

theorem expire_walk_get (g : ReservationGate Peer) (now : Int) (walk : List Peer) (p : Peer) :
    (walk.foldl (fun g p =>
      if (g.byPeer.get p).any fun entry => entry.expires < now then g.dropLocked p else g)
        g).byPeer.get p =
      if p ∈ walk then (g.byPeer.get p).filter fun entry => ¬ entry.expires < now
      else g.byPeer.get p := by
  induction walk generalizing g with
  | nil => rfl
  | cons first rest ih =>
    rw [foldl_cons, ih]
    by_cases same : p = first
    · subst same
      cases found : g.byPeer.get p with
      | none => simp [found]
      | some entry =>
        by_cases lapsed : entry.expires < now <;> simp [found, lapsed, drop_get, Option.filter]
    · have kept : (if (g.byPeer.get first).any fun entry => entry.expires < now then
          g.dropLocked first else g).byPeer.get p = g.byPeer.get p := by
        split
        · rw [drop_get, if_neg same]
        · rfl
      simp only [mem_cons, same, false_or, kept]

theorem expire_get (g : ReservationGate Peer) (now : Int) (walk : List Peer) (p : Peer) :
    (g.expireLocked now walk).byPeer.get p =
      (g.byPeer.get p).filter fun entry => ¬ entry.expires < now := by
  rw [expireLocked, expire_walk_get]
  split
  · rfl
  · rename_i outside
    have absent : g.byPeer.get p = none := by
      by_contra present
      exact outside (mem_append_right _ (mem_keys_iff.mpr present))
    rw [absent]
    rfl

theorem Exact.refresh (exact : Exact g) {entry : GateEntry} (found : g.byPeer.get p = some entry)
    (expires : Int) :
    Exact { g with byPeer := g.byPeer.set p { entry with expires := expires } } := by
  have same : ∀ key, holding { g with
      byPeer := g.byPeer.set p { entry with expires := expires } } key = g.holding key := by
    intro key
    rw [holding, total_set_of_present _ _ found]
    exact Int.sub_add_cancel _ _
  refine ⟨?_, ?_, ?_⟩
  · intro key
    rw [same]
    exact exact.counts key
  · intro other held there
    rw [get_set] at there
    split at there
    · cases there
      exact exact.keys p entry found
    · exact exact.keys other held there
  · intro addr limit mem
    rw [same]
    exact exact.shares addr limit mem

theorem Exact.grant (exact : Exact g) (absent : g.byPeer.get p = none) (addr : Address) (now : Int) :
    Exact (g.grant p addr now).2 := by
  unfold ReservationGate.grant
  split
  · exact exact
  · rename_i room
    have more : ∀ key, (g.byPeer.set p ⟨reservationKeys addr, now + g.ttl⟩).total
        (fun _ entry => if key ∈ entry.keys then 1 else 0) =
          g.holding key + if key ∈ reservationKeys addr then 1 else 0 :=
      fun key => total_set_of_absent _ _ absent
    refine ⟨?_, ?_, ?_⟩
    · intro key
      rw [holding, more]
      exact charge_keys (reservation_keys_once addr) exact.counts (holding_nonneg g) key
    · intro other entry there
      rw [get_set] at there
      split at there
      · cases there
        exact ⟨addr, rfl⟩
      · exact exact.keys other entry there
    · intro other limit mem
      have share := exact.shares other limit mem
      rw [holding, more]
      split
      · rename_i charged
        obtain ⟨own, listed, same⟩ := mem_map.mp charged
        have below : ¬ ((own.2 : Int) ≤ (g.counts.get own.1).getD 0) :=
          fun past => room (any_eq_true.mpr ⟨own, listed, decide_eq_true past⟩)
        rw [exact.counts, tally_get, same, limit_unique listed mem same] at below
        omega
      · omega

end ReservationGate

section Runs

open ReservationGate

variable (isProxyClassAddr : Address → Bool)

/-- A refusal leaves every entry that has not lapsed, and makes none. -/
def RefusalKeeps (g : ReservationGate Peer) : GateCall Peer → Prop
  | .allowReserve call => (allowReserve isProxyClassAddr g call).1 = false →
    ∀ p, (allowReserve isProxyClassAddr g call).2.byPeer.get p =
      (g.byPeer.get p).filter fun entry => ¬ entry.expires < call.now
  | .forget _ => True

/-- A peer with an entry asks from its address, or where there is room without its entry. -/
def MovesToRoom (g : ReservationGate Peer) : GateCall Peer → Prop
  | .allowReserve call => ∀ addr ∈ call.addr, isProxyClassAddr addr = false →
    ∀ entry ∈ (g.expireLocked call.now call.walk).byPeer.get call.peer,
      entry.keys = reservationKeys addr ∨
        ((g.expireLocked call.now call.walk).dropLocked call.peer).full addr = false
  | .forget _ => True

variable {isProxyClassAddr}

theorem refusal_keeps_iff (g : ReservationGate Peer) (call : GateCall Peer) :
    RefusalKeeps isProxyClassAddr g call ↔ MovesToRoom isProxyClassAddr g call := by
  cases call with
  | forget p => exact Iff.rfl
  | allowReserve call =>
    obtain ⟨p, addr, now, walk⟩ := call
    cases addr with
    | none => simp [RefusalKeeps, MovesToRoom, allowReserve]
    | some addr =>
      simp only [RefusalKeeps, MovesToRoom, allowReserve, Option.mem_def, Option.some.injEq,
        forall_eq', ← expire_get g now walk]
      generalize g.expireLocked now walk = expired
      unfold reserveLocked
      cases isProxyClassAddr addr with
      | true => simp
      | false =>
        cases held : expired.byPeer.get p with
        | none =>
          by_cases full : expired.full addr <;> simp [ReservationGate.grant, full]
        | some entry =>
          by_cases same : entry.keys = reservationKeys addr
          · simp [same]
          · cases room : (expired.dropLocked p).full addr with
            | false => simp [same, room, ReservationGate.grant]
            | true =>
              simp only [same, room, ReservationGate.grant, Bool.false_eq_true, if_false, if_true,
                true_imp_iff]
              constructor
              · intro kept
                have gone := kept p
                rw [drop_get, if_pos rfl, held] at gone
                cases gone
              · intro moved
                simp only [Option.some.injEq, forall_eq', Bool.true_eq_false, or_false] at moved
                exact absurd moved same

theorem ReservationGate.Exact.step {g next : ReservationGate Peer} (exact : Exact g)
    {call : GateCall Peer} (stepped : gateStep isProxyClassAddr g call = some next) : Exact next := by
  cases call with
  | forget p =>
    cases stepped
    exact exact.drop p
  | allowReserve call =>
    cases stepped
    unfold allowReserve
    split
    · exact exact
    · have expired := exact.expire call.now call.walk
      unfold reserveLocked
      split
      · exact expired.drop _
      · split
        · exact expired.grant ‹_› _ _
        · split
          · exact expired.refresh ‹_› _
          · exact (expired.drop _).grant (by rw [drop_get, if_pos rfl]) _ _

/-- The books of the gate are exact in every run; a refusal costs no entry in a run exactly where
no call of it moves a peer to an address without room. -/
theorem reservation_runs_exact (ttl : Int) {calls : List (GateCall Peer)} {g : ReservationGate Peer}
    (ran : run (gateStep isProxyClassAddr) (newReservationGate ttl) calls = some g) :
    Exact g ∧
      (∀ p addr now walk entry, g.byPeer.get p = some entry → ¬ entry.expires < now →
        entry.keys = reservationKeys addr →
          (allowReserve isProxyClassAddr g ⟨p, some addr, now, walk⟩).1 = true) ∧
      (Meets (gateStep isProxyClassAddr) (RefusalKeeps isProxyClassAddr) (newReservationGate ttl)
          calls ↔
        Meets (gateStep isProxyClassAddr) (MovesToRoom isProxyClassAddr) (newReservationGate ttl)
          calls) := by
  have start : Exact (newReservationGate ttl : ReservationGate Peer) :=
    ⟨fun _ => rfl, fun _ _ => nofun, fun _ _ _ => Int.natCast_nonneg _⟩
  refine ⟨?_, ?_, ?_⟩
  · exact run_keeps (fun _ _ _ exact _ stepped => exact.step stepped) start
      (meets_of_forall (fun _ _ => trivial) _ _) ran
  · intro p addr now walk entry found fresh same
    have held : (g.expireLocked now walk).byPeer.get p = some entry := by
      rw [expire_get, found]
      simp [fresh, Option.filter]
    unfold allowReserve
    simp only [reserveLocked, held, same, if_true]
    split <;> rfl
  · exact ⟨meets_mono fun _ _ => (refusal_keeps_iff _ _).mp,
      meets_mono fun _ _ => (refusal_keeps_iff _ _).mpr⟩

def sampleReservations : List (GateCall Nat) := [.allowReserve ⟨0, some (.v4 1), 0, []⟩, .forget 1]

theorem sample_reservations_exact : ∃ g : ReservationGate Nat,
    run (gateStep fun _ => false) (newReservationGate 60) sampleReservations = some g ∧ Exact g :=
  ⟨_, rfl, (@reservation_runs_exact Nat _ (fun _ => false) 60 sampleReservations _ rfl).1⟩

def crowd : List (GateCall Nat) :=
  .allowReserve ⟨0, some (.v4 1), 0, []⟩ ::
    (List.range 32).map fun p => .allowReserve ⟨p + 1, some (.v4 2), 0, []⟩

theorem refused_move_loses_entry :
    (run (gateStep fun _ => false) (newReservationGate 60) crowd).any fun g =>
      let refused := allowReserve (fun _ => false) g ⟨0, some (.v4 2), 0, []⟩
      !refused.1 && (g.byPeer.get 0).isSome && (refused.2.byPeer.get 0).isNone := by
  decide +kernel

end Runs

end AwfulChat.Relay
