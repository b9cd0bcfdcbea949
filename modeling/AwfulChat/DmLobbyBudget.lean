import AwfulChat.Plugins.SendCap
import Mathlib.Data.Rat.Floor

/-!
# The budget of lobby dials

`LobbyDialBudget`: a try per peer and retry window, a few peers per lobby, a few tries a
minute. Times are in milliseconds. The log of what was allowed and which lobbies were let go
is kept beside the budget, for the statements only.
-/

namespace AwfulChat.DmLobbyBudget

open Library Library.OrderedMap Plugins List Bool

set_option autoImplicit false

structure LobbyDialLimits where
  retryMs : ℚ
  perLobby : Nat
  perMinute : Nat
  maxPeers : Nat

def DEFAULT_LOBBY_DIAL_LIMITS : LobbyDialLimits := ⟨600000, 4, 16, 1024⟩

def MINUTE_MS : ℚ := 60000

structure LobbyDialBudget where
  peers : OrderedMap String ℚ
  lobbies : OrderedMap String (List ℚ)
  recent : List ℚ

def newLobbyDialBudget : LobbyDialBudget := ⟨.empty, .empty, []⟩

/-- The times of a stretch that has not ended. -/
def live (span now : ℚ) (times : List ℚ) : List ℚ :=
  times.filter fun time => decide (now - time < span)

/-- `while (peers.size > maxPeers)` the first key is deleted. -/
def dropOldest (maxPeers : Nat) (peers : OrderedMap String ℚ) : OrderedMap String ℚ where
  entries := peers.entries.drop (peers.size - maxPeers)
  distinct := peers.distinct.sublist ((drop_sublist _ _).map _)

def timesIn (lobbies : OrderedMap String (List ℚ)) (lobby : String) : List ℚ :=
  (lobbies.get lobby).getD []

namespace LobbyDialBudget

variable (limits : LobbyDialLimits) (budget : LobbyDialBudget)

def mayTry (peer : String) (now : ℚ) : Bool :=
  match budget.peers.get peer with
  | none => true
  | some last => limits.retryMs ≤ now - last

def allow (lobby peer : String) (now : ℚ) : Bool × LobbyDialBudget :=
  if budget.mayTry limits peer now then
    let inLobby := live limits.retryMs now (timesIn budget.lobbies lobby)
    let lobbies := budget.lobbies.set lobby inLobby
    if limits.perLobby ≤ inLobby.length then (false, { budget with lobbies := lobbies })
    else
      let recent := live MINUTE_MS now budget.recent
      if limits.perMinute ≤ recent.length then
        (false, { budget with lobbies := lobbies, recent := recent })
      else
        (true,
          { peers := dropOldest limits.maxPeers ((budget.peers.delete peer).set peer now)
            lobbies := lobbies.set lobby (inLobby ++ [now])
            recent := recent ++ [now] })
  else (false, budget)

end LobbyDialBudget

inductive Call
  | allow (lobby peer : String)
  | mayTry (peer : String)
  | forgetLobby (lobby : String)

def perform (limits : LobbyDialLimits) (budget : LobbyDialBudget) (now : ℚ) :
    Call → Bool × LobbyDialBudget
  | .allow lobby peer => budget.allow limits lobby peer now
  | .mayTry peer => (budget.mayTry limits peer now, budget)
  | .forgetLobby lobby => (true, { budget with lobbies := budget.lobbies.delete lobby })

def answers (limits : LobbyDialLimits) : LobbyDialBudget → List (ℚ × Call) → List Bool
  | _, [] => []
  | budget, (now, call) :: later =>
    (perform limits budget now call).1 :: answers limits (perform limits budget now call).2 later

inductive Mark
  | allowed (lobby peer : String) (time : ℚ)
  | forgot (lobby : String)

def Mark.tried : Mark → Option (String × ℚ)
  | .allowed _ peer time => some (peer, time)
  | .forgot _ => none

def Mark.inLobby (lobby : String) (times : List ℚ) : Mark → List ℚ
  | .allowed other _ time => if other = lobby then times ++ [time] else times
  | .forgot other => if other = lobby then [] else times

def marks (now : ℚ) : Call → Bool → List Mark
  | .allow lobby peer, true => [.allowed lobby peer now]
  | .forgetLobby lobby, _ => [.forgot lobby]
  | _, _ => []

structure World where
  budget : LobbyDialBudget
  clock : ℚ
  log : List Mark

def newWorld (clock : ℚ) : World := ⟨newLobbyDialBudget, clock, []⟩

/-- The peers that were allowed, each with its time. -/
def World.tries (world : World) : List (String × ℚ) := world.log.filterMap Mark.tried

def World.times (world : World) : List ℚ := world.tries.map Prod.snd

/-- When dials of a lobby were allowed since it was last let go. -/
def World.lobbyTimes (world : World) (lobby : String) : List ℚ :=
  world.log.foldl (Mark.inLobby lobby) []

/-- The clock does not go back. -/
def step (limits : LobbyDialLimits) (world : World) (event : ℚ × Call) : Option World :=
  if event.1 < world.clock then none
  else
    let result := perform limits world.budget event.1 event.2
    some ⟨result.2, event.1, world.log ++ marks event.1 event.2 result.1⟩

/-- What the limits promise. A stretch is taken without its end, so that every interval shorter
than it lies in one. -/
structure WithinLimits (limits : LobbyDialLimits) (world : World) : Prop where
  peers : world.tries.Pairwise fun earlier later =>
    earlier.1 = later.1 → limits.retryMs ≤ later.2 - earlier.2
  minute : WithinRate limits.perMinute MINUTE_MS world.times
  lobbies : ∀ lobby, WithinRate limits.perLobby limits.retryMs (world.lobbyTimes lobby)
  refused : ∀ now lobby peer, world.clock ≤ now →
    (world.budget.allow limits lobby peer now).1 = false →
      ∀ later : List (ℚ × Call), (now :: later.map Prod.fst).Pairwise (· ≤ ·) →
        answers limits (world.budget.allow limits lobby peer now).2 later =
          answers limits world.budget later

variable {limits : LobbyDialLimits} {budget other : LobbyDialBudget} {span now time : ℚ}
  {times : List ℚ}

theorem live_live {later : ℚ} (order : now ≤ later) :
    live span later (live span now times) = live span later times := by
  unfold live
  rw [List.filter_filter]
  apply filter_congr
  intro time _
  rw [Bool.eq_iff_iff, Bool.and_eq_true, decide_eq_true_eq, decide_eq_true_eq, and_iff_left_iff_imp]
  intro near
  linarith

theorem live_append (more : List ℚ) :
    live span now (times ++ more) = live span now times ++ live span now more :=
  filter_append ..

theorem live_count (near : now - time < span) : (live span now times).count time = times.count time :=
  count_filter (decide_eq_true near)

/-- No call from now on tells these budgets apart. -/
structure Alike (limits : LobbyDialLimits) (now : ℚ) (budget other : LobbyDialBudget) : Prop where
  peers : budget.peers = other.peers
  lobbies : ∀ lobby, live limits.retryMs now (timesIn budget.lobbies lobby) =
    live limits.retryMs now (timesIn other.lobbies lobby)
  recent : live MINUTE_MS now budget.recent = live MINUTE_MS now other.recent

theorem Alike.later {later : ℚ} (alike : Alike limits now budget other) (order : now ≤ later) :
    Alike limits later budget other where
  peers := alike.peers
  lobbies := by
    intro lobby
    rw [← live_live order, alike.lobbies lobby, live_live order]
  recent := by rw [← live_live order, alike.recent, live_live order]

theorem times_in_set (lobbies : OrderedMap String (List ℚ)) (lobby name : String) :
    timesIn (lobbies.set lobby times) name = if name = lobby then times else timesIn lobbies name := by
  unfold timesIn
  rw [get_set]
  split_ifs <;> rfl

theorem times_in_delete (lobbies : OrderedMap String (List ℚ)) (lobby name : String) :
    timesIn (lobbies.delete lobby) name = if name = lobby then [] else timesIn lobbies name := by
  unfold timesIn
  rw [get_delete]
  split_ifs <;> rfl

theorem live_set {lobbies others : OrderedMap String (List ℚ)}
    (same : ∀ name, live span now (timesIn lobbies name) = live span now (timesIn others name))
    (lobby : String) (times : List ℚ) (name : String) :
    live span now (timesIn (lobbies.set lobby times) name) =
      live span now (timesIn (others.set lobby times) name) := by
  rw [times_in_set, times_in_set]
  split_ifs
  · rfl
  · exact same name

theorem Alike.answer (alike : Alike limits now budget other) (call : Call) :
    (perform limits budget now call).1 = (perform limits other now call).1 ∧
      Alike limits now (perform limits budget now call).2 (perform limits other now call).2 := by
  have tries (peer : String) : budget.mayTry limits peer now = other.mayTry limits peer now := by
    unfold LobbyDialBudget.mayTry
    rw [alike.peers]
  cases call with
  | mayTry peer => exact ⟨tries peer, alike⟩
  | forgetLobby lobby =>
    refine ⟨rfl, alike.peers, ?_, alike.recent⟩
    intro name
    simp only [perform, times_in_delete]
    split_ifs
    · rfl
    · exact alike.lobbies name
  | allow lobby peer =>
    have put := live_set alike.lobbies lobby
    unfold perform LobbyDialBudget.allow
    simp only [tries peer, alike.lobbies lobby, alike.recent]
    split_ifs
    · exact ⟨rfl, alike.peers, put _, alike.recent⟩
    · exact ⟨rfl, alike.peers, put _, rfl⟩
    · exact ⟨rfl, by rw [alike.peers], live_set (put _) lobby _, rfl⟩
    · exact ⟨rfl, alike⟩

theorem allow_refused {lobby peer : String}
    (refused : (budget.allow limits lobby peer now).1 = false) :
    Alike limits now (budget.allow limits lobby peer now).2 budget := by
  have cut (name : String) : live limits.retryMs now (timesIn (budget.lobbies.set lobby
      (live limits.retryMs now (timesIn budget.lobbies lobby))) name) =
        live limits.retryMs now (timesIn budget.lobbies name) := by
    rw [times_in_set]
    split_ifs with same
    · rw [same, live_live le_rfl]
    · rfl
  revert refused
  unfold LobbyDialBudget.allow
  dsimp only
  split_ifs <;> intro refused
  · exact ⟨rfl, cut, rfl⟩
  · exact ⟨rfl, cut, live_live le_rfl⟩
  · cases refused
  · exact ⟨rfl, fun _ => rfl, rfl⟩

theorem answers_alike {later : List (ℚ × Call)} (alike : Alike limits now budget other)
    (ordered : (now :: later.map Prod.fst).Pairwise (· ≤ ·)) :
    answers limits budget later = answers limits other later := by
  induction later generalizing budget other now with
  | nil => rfl
  | cons event later ih =>
    obtain ⟨first, ordered⟩ := pairwise_cons.mp ordered
    obtain ⟨same, kept⟩ := (alike.later (first event.1 (by simp))).answer event.2
    rw [answers, answers, same, ih kept ordered]

theorem within_rate_stretch {limit : Nat} (within : WithinRate limit span times) (start : ℚ)
    (count : Nat) : (times.filter fun time =>
      decide (start ≤ time ∧ time < start + count * span)).length ≤ limit * count := by
  induction count with
  | zero => simp
  | succ count ih =>
    let inside : ℚ → Bool := fun time => decide (start ≤ time ∧ time < start + (count + 1 : Nat) * span)
    have parts := length_eq_length_filter_add
      (l := times.filter inside) (fun time => decide (time < start + count * span))
    have early : ((times.filter inside).filter fun time =>
        decide (time < start + count * span)).length ≤ limit * count := by
      refine le_trans (List.Sublist.length_le ?_) ih
      rw [List.filter_filter]
      refine monotone_filter_right _ fun time => ?_
      simp only [inside, Bool.and_eq_true, decide_eq_true_eq]
      exact fun both => ⟨both.2.1, both.1⟩
    have late : ((times.filter inside).filter fun time =>
        !decide (time < start + count * span)).length ≤ limit := by
      refine le_trans (List.Sublist.length_le ?_) (within (start + count * span))
      rw [List.filter_filter]
      refine monotone_filter_right _ fun time => ?_
      simp only [inside, Bool.and_eq_true, not_eq_true', decide_eq_false_iff_not, not_lt,
        decide_eq_true_eq]
      push_cast
      intro both
      exact ⟨both.1, by linarith [both.2.2]⟩
    show (times.filter inside).length ≤ limit * (count + 1)
    rw [Nat.mul_succ]
    omega

/-- Only entries as old as the retry window make way. -/
theorem evicted_old {peers : OrderedMap String ℚ} {tries : List (String × ℚ)}
    (enough : limits.perMinute * (limits.retryMs / MINUTE_MS + 1) ≤ limits.maxPeers)
    (within : WithinRate limits.perMinute MINUTE_MS (tries.map Prod.snd))
    (past : ∀ entry ∈ tries, entry.2 ≤ now)
    (ordered : (peers.entries.map Prod.snd).Pairwise (· ≤ ·))
    (known : ∀ entry ∈ peers.entries, entry ∈ tries) {entry : String × ℚ}
    (stored : entry ∈ peers.entries)
    (gone : entry ∉ (dropOldest limits.maxPeers peers).entries) :
    limits.retryMs ≤ now - entry.2 := by
  by_contra young
  rw [not_le] at young
  let excess := peers.size - limits.maxPeers
  have split : peers.entries.take excess ++ peers.entries.drop excess = peers.entries :=
    take_append_drop _ _
  have oldest : entry ∈ peers.entries.take excess := by
    rw [← split] at stored
    exact (mem_append.mp stored).resolve_right gone
  have part : (entry :: peers.entries.drop excess).Sublist peers.entries := by
    have joined := (singleton_sublist.mpr oldest).append (List.Sublist.refl (peers.entries.drop excess))
    rwa [split] at joined
  have count : limits.maxPeers < (entry :: peers.entries.drop excess).length := by
    have some_ := length_pos_of_mem oldest
    simp only [length_take, length_cons, length_drop] at some_ ⊢
    simp only [excess, size] at some_ ⊢
    omega
  let minutes := ⌈limits.retryMs / MINUTE_MS⌉₊
  have known_ := past entry (known entry (part.subset mem_cons_self))
  have retry : 0 ≤ limits.retryMs / MINUTE_MS :=
    div_nonneg (by linarith) (by norm_num [MINUTE_MS])
  have reach : limits.retryMs ≤ minutes * MINUTE_MS := by
    rw [← div_le_iff₀ (by norm_num [MINUTE_MS])]
    exact Nat.le_ceil _
  have inside : (entry :: peers.entries.drop excess).Subperm (tries.filter fun other =>
      decide (entry.2 ≤ other.2 ∧ other.2 < entry.2 + minutes * MINUTE_MS)) := by
    have sorted := (pairwise_map.mp ordered).sublist part
    apply (peers.distinct.of_map.sublist part).subperm
    intro other mem
    have tried := known other (part.subset mem)
    refine mem_filter.mpr ⟨tried, decide_eq_true ⟨?_, ?_⟩⟩
    · rcases mem_cons.mp mem with rfl | later
      · exact le_rfl
      · exact (pairwise_cons.mp sorted).1 other later
    · linarith [past other tried]
  have most := within_rate_stretch within entry.2 minutes
  rw [filter_map, length_map] at most
  have few : limits.maxPeers < limits.perMinute * minutes :=
    (count.trans_le inside.length_le).trans_le most
  have fewer : (limits.maxPeers : ℚ) < limits.perMinute * minutes := by exact_mod_cast few
  have ceil : (minutes : ℚ) ≤ limits.retryMs / MINUTE_MS + 1 := (Nat.ceil_lt_add_one retry).le
  have bound := mul_le_mul_of_nonneg_left ceil (Nat.cast_nonneg (α := ℚ) limits.perMinute)
  linarith

structure Inv (limits : LobbyDialLimits) (clock : ℚ) (budget : LobbyDialBudget)
    (tries : List (String × ℚ)) (lobbyTimes : String → List ℚ) : Prop where
  past : ∀ entry ∈ tries, entry.2 ≤ clock
  recent : live MINUTE_MS clock budget.recent = live MINUTE_MS clock (tries.map Prod.snd)
  lobbies : ∀ lobby, live limits.retryMs clock (timesIn budget.lobbies lobby) =
    live limits.retryMs clock (lobbyTimes lobby)
  ordered : (budget.peers.entries.map Prod.snd).Pairwise (· ≤ ·)
  known : ∀ entry ∈ budget.peers.entries, entry ∈ tries
  covers : ∀ entry ∈ tries, (∃ last ∈ budget.peers.get entry.1, entry.2 ≤ last) ∨
    limits.retryMs ≤ clock - entry.2
  apart : tries.Pairwise fun earlier later =>
    earlier.1 = later.1 → limits.retryMs ≤ later.2 - earlier.2
  minute : WithinRate limits.perMinute MINUTE_MS (tries.map Prod.snd)
  rates : ∀ lobby, WithinRate limits.perLobby limits.retryMs (lobbyTimes lobby)

variable {clock : ℚ} {tries : List (String × ℚ)} {lobbyTimes : String → List ℚ}

/-- The clock goes on, over a budget that no later call tells apart. -/
theorem Inv.alike (inv : Inv limits clock budget tries lobbyTimes) (order : clock ≤ now)
    (alike : Alike limits now other budget) : Inv limits now other tries lobbyTimes where
  past := fun entry mem => (inv.past entry mem).trans order
  recent := by rw [alike.recent, ← live_live order, inv.recent, live_live order]
  lobbies := by
    intro lobby
    rw [alike.lobbies lobby, ← live_live order, inv.lobbies lobby, live_live order]
  ordered := alike.peers ▸ inv.ordered
  known := alike.peers ▸ inv.known
  covers := by
    intro entry mem
    rw [alike.peers]
    exact (inv.covers entry mem).imp_right fun old => by linarith
  apart := inv.apart
  minute := inv.minute
  rates := inv.rates

theorem Inv.forget (inv : Inv limits clock budget tries lobbyTimes) (lobby : String) :
    Inv limits clock { budget with lobbies := budget.lobbies.delete lobby } tries
      fun name => Mark.inLobby name (lobbyTimes name) (.forgot lobby) :=
  { inv with
    lobbies := by
      intro name
      rw [times_in_delete, Mark.inLobby]
      by_cases same : name = lobby
      · rw [if_pos same, if_pos same.symm]
      · rw [if_neg same, if_neg (Ne.symm same), inv.lobbies name]
    rates := by
      intro name
      rw [Mark.inLobby]
      split
      · intro start
        simp
      · exact inv.rates name }

theorem Inv.allowed (enough : limits.perMinute * (limits.retryMs / MINUTE_MS + 1) ≤ limits.maxPeers)
    (inv : Inv limits now budget tries lobbyTimes) {lobby peer : String}
    (granted : (budget.allow limits lobby peer now).1 = true) :
    Inv limits now (budget.allow limits lobby peer now).2 (tries ++ [(peer, now)])
      fun name => Mark.inLobby name (lobbyTimes name) (.allowed lobby peer now) := by
  unfold LobbyDialBudget.allow at granted ⊢
  dsimp only at granted ⊢
  split_ifs at granted with try_ crowded busy
  rw [if_pos try_, if_neg crowded, if_neg busy]
  have within : WithinRate limits.perMinute MINUTE_MS ((tries ++ [(peer, now)]).map Prod.snd) := by
    rw [map_append]
    refine inv.minute.append (not_le.mp busy) ?_
    intro time near
    rw [inv.recent, live_count near]
  have past : ∀ entry ∈ tries ++ [(peer, now)], entry.2 ≤ now := by
    intro entry mem
    rcases mem_append.mp mem with earlier | new
    · exact inv.past entry earlier
    · rw [mem_singleton.mp new]
  let peers := (budget.peers.delete peer).set peer now
  have entries : peers.entries = (budget.peers.delete peer).entries ++ [(peer, now)] :=
    set_entries_of_absent _ _ _ fun mem => mem_keys_iff.mp mem (get_delete_self _ _)
  have kept : (budget.peers.delete peer).entries.Sublist budget.peers.entries :=
    filter_sublist
  have known : ∀ entry ∈ peers.entries, entry ∈ tries ++ [(peer, now)] := by
    rw [entries]
    intro entry mem
    exact mem_append.mpr
      ((mem_append.mp mem).imp_left fun old => inv.known entry (kept.subset old))
  have ordered : (peers.entries.map Prod.snd).Pairwise (· ≤ ·) := by
    rw [entries, map_append, pairwise_append]
    refine ⟨inv.ordered.sublist (kept.map _), pairwise_singleton _ _, ?_⟩
    simp only [map_cons, map_nil, mem_singleton, forall_eq, forall_mem_map]
    exact fun entry old => inv.past entry (inv.known entry (kept.subset old))
  have old : ∀ entry ∈ tries, entry.1 = peer → limits.retryMs ≤ now - entry.2 := by
    intro entry mem same
    rcases inv.covers entry mem with ⟨last, stored, upTo⟩ | old
    · simp only [LobbyDialBudget.mayTry, ← same, show _ = some last from stored,
        decide_eq_true_eq] at try_
      linarith
    · exact old
  exact {
    past := past
    recent := by
      rw [map_append, live_append, live_append, live_live le_rfl, inv.recent]
      rfl
    lobbies := by
      intro name
      rw [times_in_set, times_in_set, Mark.inLobby]
      by_cases same : name = lobby
      · rw [if_pos same, if_pos same.symm, live_append, live_append, live_live le_rfl, same,
          inv.lobbies lobby]
      · rw [if_neg same, if_neg same, if_neg (Ne.symm same), inv.lobbies name]
    ordered := ordered.sublist ((drop_sublist _ _).map _)
    known := fun entry mem => known entry ((drop_sublist _ _).subset mem)
    covers := by
      intro entry mem
      have standing : (∃ last ∈ peers.get entry.1, entry.2 ≤ last) ∨
          limits.retryMs ≤ now - entry.2 := by
        rcases mem_append.mp mem with earlier | new
        · by_cases same : entry.1 = peer
          · exact Or.inr (old entry earlier same)
          · rw [get_set_other _ _ _ _ same, get_delete_other _ _ _ same]
            exact inv.covers entry earlier
        · rw [mem_singleton.mp new]
          exact Or.inl ⟨now, get_set_self _ _ _, le_rfl⟩
      refine standing.elim ?_ Or.inr
      rintro ⟨last, stored, upTo⟩
      by_cases stays : (entry.1, last) ∈ (dropOldest limits.maxPeers peers).entries
      · exact Or.inl ⟨last, get_of_mem stays, upTo⟩
      · have late := evicted_old enough within past ordered known (mem_of_get stored) stays
        exact Or.inr (by linarith)
    apart := by
      rw [pairwise_append]
      refine ⟨inv.apart, pairwise_singleton _ _, ?_⟩
      intro entry mem later new same
      rw [mem_singleton.mp new] at same ⊢
      exact old entry mem same
    minute := within
    rates := by
      intro name
      rw [Mark.inLobby]
      split
      · rename_i same
        subst same
        refine (inv.rates lobby).append (not_le.mp crowded) ?_
        intro time near
        rw [inv.lobbies lobby, live_count near]
      · exact inv.rates name }

theorem Inv.step (enough : limits.perMinute * (limits.retryMs / MINUTE_MS + 1) ≤ limits.maxPeers)
    (world : World) (event : ℚ × Call) (next : World)
    (inv : Inv limits world.clock world.budget world.tries world.lobbyTimes) (_allowed : True)
    (stepped : step limits world event = some next) :
    Inv limits next.clock next.budget next.tries next.lobbyTimes := by
  obtain ⟨now, call⟩ := event
  unfold DmLobbyBudget.step at stepped
  split at stepped
  · cases stepped
  rename_i order
  have waited := inv.alike (not_lt.mp order) ⟨rfl, fun _ => rfl, rfl⟩
  obtain rfl := Option.some.inj stepped
  unfold World.tries World.lobbyTimes at waited ⊢
  cases call with
  | mayTry peer => simpa [perform, marks] using waited
  | forgetLobby lobby =>
    simpa [perform, marks, List.filterMap, Mark.tried] using waited.forget lobby
  | allow lobby peer =>
    cases granted : (world.budget.allow limits lobby peer now).1 with
    | false =>
      simpa [perform, marks, granted] using waited.alike le_rfl (allow_refused granted)
    | true =>
      simpa [perform, marks, granted, List.filterMap, Mark.tried] using waited.allowed enough granted

theorem lobby_dials_within_limits (limits : LobbyDialLimits)
    (enough : limits.perMinute * (limits.retryMs / MINUTE_MS + 1) ≤ limits.maxPeers) (start : ℚ)
    (events : List (ℚ × Call)) (world : World)
    (ran : run (step limits) (newWorld start) events = some world) : WithinLimits limits world := by
  have none_ (limit : Nat) (span : ℚ) : WithinRate limit span [] := fun _ => by simp
  have inv : Inv limits world.clock world.budget world.tries world.lobbyTimes := by
    refine run_keeps (Inv.step enough) ?_ (meets_of_forall (fun _ _ => trivial) _ _) ran
    exact ⟨nofun, rfl, fun _ => rfl, .nil, nofun, nofun, .nil, none_ _ _, fun _ => none_ _ _⟩
  exact {
    peers := inv.apart
    minute := inv.minute
    lobbies := inv.rates
    refused := by
      intro now lobby peer _ refused later ordered
      exact answers_alike (allow_refused refused) ordered }

theorem sample_dials_within_limits : ∃ world, run (step DEFAULT_LOBBY_DIAL_LIMITS) (newWorld 0)
      [(0, .allow "lobby" "peer"), (1, .allow "lobby" "peer"), (1, .allow "lobby" "other")] =
        some world ∧
    world.tries = [("peer", 0), ("other", 1)] ∧ WithinLimits DEFAULT_LOBBY_DIAL_LIMITS world := by
  obtain ⟨world, ran, tries⟩ := Option.map_eq_some_iff.mp (show
    (run (step DEFAULT_LOBBY_DIAL_LIMITS) (newWorld 0)
      [(0, .allow "lobby" "peer"), (1, .allow "lobby" "peer"), (1, .allow "lobby" "other")]).map
        World.tries = some [("peer", 0), ("other", 1)] by decide +kernel)
  exact ⟨world, ran, tries, lobby_dials_within_limits DEFAULT_LOBBY_DIAL_LIMITS
    (by norm_num [DEFAULT_LOBBY_DIAL_LIMITS, MINUTE_MS]) 0 _ world ran⟩

end AwfulChat.DmLobbyBudget
