import AwfulChat.Library.Runs
import AwfulChat.Plugins.CardAgreement

/-!
# A cached card against its replay

`foldUpdate` and `getCardState` of `plugins/state.svelte.ts`, one card with one plugin:
updates are stored and later folded or answered with an eviction, while builds read
storage. `covered` is not in the source: it lists the updates the cached entry has been
through, those its build read and those folded since, whether or not the reducer threw.
-/

namespace AwfulChat.Plugins

open Library MessageOrder RoomSecurity List Option

set_option autoImplicit false

structure Update where
  id : String
  senderId : String
  senderDid : Option String
  senderName : String
  lamport : Int
  data : Option Json
  ephemeral : Bool
  roomCode : String

def Update.key (update : Update) : FoldKey := ⟨update.lamport, update.senderId, update.id⟩

def Update.ctx (update : Update) : UpdateCtx where
  senderDid := match update.senderDid with
    | some did => if did = "" then update.senderId else did
    | none => update.senderId
  senderName := update.senderName
  updateId := update.id
  lamport := update.lamport
  ephemeral := update.ephemeral

def Message.update (msg : Message) (roomCode : String) (data : Option Json) : Update where
  id := msg.id
  senderId := msg.senderId
  senderDid := msg.senderDid
  senderName := msg.senderName
  lamport := msg.lamport
  data := data
  ephemeral := false
  roomCode := roomCode

@[simp] theorem update_key (msg : Message) (roomCode : String) (data : Option Json) :
    (msg.update roomCode data).key = msg.key := rfl

@[simp] theorem update_ctx (msg : Message) (roomCode : String) (data : Option Json) :
    (msg.update roomCode data).ctx = msg.updateCtx := rfl

@[simp] theorem update_persisted (msg : Message) (roomCode : String) (data : Option Json) :
    (msg.update roomCode data).ephemeral = false := rfl

/-- The call of `getCardState` that builds: waiting for storage, holding what it read, or
done with its entry but not yet out of `_building`. -/
inductive Build
  | reading (retry : Nat)
  | read (retry : Nat) (rows : List Message)
  | settled

/-- How a stored update goes on: folded from the wire, folded from the payload the user
sent, or followed by the sync batch's eviction. -/
inductive Delivery
  | live
  | own (payload : Json)
  | batch

structure Task where
  msg : Message
  delivery : Delivery

structure CardCache (State : Type) where
  stored : List Message
  pending : List Task
  entry : Option (CardStateEntry State)
  covered : List Message
  building : Option Build
  missed : Bool

inductive Event (State : Type)
  | store (msg : Message) (delivery : Delivery)
  | deliver (msg : Message)
  | getCardState
  | read
  | resume
  | settle
  | evict
  | stray (plugin : PluginDefinition State) (update : Update)

def MAX_REBUILD_RETRIES : Nat := 2

def sortsBefore (locale : Collation) (key : FoldKey) (last : Option FoldKey) : Bool :=
  last.any fun newest => decide (foldComparator locale key newest < 0)

def rowData (msg : Message) : Option Json := property (Json.parse msg.content) (text "data")

section Cache

variable {State : Type} (undefined : State) (locale : Collation) (cardId roomCode : String)
  (definition : PluginDefinition State)

def foldUpdate (cache : CardCache State) (plugin : PluginDefinition State) (update : Update) :
    CardCache State :=
  match plugin.reduce, cache.entry with
  | none, _ => cache
  | some _, none =>
    if !update.ephemeral && cache.building.isSome then { cache with missed := true } else cache
  | some reduce, some entry =>
    if entry.roomCode ≠ update.roomCode then cache
    else if plugin.id ≠ entry.pluginId then cache
    else if !update.ephemeral && sortsBefore locale update.key entry.last then
      { cache with entry := none }
    else match reduce entry.state update.data update.ctx with
      | none => cache
      | some next => { cache with entry := some { entry with
          state := next
          last := if update.ephemeral then entry.last else some update.key } }

def evictCardState (cache : CardCache State) : CardCache State := { cache with entry := none }

/-- The plugin whose updates the card takes. -/
def cardOwner (cache : CardCache State) : Text :=
  ownerPluginId (cardRows cache.stored cardId).card definition.id

/-- An own update's row is the JSON of what the user sent. -/
def Delivery.wrote (delivery : Delivery) (pluginId : Text) (msg : Message) : Prop :=
  match delivery with
  | .own payload => msg.content = Json.stringify (.object [(text "pluginId", .string pluginId),
      (text "cardId", .string (text cardId)), (text "data", payload)])
  | .live => True
  | .batch => True

instance (delivery : Delivery) (pluginId : Text) (msg : Message) :
    Decidable (delivery.wrote cardId pluginId msg) :=
  match delivery with
  | .own _ => inferInstanceAs (Decidable (_ = _))
  | .live | .batch => isTrue trivial

/-- A new update of the card's plugin, told apart by the comparator from those stored. -/
def storable (cache : CardCache State) (msg : Message) : Prop :=
  (∀ other ∈ cache.stored, other.id ≠ msg.id) ∧ namesCard cardId msg = true ∧
    isOwned (cardOwner cardId definition cache) msg = true ∧
    ∀ other ∈ ownedUpdates cache.stored cardId definition.id,
      foldComparator locale other.key msg.key ≠ 0

instance (cache : CardCache State) (msg : Message) :
    Decidable (storable locale cardId definition cache msg) :=
  inferInstanceAs (Decidable (_ ∧ _ ∧ _ ∧ _))

def foldTask (cache : CardCache State) (msg : Message) (data : Option Json) : CardCache State :=
  let folded := foldUpdate locale cache definition (msg.update roomCode data)
  { folded with covered := folded.covered ++ [msg] }

def deliver (cache : CardCache State) (task : Task) : CardCache State :=
  match task.delivery with
  | .live => foldTask locale roomCode definition cache task.msg (rowData task.msg)
  | .own payload => foldTask locale roomCode definition cache task.msg (some payload)
  | .batch =>
    if cache.entry.any fun entry => decide (entry.roomCode = roomCode) then evictCardState cache
    else cache

/-- What follows a build's read in `getCardState`. -/
def resume (cache : CardCache State) (retry : Nat) (rows : List Message) : CardCache State :=
  match buildCardState undefined locale rows cardId roomCode definition with
  | none => { cache with building := some .settled }
  | some built =>
    if cache.missed then
      { cache with
        missed := false
        building := some (if retry < MAX_REBUILD_RETRIES then .reading (retry + 1) else .settled) }
    else match cache.entry with
      | some _ => { cache with building := some .settled }
      | none => { cache with
          building := some .settled
          entry := some built
          covered := sortedUpdates locale rows cardId definition.id }

def step (cache : CardCache State) : Event State → Option (CardCache State)
  | .store msg delivery =>
    if storable locale cardId definition cache msg ∧
        delivery.wrote cardId (cardOwner cardId definition cache) msg then
      some { cache with
        stored := cache.stored ++ [msg]
        pending := cache.pending ++ [⟨msg, delivery⟩] }
    else none
  | .deliver msg =>
    match cache.pending.find? fun task => decide (task.msg = msg) with
    | none => none
    | some task =>
      some (deliver locale roomCode definition
        { cache with pending := cache.pending.filter fun other => decide (other.msg ≠ msg) } task)
  | .getCardState =>
    if cache.entry.isSome || cache.building.isSome then some cache
    else some { cache with building := some (.reading 0), missed := false }
  | .read =>
    match cache.building with
    | some (.reading retry) => some { cache with building := some (.read retry cache.stored) }
    | _ => none
  | .resume =>
    match cache.building with
    | some (.read retry rows) =>
      some (resume undefined locale cardId roomCode definition cache retry rows)
    | _ => none
  | .settle =>
    match cache.building with
    | some .settled => some { cache with building := none }
    | _ => none
  | .evict => some (evictCardState cache)
  | .stray plugin update =>
    if update.roomCode ≠ roomCode ∨ plugin.id ≠ cardOwner cardId definition cache then
      some (foldUpdate locale cache plugin update)
    else none

def start (stored : List Message) : CardCache State := ⟨stored, [], none, [], none, false⟩

def CardCache.snapshot (cache : CardCache State) : Option (List Message) :=
  match cache.building with
  | some (.read _ rows) => some rows
  | _ => none

/-- A live fold that is not answered with an eviction comes after every update the entry
has been through. -/
def FoldsOnTop (cache : CardCache State) (msg : Message) : Prop :=
  ∀ entry ∈ cache.entry, sortsBefore locale msg.key entry.last = false →
    ∀ other ∈ cache.covered, foldComparator locale other.key msg.key < 0

/-- What a sync batch stored is in whatever a build is about to install. -/
def BuildHolds (cache : CardCache State) (msg : Message) : Prop :=
  ∀ rows ∈ cache.snapshot, msg ∈ rows ∨ cache.missed = true

def TaskInOrder (cache : CardCache State) (task : Task) : Prop :=
  match task.delivery with
  | .live => FoldsOnTop locale cache task.msg
  | .own payload => FoldsOnTop locale cache task.msg ∧
      (cache.entry.isSome = true → rowData task.msg = some payload)
  | .batch => BuildHolds cache task.msg

def InOrder (cache : CardCache State) : Event State → Prop
  | .deliver msg => ∀ task ∈ cache.pending, task.msg = msg → TaskInOrder locale cache task
  | _ => True

end Cache

section Invariant

variable {State : Type} (undefined : State) (locale : Collation) (cardId roomCode : String)
  (definition : PluginDefinition State) (reduce : Reducer State)
  (initialState : Option Json → CardCtx → Option State) (card : Option Message)

/-- Every update of the card is among `has`, or its fold or eviction is still to come. -/
def Complete (cache : CardCache State) (has : Message → Prop) : Prop :=
  ∀ msg ∈ ownedUpdates cache.stored cardId definition.id,
    has msg ∨ ∃ task ∈ cache.pending, task.msg = msg

structure EntryHolds (cache : CardCache State) (entry : CardStateEntry State) : Prop where
  room : entry.roomCode = roomCode
  plugin : entry.pluginId = ownerPluginId card definition.id
  state : ∃ initial, initialState (cardData card) (cardCtx card) = some initial ∧
    entry.state = cache.covered.foldl (foldRow reduce) initial
  sorted : cache.covered.Pairwise fun first second =>
    foldComparator locale first.key second.key < 0
  owned : ∀ msg ∈ cache.covered, msg ∈ ownedUpdates cache.stored cardId definition.id
  complete : Complete cardId definition cache (· ∈ cache.covered)

structure SnapshotHolds (cache : CardCache State) (rows : List Message) : Prop where
  unique : (rows.map Message.id).Nodup
  row : (cardRows rows cardId).card = card
  stored : ∀ msg ∈ rows, msg ∈ cache.stored
  complete : Complete cardId definition cache fun msg => msg ∈ rows ∨ cache.missed = true

def BuildingHolds (cache : CardCache State) : Prop :=
  match cache.building with
  | none => True
  | some .settled => True
  | some (.reading _) => cache.entry = none
  | some (.read _ rows) => cache.entry = none ∧ SnapshotHolds cardId definition card cache rows

structure CacheInv (cache : CardCache State) : Prop where
  unique : (cache.stored.map Message.id).Nodup
  row : (cardRows cache.stored cardId).card = card
  apart : ∀ first ∈ ownedUpdates cache.stored cardId definition.id,
    ∀ second ∈ ownedUpdates cache.stored cardId definition.id, first ≠ second →
      foldComparator locale first.key second.key ≠ 0
  tasks : ∀ task ∈ cache.pending, task.msg ∈ ownedUpdates cache.stored cardId definition.id
  entry : ∀ entry ∈ cache.entry,
    EntryHolds locale cardId roomCode definition reduce initialState card cache entry
  building : BuildingHolds cardId definition card cache

variable {undefined locale cardId roomCode definition reduce initialState card}

theorem fold_row_owned {owner : Text} {msg : Message} (owned : isOwned owner msg = true)
    (state : State) :
    foldRow reduce state msg = (reduce state (rowData msg) msg.updateCtx).getD state := by
  obtain ⟨fields, parsed⟩ := owned_parses owned
  simp [foldRow, rowData, parsed, strictProperty]

theorem sorted_strictly {stored : List Message} (unique : (stored.map Message.id).Nodup)
    (apart : ∀ first ∈ ownedUpdates stored cardId definition.id,
      ∀ second ∈ ownedUpdates stored cardId definition.id, first ≠ second →
        foldComparator locale first.key second.key ≠ 0) :
    (sortedUpdates locale stored cardId definition.id).Pairwise fun first second =>
      foldComparator locale first.key second.key < 0 := by
  have sorted : (sortedUpdates locale stored cardId definition.id).Pairwise
      (FoldsBefore locale) := pairwise_insertionSort _ _
  have distinct : (sortedUpdates locale stored cardId definition.id).Nodup :=
    (perm_insertionSort _ _).nodup_iff.mpr (owned_nodup unique)
  have both := sorted.and distinct
  apply both.imp_of_mem
  intro first second one two pair
  have differ := apart first ((mem_insertionSort _).mp one) second
    ((mem_insertionSort _).mp two) pair.2
  have before : foldComparator locale first.key second.key ≤ 0 := pair.1
  omega

theorem covered_is_sorted {stored covered : List Message}
    (unique : (stored.map Message.id).Nodup)
    (apart : ∀ first ∈ ownedUpdates stored cardId definition.id,
      ∀ second ∈ ownedUpdates stored cardId definition.id, first ≠ second →
        foldComparator locale first.key second.key ≠ 0)
    (sorted : covered.Pairwise fun first second => foldComparator locale first.key second.key < 0)
    (same : ∀ msg, msg ∈ covered ↔ msg ∈ ownedUpdates stored cardId definition.id) :
    covered = sortedUpdates locale stored cardId definition.id := by
  have distinct : covered.Nodup := by
    apply sorted.imp
    rintro first _ before rfl
    rw [fold_comparator_refl] at before
    exact lt_irrefl _ before
  have perm : covered.Perm (sortedUpdates locale stored cardId definition.id) :=
    ((perm_ext_iff_of_nodup distinct (owned_nodup unique)).mpr same).trans
      (perm_insertionSort _ _).symm
  have weakly : covered.Pairwise (FoldsBefore locale) := sorted.imp le_of_lt
  have sortedList : (sortedUpdates locale stored cardId definition.id).Pairwise
      (FoldsBefore locale) := pairwise_insertionSort _ _
  apply List.Perm.eq_of_pairwise _ weakly sortedList perm
  intro first second one two before after
  by_contra differ
  have swap := fold_comparator_swap locale first.key second.key
  have twoOwned := (mem_insertionSort _).mp two
  have unequal := apart first ((same first).mp one) second twoOwned differ
  unfold FoldsBefore at before after
  omega

theorem Complete.imp {cache : CardCache State} {has more : Message → Prop}
    (complete : Complete cardId definition cache has) (weaken : ∀ msg, has msg → more msg) :
    Complete cardId definition cache more := by
  intro msg mem
  exact (complete msg mem).imp_left (weaken msg)

end Invariant

section Steps

variable {State : Type} {undefined : State} {locale : Collation} {cardId roomCode : String}
  {definition : PluginDefinition State} {reduce : Reducer State}
  {initialState : Option Json → CardCtx → Option State} {card : Option Message}
  {cache : CardCache State}

section

variable (inv : CacheInv locale cardId roomCode definition reduce initialState card cache)
include inv

theorem CacheInv.owner :
    cardOwner cardId definition cache = ownerPluginId card definition.id := by
  rw [cardOwner, inv.row]

theorem CacheInv.isOwned
    {msg : Message} (mem : msg ∈ ownedUpdates cache.stored cardId definition.id) :
    isOwned (ownerPluginId card definition.id) msg = true := by
  rw [← inv.row]
  exact (mem_owned.mp mem).2.2

theorem CacheInv.not_reading {entry : CardStateEntry State} (held : cache.entry = some entry) :
    cache.building = none ∨ cache.building = some .settled := by
  have building := inv.building
  unfold BuildingHolds at building
  split at building
  · exact Or.inl ‹_›
  · exact Or.inr ‹_›
  · rw [held] at building
    cases building
  · rw [held] at building
    cases building.1

end

theorem building_done (done : cache.building = none ∨ cache.building = some .settled) :
    BuildingHolds cardId definition card cache := by
  unfold BuildingHolds
  rcases done with idle | settled
  · rw [idle]
    trivial
  · rw [settled]
    trivial

theorem Complete.without {has : Message → Prop} {msg : Message}
    (complete : Complete cardId definition cache has) :
    Complete cardId definition
      { cache with pending := cache.pending.filter fun other => decide (other.msg ≠ msg) }
      fun other => has other ∨ other = msg := by
  intro other mem
  rcases complete other mem with has | ⟨task, pending, own⟩
  · exact Or.inl (Or.inl has)
  · by_cases same : other = msg
    · exact Or.inl (Or.inr same)
    · refine Or.inr ⟨task, ?_, own⟩
      simp [pending, own, same]

section

variable (inv : CacheInv locale cardId roomCode definition reduce initialState card cache)
include inv

theorem mem_store {msg : Message} (fits : storable locale cardId definition cache msg) :
    ((cache.stored ++ [msg]).map Message.id).Nodup ∧
      (cardRows (cache.stored ++ [msg]) cardId).card = card ∧
      ∀ other, other ∈ ownedUpdates (cache.stored ++ [msg]) cardId definition.id ↔
        other ∈ ownedUpdates cache.stored cardId definition.id ∨ other = msg := by
  obtain ⟨fresh, names, owned, -⟩ := fits
  rw [inv.owner] at owned
  have unique : ((cache.stored ++ [msg]).map Message.id).Nodup := by
    rw [map_append, nodup_append]
    refine ⟨inv.unique, by simp, ?_⟩
    intro one oneMember two twoMember same
    obtain ⟨other, stored, rfl⟩ := mem_map.mp oneMember
    simp only [map_cons, map_nil, mem_singleton] at twoMember
    exact fresh other stored (same.trans twoMember)
  have row : (cardRows (cache.stored ++ [msg]) cardId).card = card := by
    rw [← inv.row]
    apply same_card inv.unique unique
    intro other itself
    have differs : other ≠ msg := by
      rintro rfl
      rw [update_not_card names] at itself
      cases itself
    simp [differs]
  refine ⟨unique, row, ?_⟩
  intro other
  rw [mem_owned, mem_owned, row, inv.row]
  constructor
  · rintro ⟨mem, namesOther, ownedOther⟩
    rcases mem_append.mp mem with stored | new
    · exact Or.inl ⟨stored, namesOther, ownedOther⟩
    · exact Or.inr (mem_singleton.mp new)
  · rintro (⟨mem, namesOther, ownedOther⟩ | rfl)
    · exact ⟨mem_append_left _ mem, namesOther, ownedOther⟩
    · exact ⟨by simp, names, owned⟩

theorem CacheInv.store
    {msg : Message} {delivery : Delivery} (fits : storable locale cardId definition cache msg) :
    CacheInv locale cardId roomCode definition reduce initialState card
      { cache with
        stored := cache.stored ++ [msg]
        pending := cache.pending ++ [⟨msg, delivery⟩] } := by
  obtain ⟨unique, row, owned⟩ := mem_store inv fits
  have complete : ∀ has, Complete cardId definition cache has → Complete cardId definition
      { cache with
        stored := cache.stored ++ [msg]
        pending := cache.pending ++ [⟨msg, delivery⟩] } has := by
    intro has complete other mem
    rcases (owned other).mp mem with old | rfl
    · rcases complete other old with held | ⟨task, pending, own⟩
      · exact Or.inl held
      · exact Or.inr ⟨task, mem_append_left _ pending, own⟩
    · exact Or.inr ⟨⟨other, delivery⟩, by simp, rfl⟩
  refine ⟨unique, row, ?_, ?_, ?_, ?_⟩
  · intro first one second two differ
    rcases (owned first).mp one with oneOld | rfl
    · rcases (owned second).mp two with twoOld | rfl
      · exact inv.apart first oneOld second twoOld differ
      · exact fits.2.2.2 first oneOld
    · rcases (owned second).mp two with twoOld | rfl
      · have unequal := fits.2.2.2 second twoOld
        have swap := fold_comparator_swap locale first.key second.key
        have back := fold_comparator_swap locale second.key first.key
        omega
      · exact absurd rfl differ
  · intro task mem
    rcases mem_append.mp mem with old | new
    · exact (owned _).mpr (Or.inl (inv.tasks task old))
    · rw [mem_singleton.mp new]
      exact (owned _).mpr (Or.inr rfl)
  · intro entry found
    have held := inv.entry entry found
    exact ⟨held.room, held.plugin, held.state, held.sorted,
      fun other mem => (owned other).mpr (Or.inl (held.owned other mem)),
      complete _ held.complete⟩
  · have building := inv.building
    unfold BuildingHolds at building ⊢
    split at building
    · simp only [*]
    · simp only [*]
    · simp only [*]
    · rename_i rows reading
      simp only [reading]
      refine ⟨building.1, building.2.unique, building.2.row, ?_, complete _ building.2.complete⟩
      intro other mem
      exact mem_append_left _ (building.2.stored other mem)

theorem CacheInv.evict :
    CacheInv locale cardId roomCode definition reduce initialState card
      (evictCardState cache) := by
  refine ⟨inv.unique, inv.row, inv.apart, inv.tasks, ?_, ?_⟩
  · nofun
  · have building := inv.building
    unfold BuildingHolds at building ⊢
    unfold evictCardState
    split at building
    · simp only [*]
    · simp only [*]
    · simp only [*]
    · rename_i rows reading
      simp only [reading, true_and]
      exact ⟨building.2.unique, building.2.row, building.2.stored, building.2.complete⟩

theorem CacheInv.miss :
    CacheInv locale cardId roomCode definition reduce initialState card
      { cache with missed := true } := by
  refine ⟨inv.unique, inv.row, inv.apart, inv.tasks, ?_, ?_⟩
  · intro entry found
    have held := inv.entry entry found
    exact ⟨held.room, held.plugin, held.state, held.sorted, held.owned, held.complete⟩
  · have building := inv.building
    unfold BuildingHolds at building ⊢
    split at building
    · simp only [*]
    · simp only [*]
    · simp only [*]
    · rename_i rows reading
      simp only [reading]
      refine ⟨building.1, building.2.unique, building.2.row, building.2.stored, ?_⟩
      exact building.2.complete.imp fun _ _ => Or.inr rfl

theorem CacheInv.stray {plugin : PluginDefinition State} {update : Update}
    (foreign : update.roomCode ≠ roomCode ∨ plugin.id ≠ cardOwner cardId definition cache) :
    CacheInv locale cardId roomCode definition reduce initialState card
      (foldUpdate locale cache plugin update) := by
  unfold foldUpdate
  split
  · exact inv
  · split_ifs
    · exact inv.miss
    · exact inv
  · rename_i entry _ found
    have held := inv.entry entry found
    rw [inv.owner, ← held.plugin, ← held.room] at foreign
    have refused : entry.roomCode ≠ update.roomCode ∨ plugin.id ≠ entry.pluginId :=
      foreign.imp_left Ne.symm
    by_cases room : entry.roomCode ≠ update.roomCode
    · rw [if_pos room]
      exact inv
    · rw [if_neg room, if_pos (refused.resolve_left room)]
      exact inv

theorem CacheInv.getCardState (free : cache.entry = none) :
    CacheInv locale cardId roomCode definition reduce initialState card
      { cache with building := some (.reading 0), missed := false } := by
  refine ⟨inv.unique, inv.row, inv.apart, inv.tasks, ?_, free⟩
  intro entry found
  rw [mem_def, free] at found
  cases found

theorem CacheInv.read {retry : Nat} (reading : cache.building = some (.reading retry)) :
    CacheInv locale cardId roomCode definition reduce initialState card
      { cache with building := some (.read retry cache.stored) } := by
  have building := inv.building
  unfold BuildingHolds at building
  rw [reading] at building
  refine ⟨inv.unique, inv.row, inv.apart, inv.tasks, ?_, building, inv.unique, inv.row,
    fun _ mem => mem, ?_⟩
  · intro entry found
    rw [mem_def, building] at found
    cases found
  · intro msg mem
    exact Or.inl (Or.inl (mem_owned.mp mem).1)

end

theorem CacheInv.resume (reducer : definition.reduce = some reduce)
    (seeded : definition.initialState = some initialState)
    (inv : CacheInv locale cardId roomCode definition reduce initialState card cache) {retry : Nat}
    {rows : List Message} (reading : cache.building = some (.read retry rows)) :
    CacheInv locale cardId roomCode definition reduce initialState card
      (resume undefined locale cardId roomCode definition cache retry rows) := by
  have building := inv.building
  unfold BuildingHolds at building
  rw [reading] at building
  obtain ⟨free, snapshot⟩ := building
  have noEntry : ∀ entry ∈ cache.entry,
      EntryHolds locale cardId roomCode definition reduce initialState card cache entry := by
    intro entry found
    rw [mem_def, free] at found
    cases found
  unfold AwfulChat.Plugins.resume
  split
  · exact ⟨inv.unique, inv.row, inv.apart, inv.tasks,
      fun entry found => absurd found (by simp [free]), trivial⟩
  · rename_i built made
    split_ifs with missed retried
    · exact ⟨inv.unique, inv.row, inv.apart, inv.tasks,
        fun entry found => absurd found (by simp [free]), free⟩
    · exact ⟨inv.unique, inv.row, inv.apart, inv.tasks,
        fun entry found => absurd found (by simp [free]), trivial⟩
    · simp only [free]
      refine ⟨inv.unique, inv.row, inv.apart, inv.tasks, ?_, trivial⟩
      rintro _ ⟨⟩
      have owned : ∀ msg, msg ∈ ownedUpdates rows cardId definition.id ↔
          msg ∈ rows ∧ msg ∈ ownedUpdates cache.stored cardId definition.id := by
        intro msg
        rw [mem_owned, mem_owned, snapshot.row, inv.row]
        constructor
        · rintro ⟨mem, rest⟩
          exact ⟨mem, snapshot.stored msg mem, rest⟩
        · rintro ⟨mem, -, rest⟩
          exact ⟨mem, rest⟩
      have sorted : (sortedUpdates locale rows cardId definition.id).Pairwise
          fun first second => foldComparator locale first.key second.key < 0 :=
        sorted_strictly snapshot.unique fun first one second two =>
          inv.apart first ((owned first).mp one).2 second ((owned second).mp two).2
      unfold buildCardState at made
      simp only [reducer, seeded, snapshot.row, bind, bind_eq_some_iff] at made
      obtain ⟨initial, first, made⟩ := made
      rw [← Option.some.inj made]
      refine ⟨rfl, rfl, ⟨initial, first, rfl⟩, sorted, ?_, ?_⟩
      · intro msg mem
        exact ((owned msg).mp ((mem_insertionSort _).mp mem)).2
      · intro msg mem
        rcases snapshot.complete msg mem with (held | flagged) | later
        · exact Or.inl ((mem_insertionSort _).mpr ((owned msg).mpr ⟨held, mem⟩))
        · exact absurd flagged missed
        · exact Or.inr later

theorem CacheInv.settle
    (inv : CacheInv locale cardId roomCode definition reduce initialState card cache) :
    CacheInv locale cardId roomCode definition reduce initialState card
      { cache with building := none } := by
  refine ⟨inv.unique, inv.row, inv.apart, inv.tasks, ?_, trivial⟩
  intro entry found
  have held := inv.entry entry found
  exact ⟨held.room, held.plugin, held.state, held.sorted, held.owned, held.complete⟩

section Deliver

variable {msg : Message} {data : Option Json}

/-- The cache as `deliver` finds it, its task off the list. -/
def CardCache.take (cache : CardCache State) (msg : Message) : CardCache State :=
  { cache with pending := cache.pending.filter fun other => decide (other.msg ≠ msg) }

theorem CacheInv.fold_missing
    (inv : CacheInv locale cardId roomCode definition reduce initialState card cache)
    (free : cache.entry = none) (covered : List Message)
    (missed : cache.building = none ∨ cache.building = some .settled ∨ cache.missed = true) :
    CacheInv locale cardId roomCode definition reduce initialState card
      { cache.take msg with covered := covered } := by
  refine ⟨inv.unique, inv.row, inv.apart, ?_, ?_, ?_⟩
  · intro task mem
    exact inv.tasks task (mem_filter.mp mem).1
  · intro entry found
    exact absurd found (by simp [CardCache.take, free])
  · have building := inv.building
    unfold BuildingHolds at building ⊢
    split at building
    · simp only [CardCache.take, *]
    · simp only [CardCache.take, *]
    · simp only [CardCache.take, *]
    · rename_i rows reading
      simp only [CardCache.take, reading]
      refine ⟨free, building.2.unique, building.2.row, building.2.stored, ?_⟩
      intro other mem
      rw [reading] at missed
      exact Or.inl (Or.inr (by simpa using missed))

@[simp] theorem CardCache.take_entry (cache : CardCache State) : (cache.take msg).entry = cache.entry := rfl

section

variable {plugin : PluginDefinition State} {update : Update} (reducer : plugin.reduce = some reduce)
include reducer

theorem fold_update_free (persisted : update.ephemeral = false) (free : cache.entry = none) :
    foldUpdate locale cache plugin update =
      if cache.building.isSome then { cache with missed := true } else cache := by
  unfold foldUpdate
  simp [reducer, free, persisted]

theorem fold_update_held {entry : CardStateEntry State} (found : cache.entry = some entry)
    (room : entry.roomCode = update.roomCode) (owner : plugin.id = entry.pluginId)
    (persisted : update.ephemeral = false) :
    foldUpdate locale cache plugin update =
      if sortsBefore locale update.key entry.last then { cache with entry := none }
      else match reduce entry.state update.data update.ctx with
        | none => cache
        | some next =>
          { cache with entry := some { entry with state := next, last := some update.key } } := by
  unfold foldUpdate
  simp [reducer, found, room, owner, persisted]

end

theorem CacheInv.fold (reducer : definition.reduce = some reduce)
    (owns : ownerPluginId card definition.id = definition.id)
    (inv : CacheInv locale cardId roomCode definition reduce initialState card cache)
    (mem : msg ∈ ownedUpdates cache.stored cardId definition.id)
    (top : FoldsOnTop locale cache msg) (reads : cache.entry.isSome = true → rowData msg = data) :
    CacheInv locale cardId roomCode definition reduce initialState card
      (foldTask locale roomCode definition (cache.take msg) msg data) := by
  have tasks : ∀ task ∈ (cache.take msg).pending,
      task.msg ∈ ownedUpdates cache.stored cardId definition.id := by
    intro task found
    exact inv.tasks task (mem_filter.mp found).1
  cases found : cache.entry with
  | none =>
    unfold foldTask
    rw [fold_update_free reducer (update_persisted msg roomCode data) (cache.take_entry.trans found)]
    split_ifs with building
    · exact inv.miss.fold_missing found _ (Or.inr (Or.inr rfl))
    · exact inv.fold_missing found _ (Or.inl (by simpa [CardCache.take] using building))
  | some entry =>
    have held := inv.entry entry found
    have idle := inv.not_reading found
    have same := reads (by simp [found])
    have owned := inv.isOwned mem
    have complete : Complete cardId definition { cache.take msg with
        covered := cache.covered ++ [msg] } (· ∈ cache.covered ++ [msg]) := by
      apply held.complete.without.imp
      intro other
      simp
    have ownedRows : ∀ other ∈ cache.covered ++ [msg],
        other ∈ ownedUpdates cache.stored cardId definition.id := by
      intro other listed
      rcases mem_append.mp listed with old | new
      · exact held.owned other old
      · rw [mem_singleton.mp new]
        exact mem
    unfold foldTask
    rw [fold_update_held reducer (cache.take_entry.trans found) held.room
      (owns.symm.trans held.plugin.symm) (update_persisted msg roomCode data)]
    split_ifs with sooner
    · refine ⟨inv.unique, inv.row, inv.apart, tasks, ?_, building_done idle⟩
      nofun
    · have sorted : (cache.covered ++ [msg]).Pairwise fun first second =>
          foldComparator locale first.key second.key < 0 := by
        rw [pairwise_append]
        refine ⟨held.sorted, by simp, ?_⟩
        intro other listed last new
        rw [mem_singleton.mp new]
        exact top entry found (by simpa using sooner) other listed
      obtain ⟨initial, first, state⟩ := held.state
      have folded : (cache.covered ++ [msg]).foldl (foldRow reduce) initial =
          (reduce entry.state data msg.updateCtx).getD entry.state := by
        rw [foldl_append, ← state, foldl_cons, foldl_nil, fold_row_owned owned,
          same]
      cases made : reduce entry.state data msg.updateCtx with
      | none =>
        have threw : reduce entry.state (msg.update roomCode data).data
            (msg.update roomCode data).ctx = none := made
        rw [made, getD_none] at folded
        simp only [threw]
        refine ⟨inv.unique, inv.row, inv.apart, tasks, ?_, building_done idle⟩
        intro other kept
        rw [mem_def, CardCache.take_entry, found] at kept
        rw [← Option.some.inj kept]
        exact ⟨held.room, held.plugin, ⟨initial, first, folded.symm⟩, sorted, ownedRows, complete⟩
      | some next =>
        have gave : reduce entry.state (msg.update roomCode data).data
            (msg.update roomCode data).ctx = some next := made
        rw [made, getD_some] at folded
        simp only [gave]
        refine ⟨inv.unique, inv.row, inv.apart, tasks, ?_, building_done idle⟩
        rintro _ ⟨⟩
        exact ⟨held.room, held.plugin, ⟨initial, first, folded.symm⟩, sorted, ownedRows, complete⟩

theorem CacheInv.batch
    (inv : CacheInv locale cardId roomCode definition reduce initialState card cache)
    (holds : BuildHolds cache msg) :
    CacheInv locale cardId roomCode definition reduce initialState card
      (deliver locale roomCode definition (cache.take msg) ⟨msg, .batch⟩) := by
  have tasks : ∀ task ∈ (cache.take msg).pending,
      task.msg ∈ ownedUpdates cache.stored cardId definition.id := by
    intro task found
    exact inv.tasks task (mem_filter.mp found).1
  cases found : cache.entry with
  | some entry =>
    have evicted : deliver locale roomCode definition (cache.take msg) ⟨msg, .batch⟩ =
        evictCardState (cache.take msg) := by
      simp [deliver, found, (inv.entry entry found).room]
    rw [evicted]
    refine ⟨inv.unique, inv.row, inv.apart, tasks, ?_, building_done (inv.not_reading found)⟩
    nofun
  | none =>
    have kept : deliver locale roomCode definition (cache.take msg) ⟨msg, .batch⟩ =
        cache.take msg := by
      simp [deliver, found]
    rw [kept]
    refine ⟨inv.unique, inv.row, inv.apart, tasks, ?_, ?_⟩
    · intro other impossible
      rw [mem_def, CardCache.take_entry, found] at impossible
      cases impossible
    · have building := inv.building
      unfold BuildingHolds at building ⊢
      split at building
      · simp only [CardCache.take, *]
      · simp only [CardCache.take, *]
      · simp only [CardCache.take, *]
      · rename_i rows reading
        have read := holds rows (by simp [CardCache.snapshot, reading])
        simp only [CardCache.take, reading]
        refine ⟨found, building.2.unique, building.2.row, building.2.stored, ?_⟩
        apply building.2.complete.without.imp
        rintro other (held | rfl)
        · exact held
        · exact read

end Deliver

theorem CacheInv.step (reducer : definition.reduce = some reduce)
    (seeded : definition.initialState = some initialState)
    (owns : ownerPluginId card definition.id = definition.id)
    (inv : CacheInv locale cardId roomCode definition reduce initialState card cache)
    {event : Event State} {next : CardCache State} (ordered : InOrder locale cache event)
    (stepped : step undefined locale cardId roomCode definition cache event = some next) :
    CacheInv locale cardId roomCode definition reduce initialState card next := by
  cases event with
  | store msg delivery =>
    simp only [AwfulChat.Plugins.step, ite_none_right_eq_some] at stepped
    obtain ⟨⟨fits, -⟩, stored⟩ := stepped
    rw [← Option.some.inj stored]
    exact inv.store fits
  | deliver msg =>
    simp only [AwfulChat.Plugins.step] at stepped
    cases found : cache.pending.find? fun task => decide (task.msg = msg) with
    | none =>
      rw [found] at stepped
      cases stepped
    | some task =>
      rw [found] at stepped
      cases stepped
      have pending := mem_of_find?_eq_some found
      have own : task.msg = msg := by simpa using List.find?_some found
      have inOrder := ordered task pending own
      have mem := inv.tasks task pending
      subst own
      obtain ⟨msg, delivery⟩ := task
      unfold TaskInOrder at inOrder
      cases delivery with
      | live => exact inv.fold reducer owns mem inOrder fun _ => rfl
      | own payload => exact inv.fold reducer owns mem inOrder.1 inOrder.2
      | batch => exact inv.batch inOrder
  | getCardState =>
    simp only [AwfulChat.Plugins.step] at stepped
    split_ifs at stepped with busy
    · cases stepped
      exact inv
    · cases stepped
      exact inv.getCardState (by
        rw [Bool.or_eq_true, not_or] at busy
        simpa using busy.1)
  | read =>
    simp only [AwfulChat.Plugins.step] at stepped
    split at stepped
    · cases stepped
      exact inv.read ‹_›
    · cases stepped
  | resume =>
    simp only [AwfulChat.Plugins.step] at stepped
    split at stepped
    · cases stepped
      exact inv.resume reducer seeded ‹_›
    · cases stepped
  | settle =>
    simp only [AwfulChat.Plugins.step] at stepped
    split at stepped
    · cases stepped
      exact inv.settle
    · cases stepped
  | evict =>
    cases stepped
    exact inv.evict
  | stray plugin update =>
    simp only [AwfulChat.Plugins.step, ite_none_right_eq_some] at stepped
    obtain ⟨foreign, refused⟩ := stepped
    rw [← Option.some.inj refused]
    exact inv.stray foreign

theorem start_inv {stored : List Message} (unique : (stored.map Message.id).Nodup)
    (apart : ∀ first ∈ ownedUpdates stored cardId definition.id,
      ∀ second ∈ ownedUpdates stored cardId definition.id, first ≠ second →
        foldComparator locale first.key second.key ≠ 0) :
    CacheInv locale cardId roomCode definition reduce initialState (cardRows stored cardId).card
      (start stored) := by
  refine ⟨unique, rfl, apart, ?_, ?_, trivial⟩
  · nofun
  · nofun

end Steps

/-- In every run whose folds come on top and whose evictions no build outlives, a cached
entry with nothing pending is the replay of all stored updates. -/
theorem card_state_is_replay {State : Type} (undefined : State) (locale : Collation)
    (cardId roomCode : String) (definition : PluginDefinition State) (reduce : Reducer State)
    (initialState : Option Json → CardCtx → Option State) (stored : List Message)
    (events : List (Event State)) (final : CardCache State) (entry : CardStateEntry State)
    (reducer : definition.reduce = some reduce)
    (seeded : definition.initialState = some initialState)
    (owns : ownerPluginId (cardRows stored cardId).card definition.id = definition.id)
    (unique : (stored.map Message.id).Nodup)
    (apart : ∀ first ∈ ownedUpdates stored cardId definition.id,
      ∀ second ∈ ownedUpdates stored cardId definition.id, first ≠ second →
        foldComparator locale first.key second.key ≠ 0)
    (ran : run (step undefined locale cardId roomCode definition) (start stored) events = some final)
    (ordered : Meets (step undefined locale cardId roomCode definition) (InOrder locale)
      (start stored) events)
    (quiet : final.pending = []) (cached : final.entry = some entry) :
    ∃ initial, initialState (cardData (cardRows final.stored cardId).card)
        (cardCtx (cardRows final.stored cardId).card) = some initial ∧
      entry.state =
        (sortedUpdates locale final.stored cardId definition.id).foldl (foldRow reduce) initial := by
  have keeps : ∀ state event next,
      CacheInv locale cardId roomCode definition reduce initialState (cardRows stored cardId).card
        state → InOrder locale state event →
      step undefined locale cardId roomCode definition state event = some next →
      CacheInv locale cardId roomCode definition reduce initialState (cardRows stored cardId).card
        next := fun _ _ _ holds inOrder stepped => holds.step reducer seeded owns inOrder stepped
  have inv := run_keeps keeps (start_inv unique apart) ordered ran
  have held := inv.entry entry cached
  obtain ⟨initial, first, state⟩ := held.state
  have covered : final.covered = sortedUpdates locale final.stored cardId definition.id := by
    apply covered_is_sorted inv.unique inv.apart held.sorted
    intro msg
    constructor
    · exact held.owned msg
    · intro mem
      rcases held.complete msg mem with listed | ⟨task, pending, -⟩
      · exact listed
      · rw [quiet] at pending
        cases pending
  rw [inv.row]
  exact ⟨initial, first, covered ▸ state⟩

section Decide

variable {State : Type} (locale : Collation) (cache : CardCache State)

instance (msg : Message) : Decidable (FoldsOnTop locale cache msg) :=
  inferInstanceAs (Decidable (∀ _, _))

instance (msg : Message) : Decidable (BuildHolds cache msg) := inferInstanceAs (Decidable (∀ _, _))

def decideDelivery (msg : Message) :
    (delivery : Delivery) → Decidable (TaskInOrder locale cache ⟨msg, delivery⟩)
  | .live => inferInstanceAs (Decidable (FoldsOnTop locale cache msg))
  | .own payload => inferInstanceAs (Decidable (FoldsOnTop locale cache msg ∧
      (cache.entry.isSome = true → rowData msg = some payload)))
  | .batch => inferInstanceAs (Decidable (BuildHolds cache msg))

instance (task : Task) : Decidable (TaskInOrder locale cache task) :=
  decideDelivery locale cache task.msg task.delivery

instance : DecidablePred (InOrder locale cache)
  | .deliver msg => inferInstanceAs (Decidable (∀ _, _))
  | .store _ _ | .getCardState | .read | .resume | .settle | .evict | .stray _ _ => isTrue trivial

end Decide

def CardCache.shows {State : Type} (cache : CardCache State) : Option (List Message × State) :=
  match cache.pending, cache.building, cache.entry with
  | [], none, some entry => some (cache.stored, entry.state)
  | _, _, _ => none

theorem CardCache.shows_eq {State : Type} {cache : CardCache State} {stored : List Message}
    {state : State} (shown : cache.shows = some (stored, state)) :
    cache.pending = [] ∧ cache.building = none ∧ cache.stored = stored ∧
      ∃ entry, cache.entry = some entry ∧ entry.state = state := by
  unfold CardCache.shows at shown
  split at shown
  · rename_i entry pending building cached
    rw [Option.some.injEq, Prod.mk.injEq] at shown
    exact ⟨pending, building, shown.1, entry, cached, shown.2⟩
  · cases shown

/-- A spin arrives while its card is first drawn: the build reads it from storage and the
fold that follows adds it again. -/
theorem card_state_folds_twice :
    ¬ ∀ (State : Type) (undefined : State) (locale : Collation) (cardId roomCode : String)
        (definition : PluginDefinition State) (reduce : Reducer State)
        (initialState : Option Json → CardCtx → Option State) (stored : List Message)
        (events : List (Event State)) (final : CardCache State) (entry : CardStateEntry State),
      definition.reduce = some reduce → definition.initialState = some initialState →
      ownerPluginId (cardRows stored cardId).card definition.id = definition.id →
      (stored.map Message.id).Nodup →
      (∀ first ∈ ownedUpdates stored cardId definition.id,
        ∀ second ∈ ownedUpdates stored cardId definition.id, first ≠ second →
          foldComparator locale first.key second.key ≠ 0) →
      run (step undefined locale cardId roomCode definition) (start stored) events = some final →
      final.pending = [] → final.building = none → final.entry = some entry →
      ∃ initial, initialState (cardData (cardRows final.stored cardId).card)
          (cardCtx (cardRows final.stored cardId).card) = some initial ∧
        entry.state =
          (sortedUpdates locale final.stored cardId definition.id).foldl (foldRow reduce)
            initial := by
  intro replays
  let spin := sampleUpdate "m2" "did:key:u" 2
  let record : Reducer (List String) := fun state _ ctx => some (state ++ [ctx.updateId])
  have runs : ((run (step [] english "m1" "room" (recordingPlugin (text "wheel")))
      (start [sampleCard]) [.store spin .live, .getCardState, .read, .resume, .settle,
        .deliver spin]).bind CardCache.shows) = some ([sampleCard, spin], ["m2", "m2"]) := by
    decide +kernel
  obtain ⟨final, ran, shown⟩ := bind_eq_some_iff.mp runs
  obtain ⟨pending, building, stored, entry, cached, state⟩ := CardCache.shows_eq shown
  have same := replays (List String) [] english "m1" "room" (recordingPlugin (text "wheel")) record
    (fun _ _ => some []) [sampleCard] _ final entry rfl rfl (by decide +kernel)
    (by decide +kernel) (by decide +kernel) ran pending building cached
  obtain ⟨initial, first, replayed⟩ := same
  rw [stored, ← Option.some.inj first, state] at replayed
  have once : ¬ ["m2", "m2"] = (sortedUpdates english [sampleCard, spin] "m1" (text "wheel")).foldl
      (foldRow record) [] := by
    decide +kernel
  exact once replayed

theorem sample_card_state_is_replay :
    ∃ (final : CardCache (List String)) (entry : CardStateEntry (List String)),
      run (step [] english "m1" "room" (recordingPlugin (text "wheel"))) (start [sampleCard])
          [.getCardState, .read, .resume, .settle, .store (sampleUpdate "m3" "did:key:u" 3) .live,
            .deliver (sampleUpdate "m3" "did:key:u" 3),
            .store (sampleUpdate "m2" "did:key:u" 2) .batch,
            .deliver (sampleUpdate "m2" "did:key:u" 2), .getCardState, .read, .resume, .settle] =
          some final ∧
        final.entry = some entry ∧
        ∃ initial, entry.state =
          (sortedUpdates english final.stored "m1" (text "wheel")).foldl
            (foldRow fun state _ ctx => some (state ++ [ctx.updateId])) initial := by
  have runs : ((run (step [] english "m1" "room" (recordingPlugin (text "wheel")))
      (start [sampleCard])
      [.getCardState, .read, .resume, .settle, .store (sampleUpdate "m3" "did:key:u" 3) .live,
        .deliver (sampleUpdate "m3" "did:key:u" 3),
        .store (sampleUpdate "m2" "did:key:u" 2) .batch,
        .deliver (sampleUpdate "m2" "did:key:u" 2), .getCardState, .read, .resume,
        .settle]).bind CardCache.shows) =
      some ([sampleCard, sampleUpdate "m3" "did:key:u" 3, sampleUpdate "m2" "did:key:u" 2],
        ["m2", "m3"]) := by
    decide +kernel
  obtain ⟨final, ran, shown⟩ := bind_eq_some_iff.mp runs
  obtain ⟨pending, -, -, entry, cached, -⟩ := CardCache.shows_eq shown
  obtain ⟨initial, -, replayed⟩ := card_state_is_replay [] english "m1" "room"
    (recordingPlugin (text "wheel")) (fun state _ ctx => some (state ++ [ctx.updateId]))
    (fun _ _ => some []) [sampleCard] _ final entry rfl rfl (by decide +kernel)
    (by decide +kernel) (by decide +kernel) ran (by decide +kernel) pending cached
  exact ⟨final, entry, ran, cached, initial, replayed⟩

end AwfulChat.Plugins
