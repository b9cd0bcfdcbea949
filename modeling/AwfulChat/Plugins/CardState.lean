import AwfulChat.Library.JsonReading
import AwfulChat.Library.StableSort
import AwfulChat.MessageOrder
import AwfulChat.RoomSecurity.FileDescriptor

/-!
# Plugin card state

`buildCardState` of `plugins/state.svelte.ts`: the state of a card is what its plugin's
reducer makes of the card's stored updates in fold order. `localeCompare` is a parameter,
since each client collates in its own locale; a plugin is any pair of functions over any
type of states, `none` being a throw.
-/

namespace AwfulChat.Plugins

open Library MessageOrder RoomSecurity List

set_option autoImplicit false

/-- `localeCompare` in one locale: a total preorder that may call distinct strings equal. -/
structure Collation where
  localeCompare : String → String → Int
  swap : ∀ left right, localeCompare left right < 0 ↔ 0 < localeCompare right left
  trans : ∀ first second third, localeCompare first second ≤ 0 → localeCompare second third ≤ 0 →
    localeCompare first third ≤ 0

structure Message where
  id : String
  senderId : String
  senderDid : Option String
  senderName : String
  lamport : Int
  type : MessageType
  content : Text
  deriving DecidableEq

instance : Row Message where
  cursor msg := ⟨msg.lamport, msg.id⟩
  type msg := msg.type

structure FoldKey where
  lamport : Int
  senderId : String
  id : String
  deriving DecidableEq

def Message.key (msg : Message) : FoldKey := ⟨msg.lamport, msg.senderId, msg.id⟩

def foldComparator (locale : Collation) (left right : FoldKey) : Int :=
  if left.lamport ≠ right.lamport then left.lamport - right.lamport
  else if locale.localeCompare left.senderId right.senderId ≠ 0 then
    locale.localeCompare left.senderId right.senderId
  else locale.localeCompare left.id right.id

structure CardCtx where
  senderDid : String
  deriving DecidableEq

structure UpdateCtx where
  senderDid : String
  senderName : String
  updateId : String
  lamport : Int
  ephemeral : Bool
  deriving DecidableEq

abbrev Reducer (State : Type) := State → Option Json → UpdateCtx → Option State

structure PluginDefinition (State : Type) where
  id : Text
  reduce : Option (Reducer State)
  initialState : Option (Option Json → CardCtx → Option State)

structure CardStateEntry (State : Type) where
  state : State
  roomCode : String
  pluginId : Text
  last : Option FoldKey
  deriving DecidableEq

structure RowRoute where
  pluginId : Option Json
  cardId : Option Json

def rowRoute (msg : Message) : Option RowRoute :=
  match Json.parse msg.content with
  | some (.object fields) =>
    some ⟨property (some (.object fields)) (text "pluginId"),
      property (some (.object fields)) (text "cardId")⟩
  | some (.array _) => some ⟨none, none⟩
  | _ => none

/-- `getMessagesOfTypes`: the room's stored rows of these types by lamport, then id. -/
def getMessagesOfTypes (stored : List Message) (types : List MessageType) : List Message :=
  sortRows (stored.filter fun msg => decide (msg.type ∈ types))

structure CardRows where
  card : Option Message
  updates : List Message

def isCard (cardId : String) (msg : Message) : Bool :=
  decide (msg.type = .pluginCard ∧ msg.id = cardId)

def namesCard (cardId : String) (msg : Message) : Bool :=
  match msg.type, rowRoute msg with
  | .pluginUpdate, some ⟨_, some (.string cardOf)⟩ => decide (cardOf = text cardId)
  | _, _ => false

def cardRows (stored : List Message) (cardId : String) : CardRows :=
  let rows := getMessagesOfTypes stored [.pluginCard, .pluginUpdate]
  ⟨(rows.filter (isCard cardId)).getLast?, rows.filter (namesCard cardId)⟩

/-- `msg.senderDid || msg.senderId`. -/
def Message.author (msg : Message) : String :=
  match msg.senderDid with
  | some did => if did = "" then msg.senderId else did
  | none => msg.senderId

def Message.updateCtx (msg : Message) : UpdateCtx :=
  ⟨msg.author, msg.senderName, msg.id, msg.lamport, false⟩

/-- What the card's own row seeds the state with. -/
def cardData (card : Option Message) : Option Json :=
  card.bind fun msg => property (Json.parse msg.content) (text "data")

def cardCtx (card : Option Message) : CardCtx := ⟨(card.map Message.author).getD ""⟩

/-- The only plugin whose updates fold into the card. -/
def ownerPluginId (card : Option Message) (definitionId : Text) : Text :=
  (card.bind fun msg => stringProperty (Json.parse msg.content) (text "pluginId")).getD definitionId

def isOwned (owner : Text) (msg : Message) : Bool :=
  match rowRoute msg with
  | some ⟨some (.string pluginId), _⟩ => decide (pluginId = owner)
  | _ => false

/-- An update the reducer throws on is skipped. -/
def foldRow {State : Type} (reduce : Reducer State) (state : State) (msg : Message) : State :=
  match (Json.parse msg.content).bind fun payload => strictProperty (some payload) (text "data") with
  | none => state
  | some data => (reduce state data msg.updateCtx).getD state

/-- `foldComparator left right <= 0`: a stable sort may leave `left` first. -/
def FoldsBefore (locale : Collation) (left right : Message) : Prop :=
  foldComparator locale left.key right.key ≤ 0

instance (locale : Collation) : DecidableRel (FoldsBefore locale) := fun left right =>
  inferInstanceAs (Decidable (foldComparator locale left.key right.key ≤ 0))

def ownedUpdates (stored : List Message) (cardId : String) (definitionId : Text) : List Message :=
  let own := cardRows stored cardId
  own.updates.filter (isOwned (ownerPluginId own.card definitionId))

def sortedUpdates (locale : Collation) (stored : List Message) (cardId : String)
    (definitionId : Text) : List Message :=
  (ownedUpdates stored cardId definitionId).insertionSort (FoldsBefore locale)

/-- `undefined` is the state of a definition without `initialState`. -/
def buildCardState {State : Type} (undefined : State) (locale : Collation) (stored : List Message)
    (cardId roomCode : String) (definition : PluginDefinition State) :
    Option (CardStateEntry State) :=
  let card := (cardRows stored cardId).card
  let owner := ownerPluginId card definition.id
  match definition.reduce, definition.initialState with
  | some reduce, some initialState => do
      let state ← initialState (cardData card) (cardCtx card)
      let updates := sortedUpdates locale stored cardId definition.id
      some ⟨updates.foldl (foldRow reduce) state, roomCode, owner,
        updates.getLast?.map Message.key⟩
  | none, some initialState => do
      let state ← initialState (cardData card) (cardCtx card)
      some ⟨state, roomCode, owner, none⟩
  | _, none => some ⟨undefined, roomCode, owner, none⟩

section Order

variable (locale : Collation)

theorem collation_zero {left right : String} :
    locale.localeCompare left right = 0 ↔ locale.localeCompare right left = 0 := by
  have one := locale.swap left right
  have two := locale.swap right left
  omega

theorem fold_comparator_le_zero (left right : FoldKey) :
    foldComparator locale left right ≤ 0 ↔
      left.lamport < right.lamport ∨ (left.lamport = right.lamport ∧
        (locale.localeCompare left.senderId right.senderId < 0 ∨
          (locale.localeCompare left.senderId right.senderId = 0 ∧
            locale.localeCompare left.id right.id ≤ 0))) := by
  unfold foldComparator
  split_ifs <;> omega

theorem fold_comparator_swap (left right : FoldKey) :
    foldComparator locale left right < 0 ↔ 0 < foldComparator locale right left := by
  have sender := locale.swap left.senderId right.senderId
  have senderBack := locale.swap right.senderId left.senderId
  have id := locale.swap left.id right.id
  unfold foldComparator
  split_ifs <;> omega

theorem fold_comparator_refl (key : FoldKey) : foldComparator locale key key = 0 := by
  have swap := fold_comparator_swap locale key key
  omega

theorem collation_lt_of_le {first second third : String}
    (left : locale.localeCompare first second ≤ 0) (right : locale.localeCompare second third ≤ 0)
    (strict : locale.localeCompare first second < 0 ∨ locale.localeCompare second third < 0) :
    locale.localeCompare first third < 0 := by
  have through := locale.trans first second third left right
  by_contra atLeast
  have back : locale.localeCompare third first ≤ 0 := by
    have zero := (collation_zero locale).mp (by omega : locale.localeCompare first third = 0)
    omega
  have before := locale.trans second third first right back
  have after := locale.trans third first second back left
  have one := locale.swap first second
  have two := locale.swap second third
  omega

theorem fold_comparator_trans {first second third : FoldKey}
    (left : foldComparator locale first second ≤ 0)
    (right : foldComparator locale second third ≤ 0) :
    foldComparator locale first third ≤ 0 := by
  rw [fold_comparator_le_zero] at left right ⊢
  have senders := locale.trans first.senderId second.senderId third.senderId
  have strictly := @collation_lt_of_le locale first.senderId second.senderId third.senderId
  have ids := locale.trans first.id second.id third.id
  omega

instance : Std.Total (FoldsBefore locale) where
  total left right := by
    have swap := fold_comparator_swap locale left.key right.key
    unfold FoldsBefore
    omega

instance : IsTrans Message (FoldsBefore locale) where
  trans _ _ _ left right := fold_comparator_trans locale left right

end Order

section Rows

variable {stored : List Message} {cardId : String} {definitionId : Text}

variable {msg : Message}

theorem owned_parses {owner : Text} (owned : isOwned owner msg = true) :
    ∃ fields, Json.parse msg.content = some (.object fields) := by
  unfold isOwned rowRoute at owned
  cases parsed : Json.parse msg.content with
  | none => simp [parsed] at owned
  | some value =>
    cases value with
    | object fields => exact ⟨fields, rfl⟩
    | _ => simp [parsed] at owned

theorem mem_types {types : List MessageType} :
    msg ∈ getMessagesOfTypes stored types ↔ msg ∈ stored ∧ msg.type ∈ types := by
  simp [getMessagesOfTypes, mem_sort_rows]

theorem names_card_type (names : namesCard cardId msg = true) :
    msg.type = .pluginUpdate := by
  unfold namesCard at names
  split at names
  · assumption
  · cases names

theorem mem_updates :
    msg ∈ (cardRows stored cardId).updates ↔ msg ∈ stored ∧ namesCard cardId msg = true := by
  simp only [cardRows, mem_filter, mem_types]
  constructor
  · rintro ⟨⟨mem, -⟩, names⟩
    exact ⟨mem, names⟩
  · rintro ⟨mem, names⟩
    exact ⟨⟨mem, by simp [names_card_type names]⟩, names⟩

theorem nodup_of_ids (unique : (stored.map Message.id).Nodup) : stored.Nodup :=
  List.Nodup.of_map _ unique

theorem owned_nodup (unique : (stored.map Message.id).Nodup) :
    (ownedUpdates stored cardId definitionId).Nodup := by
  have rows : (getMessagesOfTypes stored [.pluginCard, .pluginUpdate]).Nodup :=
    (sort_rows_perm _).nodup_iff.mpr ((nodup_of_ids unique).filter _)
  exact (rows.filter _).filter _

theorem mem_owned :
    msg ∈ ownedUpdates stored cardId definitionId ↔ msg ∈ stored ∧ namesCard cardId msg = true ∧
      isOwned (ownerPluginId (cardRows stored cardId).card definitionId) msg = true := by
  simp only [ownedUpdates, mem_filter, mem_updates, and_assoc]

theorem card_iff (unique : (stored.map Message.id).Nodup) {card : Message} :
    (cardRows stored cardId).card = some card ↔ card ∈ stored ∧ isCard cardId card = true := by
  constructor
  · intro found
    have mem : card ∈ (getMessagesOfTypes stored [.pluginCard, .pluginUpdate]).filter
        (isCard cardId) := mem_of_getLast? found
    rw [mem_filter, mem_types] at mem
    exact ⟨mem.1.1, mem.2⟩
  · rintro ⟨held, itself⟩
    have shape := of_decide_eq_true itself
    have listed : card ∈ (getMessagesOfTypes stored [.pluginCard, .pluginUpdate]).filter
        (isCard cardId) := by
      simp [mem_types, held, shape.1, itself]
    cases found : (cardRows stored cardId).card with
    | none =>
      have empty := List.getLast?_eq_none_iff.mp found
      rw [empty] at listed
      cases listed
    | some other =>
      have mem : other ∈ (getMessagesOfTypes stored [.pluginCard, .pluginUpdate]).filter
          (isCard cardId) := mem_of_getLast? found
      rw [mem_filter, mem_types] at mem
      have sameId : other.id = card.id := (of_decide_eq_true mem.2).2.trans shape.2.symm
      rw [inj_on_of_nodup_map unique mem.1.1 held sameId]

theorem same_card {other : List Message} (unique : (stored.map Message.id).Nodup)
    (otherUnique : (other.map Message.id).Nodup)
    (same : ∀ msg, isCard cardId msg = true → (msg ∈ other ↔ msg ∈ stored)) :
    (cardRows other cardId).card = (cardRows stored cardId).card := by
  apply Option.ext
  intro card
  rw [card_iff unique, card_iff otherUnique]
  constructor
  · rintro ⟨held, itself⟩
    exact ⟨(same card itself).mp held, itself⟩
  · rintro ⟨held, itself⟩
    exact ⟨(same card itself).mpr held, itself⟩

theorem update_not_card (names : namesCard cardId msg = true) :
    isCard cardId msg = false := by
  simp [isCard, names_card_type names]

end Rows

end AwfulChat.Plugins
