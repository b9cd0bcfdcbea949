import AwfulChat.Plugins.CardState

/-!
# Card state on two clients

Two clients that hold the same card and the same updates of it, each with its own
locale: when does every plugin get the same state on both?
-/

namespace AwfulChat.Plugins

open Library MessageOrder RoomSecurity List

set_option autoImplicit false

/-- `first` is folded before `second` on a client with this locale: by the comparator, and
where it calls them equal by the order in which storage returns them. -/
def FoldedFirst (locale : Collation) (first second : Message) : Prop :=
  foldComparator locale first.key second.key < 0 ∨
    (foldComparator locale first.key second.key = 0 ∧ rowBefore first second)

instance (locale : Collation) (first second : Message) :
    Decidable (FoldedFirst locale first second) :=
  inferInstanceAs (Decidable (_ ∨ _))

section Stored

variable {stored : List Message} {cardId : String} {definitionId : Text}

theorem owned_pair (unique : (stored.map Message.id).Nodup) {first second : Message}
    (one : first ∈ ownedUpdates stored cardId definitionId)
    (two : second ∈ ownedUpdates stored cardId definitionId) (apart : first ≠ second) :
    [first, second].Sublist (ownedUpdates stored cardId definitionId) ↔
      rowBefore first second := by
  obtain ⟨oneStored, oneNames, oneOwned⟩ := mem_owned.mp one
  obtain ⟨twoStored, twoNames, twoOwned⟩ := mem_owned.mp two
  have kept : ∀ msg, msg ∈ stored → namesCard cardId msg = true → msg ∈ stored.filter fun row =>
      decide (row.type ∈ [MessageType.pluginCard, MessageType.pluginUpdate]) := by
    intro msg mem names
    simp [mem, names_card_type names]
  have pair := pair_in_sort rowBefore ((nodup_of_ids unique).filter _)
    (kept first oneStored oneNames) (kept second twoStored twoNames) apart
  have rows : [first, second].Sublist (ownedUpdates stored cardId definitionId) ↔
      SortedBefore rowBefore (stored.filter fun row =>
        decide (row.type ∈ [MessageType.pluginCard, MessageType.pluginUpdate])) first second := by
    rw [← pair]
    simp only [ownedUpdates, cardRows, pair_in_filter, getMessagesOfTypes, sortRows]
    constructor
    · rintro ⟨-, -, -, -, stood⟩
      exact stood
    · intro stood
      exact ⟨oneOwned, twoOwned, oneNames, twoNames, stood⟩
  rw [rows]
  constructor
  · rintro (strictly | ⟨before, -⟩)
    · exact (before_total _ _).resolve_right strictly
    · exact before
  · intro before
    by_cases back : rowBefore second first
    · have cursors := before_antisymm before back
      have sameId : first.id = second.id := congrArg MessageCursor.id cursors
      exact absurd (inj_on_of_nodup_map unique oneStored twoStored sameId) apart
    · exact Or.inl back

theorem sorted_before_iff (unique : (stored.map Message.id).Nodup) (locale : Collation)
    {first second : Message} (one : first ∈ ownedUpdates stored cardId definitionId)
    (two : second ∈ ownedUpdates stored cardId definitionId) (apart : first ≠ second) :
    SortedBefore (FoldsBefore locale) (ownedUpdates stored cardId definitionId) first second ↔
      FoldedFirst locale first second := by
  have swap := fold_comparator_swap locale first.key second.key
  have swapBack := fold_comparator_swap locale second.key first.key
  unfold SortedBefore FoldedFirst FoldsBefore
  rw [owned_pair unique one two apart]
  constructor
  · rintro (strictly | ⟨before, stood⟩)
    · exact Or.inl (by omega)
    · by_cases equal : foldComparator locale first.key second.key = 0
      · exact Or.inr ⟨equal, stood⟩
      · exact Or.inl (by omega)
  · rintro (strictly | ⟨equal, stood⟩)
    · exact Or.inl (by omega)
    · exact Or.inr ⟨by omega, stood⟩

end Stored

/-- A plugin whose state is the list of the updates it has folded. -/
def recordingPlugin (pluginId : Text) : PluginDefinition (List String) where
  id := pluginId
  reduce := some fun state _ ctx => some (state ++ [ctx.updateId])
  initialState := some fun _ _ => some []

theorem fold_records {owner : Text} {rows : List Message}
    (owned : ∀ msg ∈ rows, isOwned owner msg = true) (state : List String) :
    rows.foldl (foldRow fun state _ ctx => some (state ++ [ctx.updateId])) state =
      state ++ rows.map Message.id := by
  induction rows generalizing state with
  | nil => simp
  | cons msg rest ih =>
    obtain ⟨fields, parsed⟩ := owned_parses (owned msg (by simp))
    have folded : foldRow (fun state _ ctx => some (state ++ [ctx.updateId])) state msg =
        state ++ [msg.id] := by
      simp [foldRow, parsed, strictProperty, Message.updateCtx]
    have others : ∀ other ∈ rest, isOwned owner other = true := fun other mem =>
      owned other (by simp [mem])
    rw [foldl_cons, folded, ih others]
    simp

theorem recorded_state (undefined : List String) (locale : Collation) (stored : List Message)
    (cardId roomCode : String) (pluginId : Text) :
    (buildCardState undefined locale stored cardId roomCode (recordingPlugin pluginId)).map
        CardStateEntry.state =
      some ((sortedUpdates locale stored cardId pluginId).map Message.id) := by
  have owned : ∀ msg ∈ sortedUpdates locale stored cardId pluginId,
      isOwned (ownerPluginId (cardRows stored cardId).card pluginId) msg = true := by
    intro msg mem
    exact (mem_owned.mp ((mem_insertionSort _).mp mem)).2.2
  simp [buildCardState, recordingPlugin, fold_records owned]

/-- Every plugin gets one state on both clients exactly when the two locales put every two
updates of the card in one order. -/
theorem card_state_agrees_iff (leftLocale rightLocale : Collation) (left right : List Message)
    (cardId roomCode : String) (pluginId : Text) (card : Message)
    (leftUnique : (left.map Message.id).Nodup) (rightUnique : (right.map Message.id).Nodup)
    (itself : isCard cardId card = true) (leftCard : card ∈ left) (rightCard : card ∈ right)
    (sameUpdates : ∀ msg, namesCard cardId msg = true → (msg ∈ left ↔ msg ∈ right)) :
    (∀ (State : Type) (undefined : State) (definition : PluginDefinition State),
        definition.id = pluginId →
        (buildCardState undefined leftLocale left cardId roomCode definition).map
            CardStateEntry.state =
          (buildCardState undefined rightLocale right cardId roomCode definition).map
            CardStateEntry.state) ↔
      ∀ first ∈ ownedUpdates left cardId pluginId, ∀ second ∈ ownedUpdates left cardId pluginId,
        first ≠ second →
          (FoldedFirst leftLocale first second ↔ FoldedFirst rightLocale first second) := by
  have leftRow := (card_iff leftUnique).mpr ⟨leftCard, itself⟩
  have rightRow := (card_iff rightUnique).mpr ⟨rightCard, itself⟩
  have members : ∀ msg, msg ∈ ownedUpdates left cardId pluginId ↔
      msg ∈ ownedUpdates right cardId pluginId := by
    intro msg
    rw [mem_owned, mem_owned, leftRow, rightRow]
    constructor
    · rintro ⟨mem, names, owned⟩
      exact ⟨(sameUpdates msg names).mp mem, names, owned⟩
    · rintro ⟨mem, names, owned⟩
      exact ⟨(sameUpdates msg names).mpr mem, names, owned⟩
  have perm : (ownedUpdates left cardId pluginId).Perm (ownedUpdates right cardId pluginId) :=
    (perm_ext_iff_of_nodup (owned_nodup leftUnique) (owned_nodup rightUnique)).mpr members
  have sortedIff : sortedUpdates leftLocale left cardId pluginId =
        sortedUpdates rightLocale right cardId pluginId ↔
      ∀ first ∈ ownedUpdates left cardId pluginId, ∀ second ∈ ownedUpdates left cardId pluginId,
        first ≠ second →
          (FoldedFirst leftLocale first second ↔ FoldedFirst rightLocale first second) := by
    rw [sortedUpdates, sortedUpdates, sort_eq_iff _ _ perm (owned_nodup leftUnique)]
    apply forall₂_congr
    intro first one
    apply forall₂_congr
    intro second two
    apply forall_congr'
    intro apart
    rw [sorted_before_iff leftUnique leftLocale one two apart,
      sorted_before_iff rightUnique rightLocale ((members first).mp one) ((members second).mp two)
        apart]
  rw [← sortedIff]
  constructor
  · intro agree
    have recorded := agree (List String) [] (recordingPlugin pluginId) rfl
    rw [recorded_state, recorded_state, Option.some_inj] at recorded
    apply eq_of_map_eq _ recorded
    intro first one second two sameId
    have oneHeld := (mem_owned.mp ((mem_insertionSort _).mp one)).1
    have twoOwned := (members second).mpr ((mem_insertionSort _).mp two)
    exact inj_on_of_nodup_map leftUnique oneHeld (mem_owned.mp twoOwned).1 sameId
  · rintro sorted State undefined definition rfl
    unfold buildCardState
    rw [leftRow, rightRow, sorted]

/-- A locale that compares letter by letter, each by its rank in the locale's alphabet. -/
def Collation.byRank (rank : Char → Nat) : Collation where
  localeCompare left right :=
    if left.toList.map rank < right.toList.map rank then -1
    else if right.toList.map rank < left.toList.map rank then 1
    else 0
  swap left right := by
    have apart : left.toList.map rank < right.toList.map rank →
        ¬ right.toList.map rank < left.toList.map rank := lt_asymm
    split_ifs <;> simp_all
  trans first second third before after := by
    have one : first.toList.map rank ≤ second.toList.map rank := by
      by_contra later
      have apart := lt_asymm (not_le.mp later)
      simp [not_le.mp later, apart] at before
    have two : second.toList.map rank ≤ third.toList.map rank := by
      by_contra later
      have apart := lt_asymm (not_le.mp later)
      simp [not_le.mp later, apart] at after
    have through := not_lt.mpr (one.trans two)
    split_ifs <;> simp

def english : Collation := .byRank fun letter => 2 * letter.toNat

def estonian : Collation := .byRank fun letter =>
  if letter = 'z' then 2 * 's'.toNat + 1 else 2 * letter.toNat

def sampleCard : Message :=
  ⟨"m1", "did:key:a", none, "Ann", 1, .pluginCard,
    text "\x7b\"pluginId\":\"wheel\",\"data\":1\x7d"⟩

def sampleUpdate (id senderId : String) (lamport : Int) : Message :=
  ⟨id, senderId, none, "Bob", lamport, .pluginUpdate,
    text "\x7b\"pluginId\":\"wheel\",\"cardId\":\"m1\",\"data\":2\x7d"⟩

/-- Two spins at one lamport: an English client folds the spin of `did:key:u` first, an
Estonian one the spin of `did:key:z`. -/
theorem card_state_differs :
    ¬ ∀ (leftLocale rightLocale : Collation) (left right : List Message)
        (cardId roomCode : String) (card : Message),
      (left.map Message.id).Nodup → (right.map Message.id).Nodup →
      isCard cardId card = true → card ∈ left → card ∈ right →
      (∀ msg, namesCard cardId msg = true → (msg ∈ left ↔ msg ∈ right)) →
      ∀ (State : Type) (undefined : State) (definition : PluginDefinition State),
        (buildCardState undefined leftLocale left cardId roomCode definition).map
            CardStateEntry.state =
          (buildCardState undefined rightLocale right cardId roomCode definition).map
            CardStateEntry.state := by
  intro agrees
  let rows := [sampleCard, sampleUpdate "m2" "did:key:u" 2, sampleUpdate "m3" "did:key:z" 2]
  have same := agrees english estonian rows rows "m1" "room" sampleCard (by decide) (by decide)
    (by decide) (by simp [rows]) (by simp [rows]) (fun _ _ => Iff.rfl) (List String) []
    (recordingPlugin (text "wheel"))
  rw [recorded_state, recorded_state, Option.some_inj] at same
  have apart : ¬ (sortedUpdates english rows "m1" (text "wheel")).map Message.id =
      (sortedUpdates estonian rows "m1" (text "wheel")).map Message.id := by
    decide +kernel
  exact apart same

theorem sample_card_state_agrees :
    (buildCardState [] english [sampleCard, sampleUpdate "m2" "did:key:u" 3,
        sampleUpdate "m3" "did:key:z" 2] "m1" "room" (recordingPlugin (text "wheel"))).map
          CardStateEntry.state =
      (buildCardState [] estonian [sampleUpdate "m3" "did:key:z" 2,
        sampleUpdate "m2" "did:key:u" 3, sampleCard] "m1" "room"
          (recordingPlugin (text "wheel"))).map CardStateEntry.state := by
  refine (card_state_agrees_iff english estonian _ _ "m1" "room" (text "wheel") sampleCard
    (by decide) (by decide) (by decide) (by simp) (by simp) ?_).mpr (by decide +kernel) _ _ _ rfl
  intro msg _
  simp only [mem_cons, not_mem_nil, or_false]
  tauto

end AwfulChat.Plugins
