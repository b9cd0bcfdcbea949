import AwfulChat.Relay.PushStore

/-!
# The push store's books

The order, its index and the shares agree with one another whatever is on the disk: what
tracking and untracking a box keep.
-/

namespace AwfulChat.Relay

open Library Library.OrderedMap List Option

set_option autoImplicit false

namespace Push

variable {isProxyClassAddr : Address → Bool}

def sourceLimit : PushSource → Nat
  | .net48 _ => pushMaxBoxesPerSource * ipv6AggregateFactor
  | _ => pushMaxBoxesPerSource

namespace PushStore

def listed (s : PushStore) : List Box := s.pushOrder.map fun element => element.value.box

def heldBy (s : PushStore) (source : PushSource) : Int := (s.pushHeld.get source).getD 0

def lastSubscribe (s : PushStore) (box : Box) : Nat := (s.subscribed.get box).getD 0

/-- The listed boxes that a source created. -/
def chargedTo (s : PushStore) (source : PushSource) : Nat :=
  s.pushOrder.countP fun element => decide (source ∈ element.value.sources)

end PushStore

/-- The shares a box can be charged to: none, or those of one address. -/
def Charge (isProxyClassAddr : Address → Bool) (sources : List PushSource) : Prop :=
  sources = [] ∨ ∃ addr, sources = pushSourceTags isProxyClassAddr addr

structure Ledger (isProxyClassAddr : Address → Bool) (s : PushStore) : Prop where
  once : s.listed.Nodup
  ids : (s.pushOrder.map Element.id).Nodup
  fresh : ∀ element ∈ s.pushOrder, element.id < s.nextElement
  found : ∀ box id, s.pushOrderAt.get box = some id ↔
    ∃ element ∈ s.pushOrder, element.value.box = box ∧ element.id = id
  charges : ∀ element ∈ s.pushOrder, Charge isProxyClassAddr element.value.sources
  inOrder : s.listed.Pairwise fun earlier later => s.lastSubscribe earlier < s.lastSubscribe later
  past : ∀ box ∈ s.listed, s.lastSubscribe box < s.serial
  held : ∀ source, s.heldBy source = s.chargedTo source
  share : ∀ source, s.heldBy source ≤ sourceLimit source

theorem push_source_tags_nodup (addr : Address) : (pushSourceTags isProxyClassAddr addr).Nodup := by
  unfold pushSourceTags
  split_ifs
  · simp
  · cases addr <;> simp

theorem Charge.nodup {sources : List PushSource} (charge : Charge isProxyClassAddr sources) :
    sources.Nodup := by
  rcases charge with none | ⟨addr, tags⟩
  · simp [none]
  · rw [tags]
    exact push_source_tags_nodup addr

/-! ## Shares -/

theorem bump_held_get (held : OrderedMap PushSource Int) (source other : PushSource) :
    ((PushStore.bumpHeld held source).get other).getD 0 =
      (held.get other).getD 0 + if other = source then 1 else 0 := by
  unfold PushStore.bumpHeld
  rw [get_set]
  split_ifs with same
  · rw [same, getD_some]
  · omega

theorem drop_held_get (held : OrderedMap PushSource Int) (source other : PushSource)
    (holds : 0 < (held.get source).getD 0) :
    ((PushStore.dropHeld held source).get other).getD 0 =
      (held.get other).getD 0 - if other = source then 1 else 0 := by
  simp only [PushStore.dropHeld]
  split_ifs with none same same
  · rw [get_delete, if_pos same, same, getD_none]
    omega
  · rw [get_delete, if_neg same]
    omega
  · rw [get_set, if_pos same, same, getD_some]
  · rw [get_set, if_neg same]
    omega

section

variable (sources : List PushSource) (held : OrderedMap PushSource Int) (other : PushSource)
  (distinct : sources.Nodup)
include sources held other distinct

theorem bump_all_get :
    ((sources.foldl PushStore.bumpHeld held).get other).getD 0 =
      (held.get other).getD 0 + if other ∈ sources then 1 else 0 := by
  induction sources generalizing held with
  | nil => simp
  | cons source rest ih =>
    rw [nodup_cons] at distinct
    rw [foldl_cons, ih _ distinct.2, bump_held_get]
    by_cases same : other = source
    · subst same
      simp [distinct.1]
    · simp [same]

theorem drop_all_get (holds : ∀ source ∈ sources, 0 < (held.get source).getD 0) :
    ((sources.foldl PushStore.dropHeld held).get other).getD 0 =
      (held.get other).getD 0 - if other ∈ sources then 1 else 0 := by
  induction sources generalizing held with
  | nil => simp
  | cons source rest ih =>
    rw [nodup_cons] at distinct
    have first := holds source (by simp)
    have others : ∀ later ∈ rest, 0 < ((PushStore.dropHeld held source).get later).getD 0 := by
      intro later mem
      have apart : later ≠ source := fun same => distinct.1 (same ▸ mem)
      rw [drop_held_get _ _ _ first, if_neg apart]
      have before := holds later (mem_cons_of_mem _ mem)
      omega
    rw [foldl_cons, ih _ distinct.2 others, drop_held_get _ _ _ first]
    by_cases same : other = source
    · subst same
      simp [distinct.1]
    · simp [same]

end

variable {s : PushStore} {box : Box} {before after : List Element}

theorem share_room {addr : Address}
    (room : s.pushShareFull (pushSourceTags isProxyClassAddr addr) = false) :
    ∀ source ∈ pushSourceTags isProxyClassAddr addr, s.heldBy source < sourceLimit source := by
  intro source mem
  simp only [PushStore.pushShareFull, List.any_eq_false, decide_eq_true_eq] at room
  unfold pushSourceTags at room mem
  split_ifs at room mem with proxied
  · simp at mem
  · cases addr with
    | v4 value =>
      rw [mem_singleton] at mem
      have free := room (.address value, 0) (by simp [List.zipIdx])
      simp only [Nat.lt_irrefl, if_false, not_le] at free
      rw [mem]
      exact free
    | v6 value =>
      simp only [mem_cons, not_mem_nil, or_false] at mem
      rcases mem with own | aggregate
      · have free := room (.net56 (value / 2 ^ 72), 0) (by simp [List.zipIdx])
        simp only [Nat.lt_irrefl, if_false, not_le] at free
        rw [own]
        exact free
      · have free := room (.net48 (value / 2 ^ 80), 1) (by simp [List.zipIdx])
        simp only [Nat.zero_lt_one, if_true, not_le] at free
        rw [aggregate]
        exact free

/-! ## The order -/

structure Position (s : PushStore) (box : Box) (id : Nat) (before after : List Element)
    (element : Element) : Prop where
  order : s.pushOrder = before ++ element :: after
  box_eq : element.value.box = box
  id_eq : element.id = id
  others : ∀ other ∈ before ++ after, other.value.box ≠ box ∧ other.id ≠ id

theorem Ledger.position {id : Nat} (ledger : Ledger isProxyClassAddr s)
    (found : s.pushOrderAt.get box = some id) :
    ∃ before after element, Position s box id before after element := by
  obtain ⟨element, mem, sameBox, sameId⟩ := (ledger.found box id).mp found
  obtain ⟨before, after, order⟩ := append_of_mem mem
  have once := ledger.once
  have ids := ledger.ids
  unfold PushStore.listed at once
  rw [order] at once ids
  rw [map_append, map_cons, nodup_middle, nodup_cons] at once ids
  refine ⟨before, after, element, order, sameBox, sameId, ?_⟩
  intro other among
  constructor
  · intro same
    apply once.1
    rw [sameBox, ← same, ← map_append]
    exact mem_map_of_mem among
  · intro same
    apply ids.1
    rw [sameId, ← same, ← map_append]
    exact mem_map_of_mem among

section

variable {id : Nat} {element : Element} (position : Position s box id before after element)
include position

theorem Position.element_at :
    s.elementAt id = some element := by
  have none : before.find? (fun other => decide (other.id = id)) = none := by
    rw [List.find?_eq_none]
    intro other mem
    have apart := (position.others other (mem_append_left _ mem)).2
    simpa using apart
  unfold PushStore.elementAt
  rw [position.order, List.find?_append, none, none_or, List.find?_cons]
  simp [position.id_eq]

theorem Position.remove_element :
    s.removeElement id = before ++ after := by
  have kept : (before ++ after).filter (fun other => decide (other.id ≠ id)) = before ++ after := by
    rw [filter_eq_self]
    intro other mem
    exact decide_eq_true (position.others other mem).2
  rw [filter_append] at kept
  unfold PushStore.removeElement
  rw [position.order, filter_append, filter_cons, position.id_eq]
  simpa using kept

end

theorem Ledger.mem_listed (ledger : Ledger isProxyClassAddr s) :
    box ∈ s.listed ↔ ∃ id, s.pushOrderAt.get box = some id := by
  constructor
  · intro mem
    obtain ⟨element, listed, sameBox⟩ := List.mem_map.mp mem
    exact ⟨element.id, (ledger.found box element.id).mpr ⟨element, listed, sameBox, rfl⟩⟩
  · rintro ⟨id, found⟩
    obtain ⟨element, listed, sameBox, _⟩ := (ledger.found box id).mp found
    exact List.mem_map.mpr ⟨element, listed, sameBox⟩

theorem Ledger.of_books {s other : PushStore} (ledger : Ledger isProxyClassAddr s)
    (order : other.pushOrder = s.pushOrder) (places : other.pushOrderAt = s.pushOrderAt)
    (held : other.pushHeld = s.pushHeld) (next : other.nextElement = s.nextElement)
    (subscribed : other.subscribed = s.subscribed) (serial : other.serial = s.serial) :
    Ledger isProxyClassAddr other := by
  obtain ⟨disk, boxes, pushOrder, pushOrderAt, pushHeld, nextElement, subs, count⟩ := other
  cases order
  cases places
  cases held
  cases next
  cases subscribed
  cases serial
  exact ⟨ledger.once, ledger.ids, ledger.fresh, ledger.found, ledger.charges, ledger.inOrder,
    ledger.past, ledger.held, ledger.share⟩

theorem Ledger.untrack_found {id : Nat} {element : Element} (ledger : Ledger isProxyClassAddr s)
    (found : s.pushOrderAt.get box = some id) (position : Position s box id before after element) :
    Ledger isProxyClassAddr (s.pushUntrack box) ∧
      (s.pushUntrack box).pushOrder = before ++ after ∧
      ∀ source, (s.pushUntrack box).heldBy source ≤ s.heldBy source := by
  have untracked : s.pushUntrack box = { s with
      pushOrderAt := s.pushOrderAt.delete box
      pushOrder := before ++ after
      pushHeld := element.value.sources.foldl PushStore.dropHeld s.pushHeld } := by
    simp only [PushStore.pushUntrack, found]
    rw [position.element_at, position.remove_element]
    rfl
  have mem : element ∈ s.pushOrder := by
    rw [position.order]
    simp
  have within : (before ++ after).Sublist s.pushOrder := by
    rw [position.order]
    exact List.Sublist.append_left (sublist_cons_self _ _) before
  have split : ∀ source, s.chargedTo source =
      (before ++ after).countP (fun other => decide (source ∈ other.value.sources)) +
        if source ∈ element.value.sources then 1 else 0 := by
    intro source
    unfold PushStore.chargedTo
    rw [position.order, countP_append, countP_cons, countP_append]
    simp only [decide_eq_true_eq]
    omega
  have holds : ∀ source ∈ element.value.sources, 0 < (s.pushHeld.get source).getD 0 := by
    intro source charged
    have atLeast := ledger.held source
    rw [split source, if_pos charged] at atLeast
    unfold PushStore.heldBy at atLeast
    omega
  have dropped : ∀ source, (s.pushUntrack box).heldBy source =
      s.heldBy source - if source ∈ element.value.sources then 1 else 0 := by
    intro source
    rw [untracked]
    exact drop_all_get _ _ source (ledger.charges element mem).nodup holds
  have fewer : ∀ source, (s.pushUntrack box).heldBy source ≤ s.heldBy source := by
    intro source
    rw [dropped source]
    split_ifs <;> omega
  have order : (s.pushUntrack box).pushOrder = before ++ after := by rw [untracked]
  refine ⟨?_, order, fewer⟩
  have listed : (s.pushUntrack box).listed.Sublist s.listed := by
    unfold PushStore.listed
    rw [order]
    exact within.map _
  constructor
  case once => exact ledger.once.sublist listed
  case ids =>
    rw [order]
    exact ledger.ids.sublist (within.map _)
  case fresh =>
    rw [untracked]
    intro other among
    exact ledger.fresh other (within.subset among)
  case found =>
    intro other place
    rw [untracked]
    rw [get_delete]
    constructor
    · intro placed
      split_ifs at placed with same
      obtain ⟨found, among, sameBox, sameId⟩ := (ledger.found other place).mp placed
      rw [position.order, mem_append, mem_cons] at among
      refine ⟨found, ?_, sameBox, sameId⟩
      rcases among with earlier | here | later
      · exact mem_append_left _ earlier
      · rw [here, position.box_eq] at sameBox
        exact absurd sameBox.symm same
      · exact mem_append_right _ later
    · rintro ⟨found, among, sameBox, sameId⟩
      have apart := (position.others found among).1
      rw [sameBox] at apart
      rw [if_neg apart]
      exact (ledger.found other place).mpr ⟨found, within.subset among, sameBox, sameId⟩
  case charges =>
    rw [order]
    intro other among
    exact ledger.charges other (within.subset among)
  case inOrder =>
    rw [show (s.pushUntrack box).lastSubscribe = s.lastSubscribe by rw [untracked]; rfl]
    exact ledger.inOrder.sublist listed
  case past =>
    rw [show (s.pushUntrack box).lastSubscribe = s.lastSubscribe by rw [untracked]; rfl,
      show (s.pushUntrack box).serial = s.serial by rw [untracked]]
    intro other among
    exact ledger.past other (listed.subset among)
  case held =>
    intro source
    have balance := ledger.held source
    have parts := split source
    have remains : (s.pushUntrack box).chargedTo source =
        (before ++ after).countP (fun other => decide (source ∈ other.value.sources)) := by
      unfold PushStore.chargedTo
      rw [order]
    rw [dropped source, remains]
    split_ifs at parts ⊢ <;> omega
  case share =>
    intro source
    exact (fewer source).trans (ledger.share source)

theorem Ledger.untrack (ledger : Ledger isProxyClassAddr s) (box : Box) :
    Ledger isProxyClassAddr (s.pushUntrack box) ∧
      (∀ other, other ∈ (s.pushUntrack box).listed ↔ other ≠ box ∧ other ∈ s.listed) ∧
      ∀ source, (s.pushUntrack box).heldBy source ≤ s.heldBy source := by
  cases found : s.pushOrderAt.get box with
  | none =>
    have same : s.pushUntrack box = s := by simp [PushStore.pushUntrack, found]
    rw [same]
    refine ⟨ledger, ?_, fun source => le_refl _⟩
    intro other
    constructor
    · intro member
      refine ⟨?_, member⟩
      intro equal
      obtain ⟨id, present⟩ := ledger.mem_listed.mp member
      rw [equal, found] at present
      cases present
    · exact And.right
  | some id =>
    obtain ⟨before, after, element, position⟩ := ledger.position found
    obtain ⟨kept, order, fewer⟩ := ledger.untrack_found found position
    refine ⟨kept, ?_, fewer⟩
    intro other
    unfold PushStore.listed
    rw [order, position.order]
    simp only [map_append, map_cons, mem_append, mem_cons]
    have apart : ∀ other ∈ before ++ after, other.value.box ≠ box :=
      fun other member => (position.others other member).1
    constructor
    · intro member
      have elsewhere : other ∈ (before ++ after).map fun element => element.value.box := by
        simpa using member
      obtain ⟨found, among, sameBox⟩ := List.mem_map.mp elsewhere
      exact ⟨sameBox ▸ apart found among, member.imp_right Or.inr⟩
    · rintro ⟨different, earlier | here | later⟩
      · exact Or.inl earlier
      · exact absurd (here.trans position.box_eq) different
      · exact Or.inr later

theorem last_subscribe_set (s : PushStore) (box other : Box) (order : List Element)
    (places : OrderedMap Box Nat) (held : OrderedMap PushSource Int) (next : Nat) :
    PushStore.lastSubscribe { s with
      pushOrder := order
      pushOrderAt := places
      pushHeld := held
      nextElement := next
      subscribed := s.subscribed.set box s.serial
      serial := s.serial + 1 } other = if other = box then s.serial else s.lastSubscribe other := by
  simp only [PushStore.lastSubscribe, get_set]
  split_ifs <;> rfl

theorem back_in_order (next : PushStore) {rest : List Box}
    (absent : box ∉ rest)
    (inOrder : rest.Pairwise fun earlier later => s.lastSubscribe earlier < s.lastSubscribe later)
    (past : ∀ other ∈ rest, s.lastSubscribe other < s.serial)
    (stamped : ∀ other, next.lastSubscribe other =
      if other = box then s.serial else s.lastSubscribe other)
    (serial : next.serial = s.serial + 1) :
    (rest ++ [box]).Pairwise (fun earlier later =>
      next.lastSubscribe earlier < next.lastSubscribe later) ∧
      ∀ other ∈ rest ++ [box], next.lastSubscribe other < next.serial := by
  have kept : ∀ other ∈ rest, next.lastSubscribe other = s.lastSubscribe other := by
    intro other mem
    have apart : other ≠ box := fun same => absent (same ▸ mem)
    rw [stamped, if_neg apart]
  have last : next.lastSubscribe box = s.serial := by rw [stamped, if_pos rfl]
  constructor
  · rw [pairwise_append]
    refine ⟨?_, pairwise_singleton _ _, ?_⟩
    · apply inOrder.imp_of_mem
      intro earlier later isEarlier isLater before
      rw [kept earlier isEarlier, kept later isLater]
      exact before
    · intro earlier isEarlier later isLater
      rw [mem_singleton.mp isLater, last, kept earlier isEarlier]
      exact past earlier isEarlier
  · intro other mem
    rw [serial]
    rcases mem_append.mp mem with earlier | back
    · rw [kept other earlier]
      exact (past other earlier).trans (Nat.lt_succ_self _)
    · rw [mem_singleton.mp back, last]
      exact Nat.lt_succ_self _

theorem Ledger.track_again {id : Nat} (ledger : Ledger isProxyClassAddr s)
    (found : s.pushOrderAt.get box = some id) (sources : List PushSource) (created : Bool) :
    Ledger isProxyClassAddr (s.pushTrack box sources created) ∧
      ∀ other, other ∈ (s.pushTrack box sources created).listed ↔ other ∈ s.listed := by
  obtain ⟨before, after, element, position⟩ := ledger.position found
  have tracked : s.pushTrack box sources created = { s with
      pushOrder := before ++ after ++ [element]
      subscribed := s.subscribed.set box s.serial
      serial := s.serial + 1 } := by
    simp only [PushStore.pushTrack, found]
    rw [position.element_at, position.remove_element]
    rfl
  have moved : (before ++ after ++ [element]).Perm s.pushOrder := by
    rw [position.order]
    exact (perm_append_singleton _ _).trans perm_middle.symm
  have listed : (s.pushTrack box sources created).listed.Perm s.listed := by
    rw [tracked]
    exact moved.map _
  have rest : (before ++ after).map (fun element => element.value.box) |>.Sublist s.listed := by
    unfold PushStore.listed
    rw [position.order]
    exact (List.Sublist.append_left (sublist_cons_self _ _) before).map _
  have absent : box ∉ (before ++ after).map fun element => element.value.box := by
    intro mem
    obtain ⟨other, among, same⟩ := List.mem_map.mp mem
    exact (position.others other among).1 same
  have names : (s.pushTrack box sources created).listed =
      (before ++ after).map (fun element => element.value.box) ++ [box] := by
    unfold PushStore.listed
    rw [tracked]
    simp [position.box_eq]
  have ordered := back_in_order (s.pushTrack box sources created) absent
    (ledger.inOrder.sublist rest) (fun other mem => ledger.past other (rest.subset mem))
    (by
      intro other
      rw [tracked]
      exact last_subscribe_set s box other _ _ _ _)
    (by rw [tracked])
  refine ⟨?_, fun other => listed.mem_iff⟩
  constructor
  case once => exact listed.nodup_iff.mpr ledger.once
  case ids =>
    rw [tracked]
    exact (moved.map _).nodup_iff.mpr ledger.ids
  case fresh =>
    rw [tracked]
    intro other mem
    exact ledger.fresh other (moved.mem_iff.mp mem)
  case found =>
    intro other place
    rw [tracked]
    simp only [moved.mem_iff]
    exact ledger.found other place
  case charges =>
    rw [tracked]
    intro other mem
    exact ledger.charges other (moved.mem_iff.mp mem)
  case inOrder =>
    rw [names]
    exact ordered.1
  case past =>
    rw [names]
    exact ordered.2
  case held =>
    intro source
    have same : (s.pushTrack box sources created).chargedTo source = s.chargedTo source := by
      rw [tracked]
      exact moved.countP_eq _
    rw [same, tracked]
    exact ledger.held source
  case share =>
    rw [tracked]
    exact ledger.share

theorem Ledger.track_new (ledger : Ledger isProxyClassAddr s)
    (absent : s.pushOrderAt.get box = none) {sources : List PushSource} {created : Bool}
    (charge : Charge isProxyClassAddr sources)
    (room : created = true → ∀ source ∈ sources, s.heldBy source < sourceLimit source) :
    Ledger isProxyClassAddr (s.pushTrack box sources created) ∧
      (s.pushTrack box sources created).listed = s.listed ++ [box] := by
  obtain ⟨charged, chargedEq⟩ : ∃ charged, charged = if created then sources else [] := ⟨_, rfl⟩
  have tracked : s.pushTrack box sources created = { s with
      pushOrder := s.pushOrder ++ [⟨s.nextElement, box, charged⟩]
      pushOrderAt := s.pushOrderAt.set box s.nextElement
      pushHeld := charged.foldl PushStore.bumpHeld s.pushHeld
      nextElement := s.nextElement + 1
      subscribed := s.subscribed.set box s.serial
      serial := s.serial + 1 } := by
    simp only [PushStore.pushTrack, absent]
    rw [chargedEq]
  have fits : Charge isProxyClassAddr charged := by
    rw [chargedEq]
    split_ifs
    · exact charge
    · exact Or.inl rfl
  have free : ∀ source ∈ charged, s.heldBy source < sourceLimit source := by
    intro source mem
    rw [chargedEq] at mem
    split_ifs at mem with made
    · exact room made source mem
    · simp at mem
  have unlisted : box ∉ s.listed := by
    intro mem
    obtain ⟨id, present⟩ := ledger.mem_listed.mp mem
    rw [absent] at present
    cases present
  have names : (s.pushTrack box sources created).listed = s.listed ++ [box] := by
    rw [tracked]
    simp [PushStore.listed]
  have bumped : ∀ source, (s.pushTrack box sources created).heldBy source =
      s.heldBy source + if source ∈ charged then 1 else 0 := by
    intro source
    rw [tracked]
    exact bump_all_get _ _ source fits.nodup
  have ordered := back_in_order (s.pushTrack box sources created) unlisted ledger.inOrder
    ledger.past
    (by
      intro other
      rw [tracked]
      exact last_subscribe_set s box other _ _ _ _)
    (by rw [tracked])
  refine ⟨?_, names⟩
  constructor
  case once =>
    rw [names, nodup_append]
    refine ⟨ledger.once, by simp, ?_⟩
    intro other mem last isLast same
    rw [mem_singleton.mp isLast] at same
    exact unlisted (same ▸ mem)
  case ids =>
    rw [tracked]
    simp only [map_append, map_cons, map_nil]
    rw [nodup_append]
    refine ⟨ledger.ids, by simp, ?_⟩
    intro id mem last isLast same
    obtain ⟨element, among, sameId⟩ := List.mem_map.mp mem
    have before := ledger.fresh element among
    rw [sameId, same, mem_singleton.mp isLast] at before
    exact Nat.lt_irrefl _ before
  case fresh =>
    rw [tracked]
    intro element mem
    rcases mem_append.mp mem with earlier | last
    · exact (ledger.fresh element earlier).trans (Nat.lt_succ_self _)
    · rw [mem_singleton.mp last]
      exact Nat.lt_succ_self _
  case found =>
    intro other place
    rw [tracked]
    simp only [get_set, mem_append, mem_singleton]
    split_ifs with same
    · constructor
      · intro here
        cases here
        exact ⟨_, Or.inr rfl, same.symm, rfl⟩
      · rintro ⟨element, earlier | last, sameBox, sameId⟩
        · exact absurd (List.mem_map.mpr ⟨element, earlier, sameBox.trans same⟩) unlisted
        · rw [last] at sameId
          rw [← sameId]
    · rw [ledger.found other place]
      constructor
      · rintro ⟨element, earlier, sameBox, sameId⟩
        exact ⟨element, Or.inl earlier, sameBox, sameId⟩
      · rintro ⟨element, earlier | last, sameBox, sameId⟩
        · exact ⟨element, earlier, sameBox, sameId⟩
        · rw [last] at sameBox
          exact absurd sameBox.symm same
  case charges =>
    rw [tracked]
    intro element mem
    rcases mem_append.mp mem with earlier | last
    · exact ledger.charges element earlier
    · rw [mem_singleton.mp last]
      exact fits
  case inOrder =>
    rw [names]
    exact ordered.1
  case past =>
    rw [names]
    exact ordered.2
  case held =>
    intro source
    have more : (s.pushTrack box sources created).chargedTo source =
        s.chargedTo source + if source ∈ charged then 1 else 0 := by
      rw [tracked]
      simp [PushStore.chargedTo, countP_append, countP_cons]
    rw [bumped source, more, ledger.held source]
    split_ifs <;> simp
  case share =>
    intro source
    rw [bumped source]
    split_ifs with isCharged
    · have below := free source isCharged
      omega
    · have within := ledger.share source
      omega

end Push

end AwfulChat.Relay
