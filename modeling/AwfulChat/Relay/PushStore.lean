import AwfulChat.Library.Runs
import AwfulChat.Relay.Registry

/-!
# The push subscription store

`push.go`: a file for each box, and beside the disk the count of the files, the boxes in the
order in which they were last subscribed to, and how many each source created. A file may not
be readable, and a write may fail; a failed write leaves the file that was there, or none.
-/

namespace AwfulChat.Relay

open Library

set_option autoImplicit false

namespace Push

def pushMaxDevices : Nat := 16
def pushMaxBoxes : Nat := 65536
def pushMaxBoxesPerSource : Nat := pushMaxBoxes / 64

abbrev Box := String
abbrev Device := String

/-- What a share is held by: an address, a /56 or the /48 around it. -/
inductive PushSource
  | address (value : Nat)
  | net56 (value : Nat)
  | net48 (value : Nat)
  deriving DecidableEq

/-- The shares a subscribe is charged to; none for an address of a proxy's class. -/
def pushSourceTags (isProxyClassAddr : Address → Bool) (addr : Address) : List PushSource :=
  if isProxyClassAddr addr then []
  else match addr with
    | .v4 value => [.address value]
    | .v6 value => [.net56 (value / 2 ^ 72), .net48 (value / 2 ^ 80)]

structure PushSubscription where
  endpoint : String
  p256dh : String
  auth : String
  ts : Int
  deriving DecidableEq

abbrev Devices := OrderedMap Device PushSubscription

structure BoxFile where
  /-- Nothing where the file is not JSON. -/
  devices : Option Devices
  mod : Int

structure PushStoredBox where
  box : Box
  sources : List PushSource
  deriving DecidableEq

/-- An element of `pushOrder`, which `pushOrderAt` finds by its identity. -/
structure Element where
  id : Nat
  value : PushStoredBox
  deriving DecidableEq

structure PushStore where
  disk : OrderedMap Box BoxFile
  pushBoxes : Nat
  pushOrder : List Element
  pushOrderAt : OrderedMap Box Nat
  pushHeld : OrderedMap PushSource Int
  nextElement : Nat
  /-- When each box was last subscribed to, counted in subscribes: what the order stands for. -/
  subscribed : OrderedMap Box Nat
  serial : Nat

inductive WriteOutcome
  | written
  /-- It failed, and what was there is there. -/
  | kept
  /-- It failed, and there is no file. -/
  | lost
  deriving DecidableEq

namespace PushStore

def read (s : PushStore) (box : Box) (readable : Bool) : Devices × Bool :=
  match s.disk.get box with
  | none => (OrderedMap.empty, false)
  | some file => if readable then (file.devices.getD OrderedMap.empty, true)
      else (OrderedMap.empty, false)

def dropHeld (held : OrderedMap PushSource Int) (source : PushSource) : OrderedMap PushSource Int :=
  let left := (held.get source).getD 0 - 1
  if left ≤ 0 then held.delete source else held.set source left

def bumpHeld (held : OrderedMap PushSource Int) (source : PushSource) : OrderedMap PushSource Int :=
  held.set source ((held.get source).getD 0 + 1)

def elementAt (s : PushStore) (id : Nat) : Option Element :=
  s.pushOrder.find? fun element => decide (element.id = id)

def removeElement (s : PushStore) (id : Nat) : List Element :=
  s.pushOrder.filter fun element => decide (element.id ≠ id)

def pushUntrack (s : PushStore) (box : Box) : PushStore :=
  match s.pushOrderAt.get box with
  | none => s
  | some id =>
    let sources := ((s.elementAt id).map fun element => element.value.sources).getD []
    { s with
      pushOrderAt := s.pushOrderAt.delete box
      pushOrder := s.removeElement id
      pushHeld := sources.foldl dropHeld s.pushHeld }

def pushTrack (s : PushStore) (box : Box) (sources : List PushSource) (created : Bool) : PushStore :=
  match s.pushOrderAt.get box with
  | some id =>
    { s with
      pushOrder := s.removeElement id ++ (s.elementAt id).toList
      subscribed := s.subscribed.set box s.serial
      serial := s.serial + 1 }
  | none =>
    let charged := if created then sources else []
    { s with
      pushOrder := s.pushOrder ++ [⟨s.nextElement, box, charged⟩]
      pushOrderAt := s.pushOrderAt.set box s.nextElement
      pushHeld := charged.foldl bumpHeld s.pushHeld
      nextElement := s.nextElement + 1
      subscribed := s.subscribed.set box s.serial
      serial := s.serial + 1 }

/-- The limit grows with the place in the list, which is the /48's. -/
def pushShareFull (s : PushStore) (sources : List PushSource) : Bool :=
  sources.zipIdx.any fun entry =>
    let limit := if 0 < entry.2 then pushMaxBoxesPerSource * ipv6AggregateFactor
      else pushMaxBoxesPerSource
    decide ((limit : Int) ≤ (s.pushHeld.get entry.1).getD 0)

def writePushBox (s : PushStore) (box : Box) (devices : Devices) (existed : Bool)
    (write : WriteOutcome) (now : Int) : PushStore × Bool :=
  if devices.size = 0 then
    if existed && s.disk.has box then
      ({ s with disk := s.disk.delete box, pushBoxes := s.pushBoxes - 1 }.pushUntrack box, false)
    else (s, false)
  else
    match write with
    | .kept => (s, true)
    | .lost => ({ s with disk := s.disk.delete box }, true)
    | .written =>
      ({ s with
        disk := s.disk.set box ⟨some devices, now⟩
        pushBoxes := if existed then s.pushBoxes else s.pushBoxes + 1 }, false)

def pushShedOldest (s : PushStore) : Option PushStore :=
  match s.pushOrder with
  | [] => none
  | element :: _ =>
    let shed := { s with disk := s.disk.delete element.value.box }.pushUntrack element.value.box
    some { shed with pushBoxes := shed.pushBoxes - 1 }

end PushStore

def olderDevice (oldest : Option (Device × PushSubscription)) (entry : Device × PushSubscription) :
    Option (Device × PushSubscription) :=
  match oldest with
  | none => some entry
  | some best => if entry.2.ts < best.2.ts then some entry else oldest

/-- The device whose subscription is the oldest. -/
def oldestDevice (devices : Devices) : Option Device :=
  (devices.entries.foldl olderDevice none).map Prod.fst

def makeDeviceRoom (devices : Devices) (device : Device) : Devices :=
  if !devices.has device && decide (pushMaxDevices ≤ devices.size) then
    match oldestDevice devices with
    | none => devices
    | some oldest => devices.delete oldest
  else devices

structure Subscribe where
  box : Box
  device : Device
  subscription : PushSubscription
  addr : Address
  /-- Whether the box's file, if there is one, can be read. -/
  readable : Bool
  write : WriteOutcome
  now : Int

inductive Answer
  | noContent
  | rateLimited
  | pushFull
  | storageError
  deriving DecidableEq

namespace PushStore

/-- Room in a full store for a box that has no file; nothing where there is none. -/
def makeRoom (s : PushStore) : Option PushStore :=
  if s.pushBoxes < pushMaxBoxes then some s else s.pushShedOldest

/-- A subscribe once it is let in and its sources are known. -/
def handlePushSubscribe (s : PushStore) (req : Subscribe) (sources : List PushSource) :
    PushStore × Answer :=
  let found := s.read req.box req.readable
  if found.2 = false ∧ s.pushShareFull sources = true then (s, .rateLimited)
  else
    match if found.2 then some s else s.makeRoom with
    | none => (s, .pushFull)
    | some s =>
      let devices := (makeDeviceRoom found.1 req.device).set req.device req.subscription
      let out := s.writePushBox req.box devices found.2 req.write req.now
      if out.2 then (out.1, .storageError)
      else (out.1.pushTrack req.box sources (!found.2), .noContent)

/-- An unsubscribe is the removal of one device. -/
def pushRemoveDevices (s : PushStore) (box : Box) (devices : List Device) (readable : Bool)
    (write : WriteOutcome) (now : Int) : PushStore :=
  let found := s.read box readable
  if found.2 = false then s
  else
    (s.writePushBox box (devices.foldl (fun subs device => subs.delete device) found.1) true write
      now).1

end PushStore

/-- One box of the disk at boot joins the back of the order, charged to nobody. -/
def lineUp (s : PushStore) (box : Box) : PushStore :=
  { s with
    pushOrder := s.pushOrder ++ [⟨s.nextElement, box, []⟩]
    pushOrderAt := s.pushOrderAt.set box s.nextElement
    nextElement := s.nextElement + 1
    subscribed := s.subscribed.set box s.serial
    serial := s.serial + 1 }

/-- Older files first, and by name where the times are the same. -/
def olderFile (first second : Box × BoxFile) : Bool :=
  if first.2.mod = second.2.mod then decide (first.1 ≤ second.1)
  else decide (first.2.mod < second.2.mod)

def pushInitCount (disk : OrderedMap Box BoxFile) : PushStore :=
  let boxes := (disk.entries.mergeSort olderFile).map Prod.fst
  let lined := boxes.foldl lineUp
    ⟨disk, 0, [], OrderedMap.empty, OrderedMap.empty, 0, OrderedMap.empty, 0⟩
  { lined with pushBoxes := boxes.length }

inductive PushEvent
  | subscribe (req : Subscribe)
  /-- An unsubscribe, or what a push service said of its devices. -/
  | removeDevices (box : Box) (devices : List Device) (readable : Bool) (write : WriteOutcome)
      (now : Int)

def pushStep (isProxyClassAddr : Address → Bool) (s : PushStore) : PushEvent → Option PushStore
  | .subscribe req =>
    some (s.handlePushSubscribe req (pushSourceTags isProxyClassAddr req.addr)).1
  | .removeDevices box devices readable write now =>
    some (s.pushRemoveDevices box devices readable write now)

/-- A box is at the front of the order: the one that a full store sheds. -/
def PushStore.Oldest (s : PushStore) (box : Box) : Prop :=
  ∃ element ∈ s.pushOrder.head?, element.value.box = box

instance (s : PushStore) (box : Box) : Decidable (s.Oldest box) :=
  inferInstanceAs (Decidable (∃ _, _))

/-- A subscribe to a box that looks new: its source is over its share, or the store has room and
what is written is a new file or none, or the store is full and the write that follows the
shedding is the first of the box's file. -/
def SubscribeAnew (s : PushStore) (req : Subscribe) (sources : List PushSource) : Prop :=
  s.pushShareFull sources = true ∨
    if s.pushBoxes < pushMaxBoxes then s.disk.has req.box = false ∨ req.write = .kept
    else req.write = .written ∧ (s.disk.has req.box = false ∨ s.Oldest req.box)

instance (s : PushStore) (req : Subscribe) (sources : List PushSource) :
    Decidable (SubscribeAnew s req sources) := inferInstanceAs (Decidable (_ ∨ _))

/-- No write loses the file it was to replace, a new box is counted once, and no box is shed for
one that is then not written. -/
def Orderly (isProxyClassAddr : Address → Bool) (s : PushStore) : PushEvent → Prop
  | .subscribe req =>
    if s.disk.has req.box = true ∧ req.readable = true then req.write ≠ .lost
    else SubscribeAnew s req (pushSourceTags isProxyClassAddr req.addr)
  | .removeDevices box devices readable write _ =>
    write ≠ .lost ∨ ∀ device ∈ (s.read box readable).1.keys, device ∈ devices

instance (isProxyClassAddr : Address → Bool) (s : PushStore) :
    ∀ event, Decidable (Orderly isProxyClassAddr s event)
  | .subscribe req => inferInstanceAs (Decidable
      (if s.disk.has req.box = true ∧ req.readable = true then req.write ≠ .lost
      else SubscribeAnew s req (pushSourceTags isProxyClassAddr req.addr)))
  | .removeDevices box devices readable write _ => inferInstanceAs (Decidable (_ ∨ _))

end Push

end AwfulChat.Relay
