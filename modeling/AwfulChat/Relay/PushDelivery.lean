import AwfulChat.Relay.PushStore

/-!
# Waking the devices of a box

Deposits queue a box, any number of workers take boxes off the queue, and each looks at the
box's devices one at a time: whether it was told already, the send, the mark. Collects,
subscribes and the clock come in between any two of these. Which devices a push service is
asked for, and what it answers, is left open.
-/

namespace AwfulChat.Relay

open Library

set_option autoImplicit false

namespace Push

def pushCoalesceWindow : Int := minute
def pushRearmAfter : Int := 60 * minute
def pushQueueDepth : Nat := 1024

abbrev Worker := Nat

/-- Where a `pushDeliver` is. `now` is its reading of the clock, `left` the devices it has not
looked at, `dead` those whose subscription a push service said is gone. -/
inductive Stage
  | taken
  | swept
  | loaded (subs : List Device)
  | looking (now : Int) (left dead : List Device)
  /-- The device was not told, and its wake-up is on its way since `checked`. -/
  | sending (now : Int) (left dead : List Device) (device : Device) (checked : Int)
  /-- The push service took the wake-up, and the worker has not heard of it yet. -/
  | reached (now : Int) (left dead : List Device) (device : Device)
  deriving DecidableEq

structure Delivery where
  box : Box
  stage : Stage
  deriving DecidableEq

/-- What happened to devices, seen from outside. -/
inductive Seen
  /-- A wake-up reached the device. -/
  | woke (box : Box) (device : Device) (time : Int)
  /-- The device collected or subscribed; the empty name is every device of the box. -/
  | looked (box : Box) (device : Device)
  /-- The device was passed over as told already. -/
  | skipped (box : Box) (device : Device) (time : Int)
  deriving DecidableEq

structure PushState where
  store : PushStore
  clock : Int
  pushLastSent : OrderedMap Box Int
  pushLastSwep : Option Int
  pushQueue : List Box
  pushTold : OrderedMap Box (OrderedMap Device Int)
  pushToldSwept : Option Int
  workers : OrderedMap Worker Delivery
  /-- Latest first. -/
  history : List Seen

inductive DeliveryEvent
  | tick (elapsed : Nat)
  | deposit (box : Box)
  | subscribe (req : Subscribe) (sources : List PushSource)
  | unsubscribe (box : Box) (device : Device) (readable : Bool) (write : WriteOutcome)
  /-- By a collect, or by a subscribe once it is stored. -/
  | collected (box : Box) (device : Device)
  | take (worker : Worker)
  | sweep (worker : Worker)
  | load (worker : Worker) (readable : Bool)
  /-- Nobody is subscribed, there are no keys, or the box sits out a backoff. -/
  | giveUp (worker : Worker)
  | start (worker : Worker)
  | check (worker : Worker) (device : Device)
  /-- Passed over for its push service, or not taken by it. -/
  | unsent (worker : Worker)
  | gone (worker : Worker)
  | reach (worker : Worker)
  | mark (worker : Worker)
  | finish (worker : Worker) (readable : Bool) (write : WriteOutcome)

namespace PushState

def toldAt (s : PushState) (box : Box) (device : Device) : Option Int :=
  (s.pushTold.get box).bind fun devices => devices.get device

def pushWaiting (s : PushState) (box : Box) (device : Device) (now : Int) : Bool :=
  match s.toldAt box device with
  | none => false
  | some told => decide (now - told < pushRearmAfter)

def sweptDevices (now : Int) (devices : OrderedMap Device Int) : OrderedMap Device Int :=
  devices.keep fun device => decide (now - (devices.get device).getD 0 < pushRearmAfter)

def sweepBox (now : Int) (told : OrderedMap Box (OrderedMap Device Int)) (box : Box) :
    OrderedMap Box (OrderedMap Device Int) :=
  match told.get box with
  | none => told
  | some devices =>
    if (sweptDevices now devices).size = 0 then told.delete box
    else told.set box (sweptDevices now devices)

def pushSweepTold (s : PushState) (now : Int) : PushState :=
  match s.pushToldSwept with
  | some swept =>
    if now - swept ≤ pushRearmAfter then s
    else { s with
      pushToldSwept := some now
      pushTold := s.pushTold.keys.foldl (sweepBox now) s.pushTold }
  | none => { s with
      pushToldSwept := some now
      pushTold := s.pushTold.keys.foldl (sweepBox now) s.pushTold }

def pushMarkTold (s : PushState) (box : Box) (device : Device) (now : Int) : PushState :=
  { s with
    pushTold := s.pushTold.set box
      (((s.pushTold.get box).getD OrderedMap.empty).set device now) }

def pushCollected (s : PushState) (box : Box) (device : Device) : PushState :=
  if device = "" then { s with pushTold := s.pushTold.delete box }
  else
    match s.pushTold.get box with
    | none => s
    | some devices =>
      if (devices.delete device).size = 0 then { s with pushTold := s.pushTold.delete box }
      else { s with pushTold := s.pushTold.set box (devices.delete device) }

def sweepSent (now : Int) (sent : OrderedMap Box Int) : OrderedMap Box Int :=
  sent.keep fun box => decide (now - (sent.get box).getD 0 < pushCoalesceWindow)

def enqueue (s : PushState) (box : Box) : PushState :=
  if s.pushQueue.length < pushQueueDepth then { s with pushQueue := s.pushQueue ++ [box] } else s

def pushNotifyBox (s : PushState) (box : Box) : PushState :=
  let now := s.clock
  if (match s.pushLastSent.get box with
    | none => false
    | some last => decide (now - last < pushCoalesceWindow)) then s
  else
    let sent := s.pushLastSent.set box now
    let due := match s.pushLastSwep with
      | none => true
      | some swept => decide (pushCoalesceWindow < now - swept)
    let noted : PushState := { s with
      pushLastSent := if due then sweepSent now sent else sent
      pushLastSwep := if due then some now else s.pushLastSwep }
    noted.enqueue box

def setStage (s : PushState) (worker : Worker) (box : Box) (stage : Stage) : PushState :=
  { s with workers := s.workers.set worker ⟨box, stage⟩ }

def see (s : PushState) (seen : Seen) : PushState := { s with history := seen :: s.history }

end PushState

open PushState

def deliverStep (s : PushState) (worker : Worker) (box : Box) :
    Stage → DeliveryEvent → Option PushState
  | .taken, .sweep _ => some ((s.pushSweepTold s.clock).setStage worker box .swept)
  | .swept, .load _ readable =>
    some (s.setStage worker box (.loaded (s.store.read box readable).1.keys))
  | .loaded _, .giveUp _ => some { s with workers := s.workers.delete worker }
  | .loaded subs, .start _ =>
    if subs = [] then none else some (s.setStage worker box (.looking s.clock subs []))
  | .looking now left dead, .check _ device =>
    if device ∈ left then
      if s.pushWaiting box device now then
        some ((s.see (.skipped box device s.clock)).setStage worker box
          (.looking now (left.erase device) dead))
      else
        some (s.setStage worker box (.sending now (left.erase device) dead device s.clock))
    else none
  | .sending now left dead _ _, .unsent _ =>
    some (s.setStage worker box (.looking now left dead))
  | .sending now left dead device _, .gone _ =>
    some (s.setStage worker box (.looking now left (dead ++ [device])))
  | .sending now left dead device _, .reach _ =>
    some ((s.see (.woke box device s.clock)).setStage worker box
      (.reached now left dead device))
  | .reached now left dead device, .mark _ =>
    some ((s.pushMarkTold box device s.clock).setStage worker box (.looking now left dead))
  | .looking _ [] dead, .finish _ readable write =>
    some { s with
      workers := s.workers.delete worker
      store := if dead = [] then s.store
        else s.store.pushRemoveDevices box dead readable write s.clock }
  | _, _ => none

def deliveryWorker : DeliveryEvent → Option Worker
  | .sweep worker | .load worker _ | .giveUp worker | .start worker | .check worker _
  | .unsent worker | .gone worker | .reach worker | .mark worker | .finish worker _ _ => some worker
  | _ => none

def deliveryStep (s : PushState) (event : DeliveryEvent) : Option PushState :=
  match event with
  | .tick elapsed => some { s with clock := s.clock + elapsed }
  | .deposit box => some (s.pushNotifyBox box)
  | .subscribe req sources => some { s with store := (s.store.handlePushSubscribe req sources).1 }
  | .unsubscribe box device readable write =>
    some { s with store := s.store.pushRemoveDevices box [device] readable write s.clock }
  | .collected box device => some ((s.pushCollected box device).see (.looked box device))
  | .take worker =>
    match s.workers.get worker, s.pushQueue with
    | none, box :: rest => some ({ s with pushQueue := rest }.setStage worker box .taken)
    | _, _ => none
  | event =>
    (deliveryWorker event).bind fun worker =>
      (s.workers.get worker).bind fun delivery =>
        deliverStep s worker delivery.box delivery.stage event

def pushStart (disk : OrderedMap Box BoxFile) (clock : Int) : PushState :=
  ⟨pushInitCount disk, clock, OrderedMap.empty, none, [], OrderedMap.empty, none,
    OrderedMap.empty, []⟩

/-! ## What is asked -/

/-- A collect or subscribe of this device, or of every device of the box. -/
def Seen.LooksAt (box : Box) (device : Device) : Seen → Prop
  | .looked where_ who => where_ = box ∧ (who = device ∨ who = "")
  | _ => False

instance (box : Box) (device : Device) : ∀ seen, Decidable (Seen.LooksAt box device seen)
  | .looked where_ who => inferInstanceAs (Decidable (_ ∧ _))
  | .woke _ _ _ | .skipped _ _ _ => isFalse id

/-- One wake-up per look, in a history that has the latest first. -/
structure OneWakePerLook (history : List Seen) : Prop where
  apart : ∀ box device later earlier newer between older,
    history = newer ++ .woke box device later :: between ++ .woke box device earlier :: older →
    (∃ seen ∈ between, seen.LooksAt box device) ∨ pushRearmAfter ≤ later - earlier
  told : ∀ box device time newer older, history = newer ++ .skipped box device time :: older →
    ∃ between woken rest, older = between ++ .woke box device woken :: rest ∧
      (∀ seen ∈ between, ¬seen.LooksAt box device) ∧ time - woken < pushRearmAfter

/-- The times of the wake-ups that reached a device since it last looked, latest first. -/
def wakesSince (box : Box) (device : Device) : List Seen → List Int
  | [] => []
  | .woke where_ who time :: rest =>
    if where_ = box ∧ who = device then time :: wakesSince box device rest
    else wakesSince box device rest
  | .looked where_ who :: rest =>
    if where_ = box ∧ (who = device ∨ who = "") then [] else wakesSince box device rest
  | .skipped _ _ _ :: rest => wakesSince box device rest

/-- The device that the wake-up reached, where the worker has not heard of it yet. -/
def Stage.unheard : Stage → Option Device
  | .reached _ _ _ device => some device
  | _ => none

/-- The device being sent to, and when it was looked up. -/
def Stage.sent : Stage → Option (Device × Int)
  | .sending _ _ _ device checked => some (device, checked)
  | _ => none

def Stage.reading : Stage → Option Int
  | .looking now _ _ => some now
  | .sending now _ _ _ _ => some now
  | .reached now _ _ _ => some now
  | _ => none

def PushState.Unheard (s : PushState) (box : Box) (device : Device) : Prop :=
  ∃ delivery ∈ s.workers.values, delivery.box = box ∧ delivery.stage.unheard = some device

instance (s : PushState) (box : Box) (device : Device) : Decidable (s.Unheard box device) :=
  inferInstanceAs (Decidable (∃ _, _))

/-- No other wake-up reached the device since this one's check without being marked by then. -/
def ReachInTurn (s : PushState) (delivery : Delivery) : Prop :=
  ∀ sent ∈ delivery.stage.sent, ¬s.Unheard delivery.box sent.1 ∧
    ∀ told ∈ s.toldAt delivery.box sent.1, told < sent.2

instance (s : PushState) (delivery : Delivery) : Decidable (ReachInTurn s delivery) :=
  inferInstanceAs (Decidable (∀ _, _))

/-- The hour since the last wake-up does not run out between the delivery's reading of the clock
and its look at a device that was told. -/
def CheckInTurn (s : PushState) (delivery : Delivery) (device : Device) : Prop :=
  ∀ now ∈ delivery.stage.reading, s.pushWaiting delivery.box device now = true →
    ∀ woken ∈ (wakesSince delivery.box device s.history).head?, s.clock - woken < pushRearmAfter

instance (s : PushState) (delivery : Delivery) (device : Device) :
    Decidable (CheckInTurn s delivery device) := inferInstanceAs (Decidable (∀ _, _))

/-- No wake-up overtakes another's mark, and no device looks between a wake-up and its mark. -/
def InTurn (s : PushState) : DeliveryEvent → Prop
  | .collected box device => ∀ delivery ∈ s.workers.values, delivery.box = box →
      ∀ reached ∈ delivery.stage.unheard, ¬(device = reached ∨ device = "")
  | .reach worker => ∀ delivery ∈ s.workers.get worker, ReachInTurn s delivery
  | .check worker device => ∀ delivery ∈ s.workers.get worker, CheckInTurn s delivery device
  | _ => True

instance (s : PushState) : ∀ event, Decidable (InTurn s event)
  | .collected box device | .reach worker | .check worker device =>
    inferInstanceAs (Decidable (∀ _, _))
  | .tick _ | .deposit _ | .subscribe _ _ | .unsubscribe _ _ _ _ | .take _ | .sweep _ | .load _ _
  | .giveUp _ | .start _ | .unsent _ | .gone _ | .mark _ | .finish _ _ _ => isTrue trivial

end Push

end AwfulChat.Relay
