import AwfulChat.Library.Runs
import AwfulChat.Library.Totals
import AwfulChat.Relay.MailboxAuth

/-!
# The offline mailbox

Deposits, acks, the sweep and the two evictions of `mailbox.go`, over the files of
the mailbox directory and the counters and lists kept in memory beside them. A box
is a directory of blobs and, once a device has acked one, an index of device lists.
All of it happens under one lock, so an operation is one step; a sweep takes the
lock anew for each box. Which removals the file system refuses comes with each
operation.
-/

namespace AwfulChat.Relay

open Library

set_option autoImplicit false

def mailboxMaxBlob : Nat := 16 * 1024
def mailboxMaxMsgs : Nat := 100
def mailboxMaxBytes : Nat := 512 * 1024
def mailboxTTL : Nat := 48 * 3600 * 1000000000
def mailboxGlobalMaxBytes : Int := 256 * 1048576
def mailboxBlockSize : Int := 4096
def mailboxGlobalMaxFiles : Int := mailboxGlobalMaxBytes / mailboxBlockSize
def mailboxGlobalMaxBoxes : Int := mailboxGlobalMaxFiles / 2
def mailboxMaxHeldPerSource : Int := mailboxGlobalMaxFiles / 16
def mailboxMaxHeldBytesPerSource : Int := mailboxGlobalMaxBytes / 16
def mailboxMaxAckIDs : Nat := 256
def mailboxMaxAckDevices : Nat := 16
def ackIndexName : String := "acks.json"

def isHex (c : Char) : Bool :=
  c.isDigit || (decide ('a' ≤ c) && decide (c ≤ 'f'))

/-- `mailboxBoxRe`. -/
def mailboxBox (box : String) : Bool :=
  decide (box.toList.length = 64) && box.toList.all isHex

/-- `mailboxIDRe`. -/
def mailboxID (id : String) : Bool :=
  decide (1 ≤ id.toList.length) && decide (id.toList.length ≤ 32) && id.toList.all isHex

/-- What a file costs the global budget: a block at least. -/
def mailboxCharge (size : Nat) : Int :=
  if (size : Int) < mailboxBlockSize then mailboxBlockSize else size

section Files

/-- The devices that acked each blob. -/
abbrev AckIndex := OrderedMap String (List String)

def commaJoined (sizes : List Nat) : Nat := sizes.sum + (sizes.length - 1)

/-- Ids are hex and devices base58, so no character is escaped. -/
def quotedSize (text : String) : Nat := text.utf8ByteSize + 2

def deviceListSize (devices : List String) : Nat := 2 + commaJoined (devices.map quotedSize)

/-- The length of `json.Marshal` of an index. -/
def AckIndex.jsonSize (index : AckIndex) : Nat :=
  2 + commaJoined (index.entries.map fun entry =>
    quotedSize entry.1 + 1 + deviceListSize entry.2)

/-- An index as the relay writes it, or what a crash left of one. -/
inductive AckFile where
  | written (index : AckIndex)
  | torn (size : Nat)

def AckFile.size : AckFile → Nat
  | .written index => index.jsonSize
  | .torn size => size

structure Blob where
  content : Bytes
  mod : Nat

def Blob.size (blob : Blob) : Nat := blob.content.length

/-- A box directory, named by its box; its files are named by their ids, and beside
them stands the index. -/
structure BoxDir where
  blobs : OrderedMap String Blob
  acks : Option AckFile

def BoxDir.empty : BoxDir := ⟨.empty, none⟩

abbrev MailboxDisk := OrderedMap String BoxDir

/-- The removals the file system refuses. -/
structure Faults where
  file : String → String → Bool
  directory : String → Bool

def noFaults : Faults := ⟨fun _ _ => false, fun _ => false⟩

end Files

structure MailboxOrigin where
  source : String
  charge : Int

structure MailboxShare where
  files : Int
  bytes : Int
  deriving DecidableEq

/-- The files, and what the relay remembers of them. `boxOrder` and `acked` are
`mailboxBoxOrder` and `mailboxAcked` together with the maps that find an element in
them. -/
structure Mailbox where
  disk : MailboxDisk
  usedBytes : Int
  files : Int
  boxes : Int
  blobOrigin : OrderedMap (String × String) MailboxOrigin
  held : OrderedMap String MailboxShare
  boxOrder : OrderedMap String Nat
  acked : OrderedMap (String × String) Int
  ackedBytes : Int

section Memory

variable (m : Mailbox)

def Mailbox.heldBy (source : String) : MailboxShare := (m.held.get source).getD ⟨0, 0⟩

def mailboxRecordBlob (box id source : String) (charge : Int) : Mailbox :=
  let share := m.heldBy source
  { m with
    blobOrigin := m.blobOrigin.set (box, id) ⟨source, charge⟩
    held := m.held.set source ⟨share.files + 1, share.bytes + charge⟩ }

def mailboxNoteAcked (box id : String) (charge : Int) : Mailbox :=
  if m.acked.has (box, id) then m
  else { m with acked := m.acked.set (box, id) charge, ackedBytes := m.ackedBytes + charge }

def mailboxForgetAcked (key : String × String) : Mailbox :=
  match m.acked.get key with
  | none => m
  | some charge => { m with acked := m.acked.delete key, ackedBytes := m.ackedBytes - charge }

def mailboxForgetOrigin (key : String × String) : Mailbox :=
  match m.blobOrigin.get key with
  | none => m
  | some origin =>
    let share := m.heldBy origin.source
    let less : MailboxShare := ⟨share.files - 1, share.bytes - origin.charge⟩
    { m with
      blobOrigin := m.blobOrigin.delete key
      held := if less.files ≤ 0 then m.held.delete origin.source
        else m.held.set origin.source less }

def mailboxForgetBlob (box id : String) : Mailbox :=
  mailboxForgetOrigin (mailboxForgetAcked m (box, id)) (box, id)

def mailboxTouchBox (box : String) (now : Nat) : Mailbox :=
  { m with boxOrder := (m.boxOrder.delete box).set box now }

def mailboxForgetBox (box : String) : Mailbox :=
  { m with boxOrder := m.boxOrder.delete box }

/-- The counters at the removals that guard them against going negative. -/
def Mailbox.giveBack (charge : Int) : Mailbox :=
  { m with
    usedBytes := if charge ≤ m.usedBytes then m.usedBytes - charge else m.usedBytes
    files := if 0 < m.files then m.files - 1 else m.files }

/-- The counters at the removals that do not. -/
def Mailbox.subtract (charge : Int) : Mailbox :=
  { m with usedBytes := m.usedBytes - charge, files := m.files - 1 }

def Mailbox.oneBoxLess : Mailbox :=
  { m with boxes := if 0 < m.boxes then m.boxes - 1 else m.boxes }

end Memory

section Disk

variable (faults : Faults) (m : Mailbox) (box : String)

def Mailbox.blobAt (id : String) : Option Blob :=
  (m.disk.get box).bind fun dir => dir.blobs.get id

/-- `os.Remove` of a blob; none when it fails. -/
def Mailbox.removeBlob (id : String) : Option Mailbox :=
  match m.disk.get box with
  | none => none
  | some dir =>
    if dir.blobs.has id && !faults.file box id then
      some { m with disk := m.disk.set box { dir with blobs := dir.blobs.delete id } }
    else none

/-- `os.Remove` of a box directory, which succeeds only when it is empty. -/
def Mailbox.removeBox : Option Mailbox :=
  match m.disk.get box with
  | none => none
  | some dir =>
    if dir.blobs.size = 0 ∧ dir.acks.isNone = true ∧ faults.directory box = false then
      some { m with disk := m.disk.delete box }
    else none

def readAckIndex : AckIndex :=
  match (m.disk.get box).bind BoxDir.acks with
  | some (.written index) => index
  | _ => .empty

def acksCharge (acks : Option AckFile) : Int :=
  match acks with
  | none => 0
  | some file => mailboxCharge file.size

def writeAckIndex (index : AckIndex) : Mailbox :=
  match m.disk.get box with
  | none => m
  | some dir =>
    let oldCharge := acksCharge dir.acks
    if index.size = 0 then
      if dir.acks.isSome && !faults.file box ackIndexName then
        Mailbox.giveBack { m with disk := m.disk.set box { dir with acks := none } } oldCharge
      else m
    else
      let used := m.usedBytes + (mailboxCharge index.jsonSize - oldCharge)
      { m with
        disk := m.disk.set box { dir with acks := some (.written index) }
        files := if dir.acks.isSome then m.files else m.files + 1
        usedBytes := if used < 0 then 0 else used }

def aliveBlobs : List String :=
  match m.disk.get box with
  | none => []
  | some dir => dir.blobs.keys

def pruneAckIndex (index : AckIndex) (alive : List String) : AckIndex :=
  index.keep fun id => decide (id ∈ alive)

end Disk

section Room

def mailboxRoomPossible (m : Mailbox) (charge : Int) : Bool :=
  let needBytes := m.usedBytes + charge - mailboxGlobalMaxBytes
  let needFiles := m.files + 1 - mailboxGlobalMaxFiles
  (decide (needBytes ≤ 0) || decide (needBytes ≤ m.ackedBytes)) &&
    (decide (needFiles ≤ 0) || decide (needFiles ≤ m.acked.size))

/-- A deposit of this charge does not fit. -/
def mailboxFull (m : Mailbox) (charge : Int) : Bool :=
  decide (mailboxGlobalMaxBytes < m.usedBytes + charge) || decide (mailboxGlobalMaxFiles ≤ m.files)

/-- The device list of a removed blob goes with it. -/
def dropAcks (faults : Faults) (m : Mailbox) (box : String) (ids : List String) : Mailbox :=
  let index := readAckIndex m box
  if 0 < index.size then
    writeAckIndex faults m box (index.keep fun id => decide (id ∉ ids))
  else m

def removeEmptyBox (faults : Faults) (m : Mailbox) (box : String) : Mailbox :=
  match m.removeBox faults box with
  | none => m
  | some removed => (mailboxForgetBox removed box).oneBoxLess

/-- One blob at the front of `mailboxAcked`, and whether it was taken. -/
def takeAcked (faults : Faults) (m : Mailbox) (keepBox box id : String) : Mailbox × Bool :=
  match m.blobAt box id, m.removeBlob faults box id with
  | some blob, some removed =>
    let counted := (mailboxForgetBlob removed box id).giveBack (mailboxCharge blob.size)
    let trimmed := dropAcks faults counted box [id]
    (if box = keepBox then trimmed else removeEmptyBox faults trimmed box, true)
  | _, _ => (mailboxForgetAcked m (box, id), false)

def makeRoomLoop (faults : Faults) (charge : Int) (keepBox : String) :
    Nat → Mailbox → List String → Mailbox × List String
  | 0, m, gone => (m, gone)
  | fuel + 1, m, gone =>
    if mailboxFull m charge then
      match m.acked.entries with
      | [] => (m, gone)
      | ((box, id), _) :: _ =>
        let taken := takeAcked faults m keepBox box id
        makeRoomLoop faults charge keepBox fuel taken.1
          (if taken.2 && decide (box = keepBox) then gone ++ [id] else gone)
    else (m, gone)

/-- Each turn of the loop takes one blob off `mailboxAcked`, so it ends by itself
within that many. -/
def mailboxMakeRoom (faults : Faults) (m : Mailbox) (charge : Int) (keepBox : String) :
    Mailbox × List String :=
  makeRoomLoop faults charge keepBox m.acked.size m []

/-- `os.ReadDir` of a box, the index aside. -/
def listedBlobs (m : Mailbox) (box : String) : List (String × Blob) :=
  ((m.disk.get box).map fun dir => dir.blobs.entries).getD []

def evictBlobs (faults : Faults) (box : String) : List (String × Blob) → Mailbox → Mailbox
  | [], m => m
  | (id, blob) :: rest, m =>
    match m.removeBlob faults box id with
    | none => evictBlobs faults box rest m
    | some removed =>
      evictBlobs faults box rest
        ((mailboxForgetBlob removed box id).giveBack (mailboxCharge blob.size))

def evictAcks (faults : Faults) (m : Mailbox) (box : String) : Mailbox :=
  match m.disk.get box with
  | none => m
  | some dir =>
    match dir.acks with
    | none => m
    | some file =>
      if faults.file box ackIndexName then m
      else
        (mailboxForgetBlob { m with disk := m.disk.set box { dir with acks := none } } box
          ackIndexName).giveBack (mailboxCharge file.size)

/-- The oldest box, when nothing in it is still pending. -/
def evictOldestStaleBox (faults : Faults) (m : Mailbox) (now : Nat) : Bool × Mailbox :=
  match m.boxOrder.entries with
  | [] => (false, m)
  | (oldest, lastDeposit) :: _ =>
    if lastDeposit + mailboxTTL < now then
      let cleared := evictAcks faults (evictBlobs faults oldest (listedBlobs m oldest) m) oldest
      match cleared.disk.get oldest with
      | none => (true, (mailboxForgetBox cleared oldest).oneBoxLess)
      | some _ =>
        match cleared.removeBox faults oldest with
        | none => (false, cleared)
        | some removed => (true, (mailboxForgetBox removed oldest).oneBoxLess)
    else (false, m)

end Room

section Deposit

structure StoredBlob where
  name : String
  size : Nat
  mod : Nat
  deriving DecidableEq

/-- The order of deposit: by time, then by name. -/
def depositedFirst (left right : StoredBlob) : Bool :=
  decide (left.mod < right.mod) || (decide (left.mod = right.mod) && decide (left.name ≤ right.name))

def storedBlobs (m : Mailbox) (box : String) : List StoredBlob :=
  match m.disk.get box with
  | none => []
  | some dir =>
    (dir.blobs.entries.map fun entry => ⟨entry.1, entry.2.size, entry.2.mod⟩).mergeSort
      depositedFirst

def totalSize (stored : List StoredBlob) : Nat := (stored.map StoredBlob.size).sum

def ownsBlob (m : Mailbox) (box source : String) (blob : StoredBlob) : Bool :=
  ((m.blobOrigin.get (box, blob.name)).map MailboxOrigin.source).getD "" == source

def ownFirst (m : Mailbox) (box source : String) (stored : List StoredBlob) : List StoredBlob :=
  stored.mergeSort fun left right =>
    ownsBlob m box source left || !ownsBlob m box source right

/-- The order a full box sheds in: the source's own blobs first, when it has a share. -/
def sheddingOrder (m : Mailbox) (box source : String) : List StoredBlob :=
  if source ≠ "" then ownFirst m box source (storedBlobs m box) else storedBlobs m box

/-- A source over its share may deposit only where it sheds one of its own blobs. -/
def overShare (m : Mailbox) (box source : String) (stored : List StoredBlob) (size : Nat) : Bool :=
  let charge := mailboxCharge size
  let boxFull := decide (mailboxMaxMsgs < stored.length + 1) ||
    decide (mailboxMaxBytes < totalSize stored + size)
  let ownInBox := (stored.head?.map fun first => ownsBlob m box source first).getD false
  let share := m.heldBy source
  (decide (mailboxMaxHeldPerSource ≤ share.files) ||
      decide (mailboxMaxHeldBytesPerSource < share.bytes + charge)) && !(boxFull && ownInBox)

/-- A deposit, with the verdicts of the parts around the mailbox, the readings of
the clock and what the file system makes of it; `writtenAt` is the time it puts on
the file. -/
structure DepositArrival where
  preflight : Option Nat
  admitted : Bool
  request : Option (String × String)
  source : String
  now : Nat
  storedAt : Nat
  writtenAt : Nat
  touchedAt : Nat
  mkdirFails : Bool
  writeFails : Bool
  partialBlob : Bytes
  faults : Faults

def hexText (value : Nat) : String := String.ofList (Nat.toDigits 16 value)

def DepositArrival.id (arrival : DepositArrival) : String := hexText arrival.storedAt

/-- A full box sheds from the front of `stored`. -/
def shedOverflow (faults : Faults) (box : String) :
    List StoredBlob → Nat → Mailbox → List String → Mailbox × List String
  | [], _, m, evicted => (m, evicted)
  | oldest :: rest, total, m, evicted =>
    if mailboxMaxMsgs < rest.length + 1 + 1 ∨ mailboxMaxBytes < total then
      match m.removeBlob faults box oldest.name with
      | none => shedOverflow faults box rest total m evicted
      | some removed =>
        shedOverflow faults box rest (total - oldest.size)
          ((mailboxForgetBlob removed box oldest.name).subtract (mailboxCharge oldest.size))
          (evicted ++ [oldest.name])
    else (m, evicted)

/-- What a write that failed halfway leaves once its remains are removed. -/
def failedWrite (m : Mailbox) (box : String) (arrival : DepositArrival) : Mailbox :=
  let remains : Blob := ⟨arrival.partialBlob, arrival.writtenAt⟩
  match m.disk.get box with
  | some dir =>
    if arrival.faults.file box arrival.id then
      let kept : BoxDir := { dir with blobs := dir.blobs.set arrival.id remains }
      { m with disk := m.disk.set box kept }
    else if dir.blobs.has arrival.id then
      let kept : BoxDir := { dir with blobs := dir.blobs.delete arrival.id }
      { m with disk := m.disk.set box kept }
    else m
  | none =>
    if arrival.faults.file box arrival.id then
      let kept : BoxDir := { BoxDir.empty with blobs := OrderedMap.empty.set arrival.id remains }
      { m with disk := m.disk.set box kept }
    else if arrival.faults.directory box then { m with disk := m.disk.set box BoxDir.empty }
    else m

def storeBlob (m : Mailbox) (box : String) (blob : Bytes) (arrival : DepositArrival) : Mailbox :=
  let newBox := (m.disk.get box).isNone
  let dir := (m.disk.get box).getD BoxDir.empty
  let charge := mailboxCharge blob.length
  let written : Mailbox :=
    { m with
      disk := m.disk.set box { dir with blobs := dir.blobs.set arrival.id ⟨blob, arrival.writtenAt⟩ }
      boxes := if newBox then m.boxes + 1 else m.boxes }
  let touched := mailboxTouchBox written box arrival.touchedAt
  let counted : Mailbox :=
    { touched with files := touched.files + 1, usedBytes := touched.usedBytes + charge }
  if arrival.source ≠ "" then mailboxRecordBlob counted box arrival.id arrival.source charge
  else counted

/-- From the room made for the blob to the answer. -/
def depositWithRoom (m : Mailbox) (box : String) (blob : Bytes) (stored : List StoredBlob)
    (arrival : DepositArrival) : Nat × Mailbox :=
  if mailboxFull m (mailboxCharge blob.length) then (507, m)
  else if arrival.mkdirFails then (500, m)
  else if arrival.writeFails then (500, failedWrite m box arrival)
  else
    let shed := shedOverflow arrival.faults box stored (totalSize stored + blob.length)
      (storeBlob m box blob arrival) []
    (204, if shed.2.isEmpty then shed.1 else dropAcks arrival.faults shed.1 box shed.2)

/-- The part of `handleMailboxDeposit` from the room check on. -/
def depositInto (m : Mailbox) (box : String) (blob : Bytes) (arrival : DepositArrival) :
    Nat × Mailbox :=
  let charge := mailboxCharge blob.length
  if !mailboxRoomPossible m charge then (507, m)
  else
    let stored := sheddingOrder m box arrival.source
    if arrival.source ≠ "" ∧ overShare m box arrival.source stored blob.length = true then (429, m)
    else
      let room := mailboxMakeRoom arrival.faults m charge box
      depositWithRoom room.1 box blob (stored.filter fun found => decide (found.name ∉ room.2))
        arrival

/-- The part under the lock. -/
def depositLocked (m : Mailbox) (box : String) (blob : Bytes) (arrival : DepositArrival) :
    Nat × Mailbox :=
  if (m.disk.get box).isNone = true ∧ mailboxGlobalMaxBoxes ≤ m.boxes then
    let evicted := evictOldestStaleBox arrival.faults m arrival.now
    if evicted.1 then depositInto evicted.2 box blob arrival else (507, evicted.2)
  else depositInto m box blob arrival

/-- The checks before the lock: a status, or the box and the blob. -/
def DepositArrival.checked (arrival : DepositArrival) : Except Nat (String × Bytes) :=
  match arrival.preflight with
  | some status => .error status
  | none =>
    if !arrival.admitted then .error 429
    else
      match arrival.request with
      | none => .error 400
      | some (box, text) =>
        if !mailboxBox box then .error 400
        else
          match decodeBase64 false text.toList with
          | none => .error 400
          | some blob =>
            if blob.length = 0 ∨ mailboxMaxBlob < blob.length then .error 400
            else .ok (box, blob)

def handleMailboxDeposit (m : Mailbox) (arrival : DepositArrival) : Nat × Mailbox :=
  match arrival.checked with
  | .error status => (status, m)
  | .ok (box, blob) => depositLocked m box blob arrival

end Deposit

section Acks

/-- An ack, with the verdicts of the parts before the lock; `box` is what
`authenticateMailbox` proved, if it did. -/
structure AckArrival where
  preflight : Option Nat
  admitted : Bool
  request : Option (List String × String)
  box : Option String
  faults : Faults

/-- One id of a device's ack, for a blob that is there. -/
def ackOne (box device : String) (state : Mailbox × AckIndex) (id : String) : Mailbox × AckIndex :=
  match state.1.blobAt box id with
  | none => state
  | some blob =>
    let devices := (state.2.get id).getD []
    if device ∈ devices then state
    else
      let noted := if devices = [] then
          mailboxNoteAcked state.1 box id (mailboxCharge blob.size)
        else state.1
      let room := if mailboxMaxAckDevices ≤ devices.length then devices.drop 1 else devices
      (noted, state.2.set id (room ++ [device]))

def ackedState (m : Mailbox) (box device : String) (ids : List String) : Mailbox × AckIndex :=
  ids.foldl (ackOne box device) (m, pruneAckIndex (readAckIndex m box) (aliveBlobs m box))

def deviceAck (faults : Faults) (m : Mailbox) (box device : String) (ids : List String) : Mailbox :=
  let acked := ackedState m box device ids
  writeAckIndex faults acked.1 box acked.2

def ackRemoveOne (faults : Faults) (box : String) (m : Mailbox) (id : String) : Mailbox :=
  match m.blobAt box id, m.removeBlob faults box id with
  | some blob, some removed =>
    (mailboxForgetBlob removed box id).giveBack (mailboxCharge blob.size)
  | _, _ => m

def plainAck (faults : Faults) (m : Mailbox) (box : String) (ids : List String) : Mailbox :=
  let removed := ids.foldl (ackRemoveOne faults box) m
  removeEmptyBox faults (dropAcks faults removed box ids) box

/-- The checks before the lock: a status, or the box, the device and the ids. -/
def AckArrival.checked (arrival : AckArrival) : Except Nat (String × String × List String) :=
  match arrival.preflight with
  | some status => .error status
  | none =>
    if !arrival.admitted then .error 429
    else
      match arrival.request with
      | none => .error 400
      | some (ids, device) =>
        if device ≠ "" ∧ mailboxDevice device = false then .error 400
        else
          match arrival.box with
          | none => .error 401
          | some box =>
            if mailboxMaxAckIDs < ids.length then .error 400
            else .ok (box, device, ids.filter mailboxID)

def handleMailboxAck (m : Mailbox) (arrival : AckArrival) : Nat × Mailbox :=
  match arrival.checked with
  | .error status => (status, m)
  | .ok (box, device, validIDs) =>
    if device ≠ "" then (204, deviceAck arrival.faults m box device validIDs)
    else (204, plainAck arrival.faults m box validIDs)

structure MailboxEntry where
  id : String
  blob : Bytes
  ts : Nat

/-- What `handleMailboxCollect` returns to a device; `""` names none. -/
def handleMailboxCollect (m : Mailbox) (box device : String) : List MailboxEntry :=
  let acked := if device ≠ "" then readAckIndex m box else .empty
  match m.disk.get box with
  | none => []
  | some dir =>
    (dir.blobs.entries.filter fun entry =>
      !(decide (device ≠ "") && decide (device ∈ (acked.get entry.1).getD []))).map fun entry =>
        ⟨entry.1, entry.2.content, entry.2.mod / 1000000000⟩

end Acks

section Sweep

/-- The blobs of one box past the TTL. -/
def sweepBlobs (faults : Faults) (now : Nat) (box : String) :
    List (String × Blob) → Mailbox → List String → Mailbox × List String
  | [], m, alive => (m, alive)
  | (id, blob) :: rest, m, alive =>
    if blob.mod + mailboxTTL < now then
      match m.removeBlob faults box id with
      | none => sweepBlobs faults now box rest m alive
      | some removed =>
        sweepBlobs faults now box rest
          ((mailboxForgetBlob removed box id).subtract (mailboxCharge blob.size)) alive
    else sweepBlobs faults now box rest m (alive ++ [id])

/-- What `sweepMailboxOnce` does to one box it listed. -/
def sweepBox (faults : Faults) (now : Nat) (m : Mailbox) (box : String) : Mailbox :=
  let swept := sweepBlobs faults now box (listedBlobs m box) m []
  let index := readAckIndex swept.1 box
  let pruned := pruneAckIndex index swept.2
  let trimmed := if 0 < index.size ∧ pruned.size < index.size then
      writeAckIndex faults swept.1 box pruned
    else swept.1
  match trimmed.removeBox faults box with
  | none => trimmed
  | some removed => { mailboxForgetBox removed box with boxes := removed.boxes - 1 }

end Sweep

section Boot

def BoxDir.bytes (dir : BoxDir) : Int :=
  dir.blobs.total (fun _ blob => mailboxCharge blob.size) + acksCharge dir.acks

def BoxDir.files (dir : BoxDir) : Int :=
  dir.blobs.size + if dir.acks.isSome then 1 else 0

structure AckedOnDisk where
  box : String
  id : String
  charge : Int
  mod : Nat

/-- The blobs of a box whose device list is not empty. -/
def ackedInBox (box : String) (dir : BoxDir) : List AckedOnDisk :=
  match dir.acks with
  | some (.written index) =>
    index.entries.filterMap fun entry =>
      match dir.blobs.get entry.1 with
      | none => none
      | some blob =>
        if entry.2 = [] then none
        else some ⟨box, entry.1, mailboxCharge blob.size, blob.mod⟩
  | _ => []

def ackedEarlier (left right : AckedOnDisk) : Bool :=
  decide (left.mod < right.mod) ||
    (decide (left.mod = right.mod) && decide (left.box ++ left.id ≤ right.box ++ right.id))

def olderBox (left right : String × Nat) : Bool :=
  decide (left.2 < right.2) || (decide (left.2 = right.2) && decide (left.1 ≤ right.1))

/-- `mailboxInitUsedBytes`: the counters and lists of the files found, with the times
of their directories. -/
def mailboxInitUsedBytes (disk : MailboxDisk) (dirTime : String → Nat) : Mailbox :=
  let acked := (disk.entries.flatMap fun entry => ackedInBox entry.1 entry.2).mergeSort
    ackedEarlier
  let ages := (disk.keys.map fun box => (box, dirTime box)).mergeSort olderBox
  let counted : Mailbox :=
    { disk := disk
      usedBytes := disk.total fun _ dir => dir.bytes
      files := disk.total fun _ dir => dir.files
      boxes := disk.size
      blobOrigin := .empty
      held := .empty
      boxOrder := .collect ages
      acked := .empty
      ackedBytes := 0 }
  acked.foldl (fun m blob => mailboxNoteAcked m blob.box blob.id blob.charge) counted

end Boot

section Runs

/-- The mailbox and what happened to it: the ids its boxes have used, the mail it
accepted, and each id a device named in an ack, with those that were there. -/
structure MailboxWorld where
  mailbox : Mailbox
  clock : Nat
  ids : List (String × String)
  mail : List (String × String)
  named : List (String × String × String)
  collected : List (String × String × String)

/-- A sweep is one event for each box it listed, at the time it started. -/
inductive MailboxEvent where
  | deposit (arrival : DepositArrival)
  | ack (arrival : AckArrival)
  | sweep (faults : Faults) (now : Nat) (box : String)
  | evict (faults : Faults) (now : Nat)
  | makeRoom (faults : Faults) (charge : Int) (keepBox : String)

def MailboxEvent.faults : MailboxEvent → Faults
  | .deposit arrival => arrival.faults
  | .ack arrival => arrival.faults
  | .sweep faults _ _ => faults
  | .evict faults _ => faults
  | .makeRoom faults _ _ => faults

def depositStep (world : MailboxWorld) (arrival : DepositArrival) : MailboxWorld :=
  let handled := handleMailboxDeposit world.mailbox arrival
  match arrival.checked with
  | .error _ => { world with mailbox := handled.2, clock := arrival.touchedAt }
  | .ok (box, _) =>
    { world with
      mailbox := handled.2
      clock := arrival.touchedAt
      ids := (box, arrival.id) :: world.ids
      mail := if handled.1 = 204 then (box, arrival.id) :: world.mail else world.mail }

def ackStep (world : MailboxWorld) (arrival : AckArrival) : MailboxWorld :=
  let handled := handleMailboxAck world.mailbox arrival
  match arrival.checked with
  | .error _ => { world with mailbox := handled.2 }
  | .ok (box, device, ids) =>
    if device = "" then { world with mailbox := handled.2 }
    else
      let there := ids.filter fun id => (world.mailbox.blobAt box id).isSome
      { world with
        mailbox := handled.2
        named := ids.map (fun id => (box, device, id)) ++ world.named
        collected := there.map (fun id => (box, device, id)) ++ world.collected }

/-- An id the clock gives is new to its box. -/
def freshId (world : MailboxWorld) (arrival : DepositArrival) : Bool :=
  match arrival.checked with
  | .error _ => true
  | .ok (box, _) => decide ((box, arrival.id) ∉ world.ids)

/-- One operation; the clock does not go back and names no blob twice. -/
def mailboxStep (world : MailboxWorld) : MailboxEvent → Option MailboxWorld
  | .deposit arrival =>
    if (world.clock ≤ arrival.now ∧ arrival.now ≤ arrival.storedAt ∧
        arrival.storedAt ≤ arrival.touchedAt ∧ arrival.writtenAt ≤ arrival.touchedAt) ∧
        freshId world arrival = true then
      some (depositStep world arrival)
    else none
  | .ack arrival => some (ackStep world arrival)
  | .sweep faults now box =>
    some { world with mailbox := sweepBox faults now world.mailbox box }
  | .evict faults now =>
    if world.clock ≤ now then
      some { world with mailbox := (evictOldestStaleBox faults world.mailbox now).2, clock := now }
    else none
  | .makeRoom faults charge keepBox =>
    some { world with mailbox := (mailboxMakeRoom faults world.mailbox charge keepBox).1 }

def idsOf (disk : MailboxDisk) : List (String × String) :=
  disk.entries.flatMap fun entry =>
    (entry.2.blobs.keys.map fun id => (entry.1, id)) ++
      match entry.2.acks with
      | some (.written index) => index.keys.map fun id => (entry.1, id)
      | _ => []

def mailOf (disk : MailboxDisk) : List (String × String) :=
  disk.entries.flatMap fun entry => entry.2.blobs.keys.map fun id => (entry.1, id)

def collectedOf (disk : MailboxDisk) : List (String × String × String) :=
  disk.entries.flatMap fun entry =>
    match entry.2.acks with
    | some (.written index) =>
      index.entries.flatMap fun listed => listed.2.map fun device => (entry.1, device, listed.1)
    | _ => []

def bootWorld (disk : MailboxDisk) (dirTime : String → Nat) (clock : Nat) : MailboxWorld where
  mailbox := mailboxInitUsedBytes disk dirTime
  clock := clock
  ids := idsOf disk
  mail := mailOf disk
  named := collectedOf disk
  collected := collectedOf disk

end Runs

end AwfulChat.Relay
