import AwfulChat.Library.Runs
import AwfulChat.Library.Totals
import AwfulChat.Relay.Registry

/-!
# The telemetry store

The stored bundles of `telemetry.go`, and the books kept beside them: the bytes and files of all
of them, and what each source holds. A bundle's file comes with a store and goes by the peer's
own quota or by age; a write may fail and leave a part of the file.
-/

namespace AwfulChat.Relay

open Library

set_option autoImplicit false

namespace Telemetry

def telemetryMaxPerPeer : Nat := 8
def telemetryGlobalMaxBytes : Int := 134217728
def telemetryGlobalMaxFiles : Int := 4096
def telemetryMaxBytesPerSource : Int := telemetryGlobalMaxBytes / 16
def telemetryMaxFilesPerSource : Int := telemetryGlobalMaxFiles / 16
def telemetryTTL : Int := 7 * 24 * 60 * minute

structure BundleFile where
  size : Nat
  mod : Int
  deriving DecidableEq

abbrev BundleId := PeerId × String

structure TelemetryShare where
  files : Int
  bytes : Int
  deriving DecidableEq

structure TelemetryOrigin where
  source : String
  size : Nat
  deriving DecidableEq

structure TelemetryStore where
  disk : OrderedMap BundleId BundleFile
  telemetryUsedBytes : Int
  telemetryFiles : Int
  telemetryBundleOrigin : OrderedMap BundleId TelemetryOrigin
  telemetryHeld : OrderedMap String TelemetryShare

inductive BundleWrite
  | written
  /-- It failed, and left this much of the file, or no file. -/
  | failed (left : Option Nat)
  deriving DecidableEq

inductive StoreStatus
  | ok
  | insufficientStorage
  | tooManyRequests
  | internalServerError
  deriving DecidableEq

def shareOf (held : OrderedMap String TelemetryShare) (source : String) : TelemetryShare :=
  (held.get source).getD ⟨0, 0⟩

def dropShare (held : OrderedMap String TelemetryShare) (source : String) (size : Nat) :
    OrderedMap String TelemetryShare :=
  if (shareOf held source).files - 1 ≤ 0 then held.delete source
  else held.set source ⟨(shareOf held source).files - 1, (shareOf held source).bytes - size⟩

def addShare (held : OrderedMap String TelemetryShare) (source : String) (size : Nat) :
    OrderedMap String TelemetryShare :=
  held.set source ⟨(shareOf held source).files + 1, (shareOf held source).bytes + size⟩

namespace TelemetryStore

def heldBy (s : TelemetryStore) (source : String) : TelemetryShare :=
  shareOf s.telemetryHeld source

def telemetryForgetBundle (s : TelemetryStore) (bundleId : BundleId) : TelemetryStore :=
  match s.telemetryBundleOrigin.get bundleId with
  | none => s
  | some origin => { s with
      telemetryBundleOrigin := s.telemetryBundleOrigin.delete bundleId
      telemetryHeld := dropShare s.telemetryHeld origin.source origin.size }

/-- A file goes, and with it its place in the books. -/
def removeBundle (s : TelemetryStore) (bundleId : BundleId) : TelemetryStore :=
  match s.disk.get bundleId with
  | none => s
  | some file =>
    let forgot := { s with disk := s.disk.delete bundleId }.telemetryForgetBundle bundleId
    { forgot with
      telemetryFiles := forgot.telemetryFiles - 1
      telemetryUsedBytes := forgot.telemetryUsedBytes - file.size }

/-- The files of a peer's directory, oldest first: their names are times. -/
def bundlesOf (s : TelemetryStore) (peerId : PeerId) : List String :=
  ((s.disk.keys.filter fun key => decide (key.1 = peerId)).map Prod.snd).mergeSort
    fun first second => decide (first ≤ second)

def evictOldest (s : TelemetryStore) (peerId : PeerId) : List String → TelemetryStore
  | [] => s
  | oldest :: files =>
    if telemetryMaxPerPeer < (oldest :: files).length then
      (s.removeBundle (peerId, oldest)).evictOldest peerId files
    else s

def recordBundle (s : TelemetryStore) (source : String) (bundleId : BundleId) (size : Nat) :
    TelemetryStore :=
  if source = "" then s
  else { s with
    telemetryBundleOrigin := s.telemetryBundleOrigin.set bundleId ⟨source, size⟩
    telemetryHeld := addShare s.telemetryHeld source size }

def storeTelemetryBundle (s : TelemetryStore) (source : String) (peerId : PeerId) (id : String)
    (size : Nat) (write : BundleWrite) (now : Int) : TelemetryStore × StoreStatus :=
  if telemetryGlobalMaxBytes < s.telemetryUsedBytes + size ∨
      telemetryGlobalMaxFiles ≤ s.telemetryFiles then (s, .insufficientStorage)
  else if source ≠ "" ∧ (telemetryMaxFilesPerSource ≤ (s.heldBy source).files ∨
      telemetryMaxBytesPerSource < (s.heldBy source).bytes + size) then (s, .tooManyRequests)
  else
    match write with
    | .failed left =>
      ({ s with disk := match left with
        | none => s.disk
        | some left => s.disk.set (peerId, id) ⟨left, now⟩ }, .internalServerError)
    | .written =>
      let stored := { s with
        disk := s.disk.set (peerId, id) ⟨size, now⟩
        telemetryFiles := s.telemetryFiles + 1
        telemetryUsedBytes := s.telemetryUsedBytes + size }.recordBundle source (peerId, id) size
      (stored.evictOldest peerId (stored.bundlesOf peerId), .ok)

def sweepEntry (cutoff : Int) (s : TelemetryStore) (entry : BundleId × BundleFile) :
    TelemetryStore :=
  if entry.2.mod < cutoff then s.removeBundle entry.1 else s

def sweepTelemetryOnce (s : TelemetryStore) (now : Int) : TelemetryStore :=
  s.disk.entries.foldl (sweepEntry (now - telemetryTTL)) s

end TelemetryStore

def telemetryInitUsedBytes (disk : OrderedMap BundleId BundleFile) : TelemetryStore where
  disk := disk
  telemetryUsedBytes := disk.total fun _ file => file.size
  telemetryFiles := disk.size
  telemetryBundleOrigin := OrderedMap.empty
  telemetryHeld := OrderedMap.empty

inductive TelemetryEvent
  | store (source : String) (peerId : PeerId) (id : String) (size : Nat) (write : BundleWrite)
      (now : Int)
  | sweep (now : Int)
  | restart

/-- No two bundles of a peer have one name. -/
def telemetryStep (s : TelemetryStore) : TelemetryEvent → Option TelemetryStore
  | .store source peerId id size write now =>
    if s.disk.has (peerId, id) then none
    else some (s.storeTelemetryBundle source peerId id size write now).1
  | .sweep now => some (s.sweepTelemetryOnce now)
  | .restart => some (telemetryInitUsedBytes s.disk)

/-- A write that fails leaves no file. -/
def Clean (_ : TelemetryStore) : TelemetryEvent → Prop
  | .store _ _ _ _ (.failed (some _)) _ => False
  | _ => True

instance (s : TelemetryStore) : ∀ event, Decidable (Clean s event)
  | .store _ _ _ _ (.failed (some _)) _ => isFalse id
  | .store _ _ _ _ (.failed none) _ | .store _ _ _ _ .written _ | .sweep _ | .restart =>
    isTrue trivial

/-! ## The books -/

def sourceFiles (source : String) (_ : BundleId) (origin : TelemetryOrigin) : Int :=
  if origin.source = source then 1 else 0

def sourceBytes (source : String) (_ : BundleId) (origin : TelemetryOrigin) : Int :=
  if origin.source = source then origin.size else 0

def peerFiles (peerId : PeerId) (key : BundleId) (_ : BundleFile) : Int :=
  if key.1 = peerId then 1 else 0

/-- The counters are those of the disk, and a source holds the bundles recorded to it. -/
structure Books (s : TelemetryStore) : Prop where
  used : s.telemetryUsedBytes = s.disk.total fun _ file => file.size
  files : s.telemetryFiles = s.disk.size
  held : ∀ source, s.heldBy source =
    ⟨s.telemetryBundleOrigin.total (sourceFiles source),
      s.telemetryBundleOrigin.total (sourceBytes source)⟩
  origins : ∀ bundleId origin, s.telemetryBundleOrigin.get bundleId = some origin →
    origin.source ≠ "" ∧ ∃ file, s.disk.get bundleId = some file ∧ file.size = origin.size

/-- What the store promises after every operation. -/
structure Accounts (s : TelemetryStore) : Prop extends Books s where
  perPeer : ∀ peerId, (s.bundlesOf peerId).length ≤ telemetryMaxPerPeer
  shareFiles : ∀ source, (s.heldBy source).files ≤ telemetryMaxFilesPerSource
  shareBytes : ∀ source, (s.heldBy source).bytes ≤ telemetryMaxBytesPerSource
  bytes : s.telemetryUsedBytes ≤ telemetryGlobalMaxBytes
  count : s.telemetryFiles ≤ telemetryGlobalMaxFiles

end Telemetry

end AwfulChat.Relay
