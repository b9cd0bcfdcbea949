import AwfulChat.Library.OrderedMap
import AwfulChat.Sfu.Slots

/-!
# Routers of the SFU

The map from rooms to their routers holds the promises of `createRouter`, and a room that empties
leaves a close to be run once its promise is there. A router goes by the number of the call that
makes it.
-/

namespace AwfulChat.Sfu

open Library

set_option autoImplicit false

abbrev RouterId := Nat

structure Config where
  MAX_ROOMS : Nat
  RESUME_GRACE_MS : Nat
  TRANSPORT_CONNECT_TIMEOUT_MS : Nat
  deriving DecidableEq

inductive Creation
  | pending | ready | failed
  deriving DecidableEq

structure Router where
  roomCode : RoomCode
  creation : Creation
  closed : Bool
  deriving DecidableEq

structure Routers where
  routers : OrderedMap RoomCode RouterId
  made : RouterId → Router
  /-- What `handlePeerLeft` chained to a promise, for the room it emptied. -/
  closing : List (RoomCode × RouterId)
  next : RouterId

namespace Routers

def start : Routers := ⟨OrderedMap.empty, fun _ => ⟨"", .pending, false⟩, [], 0⟩

/-- Nothing comes of it at the room ceiling. -/
def getOrCreateRouter (config : Config) (routers : Routers) (roomCode : RoomCode) :
    Option (Routers × RouterId) :=
  match routers.routers.get roomCode with
  | some existing => some (routers, existing)
  | none =>
    if config.MAX_ROOMS ≤ routers.routers.size then none
    else
      let router := routers.next
      some ({ routers with
        routers := routers.routers.set roomCode router
        made := Function.update routers.made router ⟨roomCode, .pending, false⟩
        next := router + 1 }, router)

def created (routers : Routers) (router : RouterId) : Routers :=
  { routers with
    made := Function.update routers.made router
      { routers.made router with creation := .ready } }

/-- A failed creation is not kept, and what is chained to it is not run. -/
def rejected (routers : Routers) (router : RouterId) : Routers :=
  let roomCode := (routers.made router).roomCode
  { routers with
    made := Function.update routers.made router
      { routers.made router with creation := .failed }
    routers :=
      if routers.routers.get roomCode = some router then routers.routers.delete roomCode
      else routers.routers
    closing := routers.closing.filter fun close => decide (close.2 ≠ router) }

def emptied (routers : Routers) (roomCode : RoomCode) : Routers :=
  match routers.routers.get roomCode with
  | none => routers
  | some router => { routers with closing := routers.closing ++ [(roomCode, router)] }

def close (routers : Routers) (roomCode : RoomCode) (router : RouterId) : Routers :=
  { routers with
    made := Function.update routers.made router { routers.made router with closed := true }
    routers := routers.routers.delete roomCode
    closing := routers.closing.erase (roomCode, router) }

end Routers

end AwfulChat.Sfu
