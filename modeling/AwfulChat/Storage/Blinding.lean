import Mathlib.Logic.Function.Basic
import Mathlib.Tactic.Common

/-!
# Blind indexes

`blindValue` of `storage-crypto.ts`. A blinded value carries a mark that no room
code, DID, peer id or infohash starts with, and is otherwise a keyed hash, taken
here to be injective: two values that collide could not be told apart by any
lookup of the store.
-/

namespace AwfulChat.Storage

set_option autoImplicit false

def blindMark : String := "b1:"

def isBlinded (value : String) : Bool := decide (value.toList.take 3 = blindMark.toList)

/-- The keyed hash of one identity. -/
structure IndexKey where
  mac : String → String
  injective : Function.Injective mac

def blindValue (key : IndexKey) (value : String) : String :=
  if isBlinded value then value else blindMark ++ key.mac value

/-- A value of the application: a room code, a DID, a peer id, an infohash. -/
structure Plain where
  value : String
  plain : isBlinded value = false
  deriving DecidableEq

def Plain.blind (key : IndexKey) (name : Plain) : String := blindValue key name.value

variable (key : IndexKey)

theorem blind_eq (name : Plain) :
    name.blind key = blindMark ++ key.mac name.value := by
  simp [Plain.blind, blindValue, name.plain]

theorem is_blinded_blind (name : Plain) : isBlinded (name.blind key) = true := by
  rw [blind_eq]
  simp [isBlinded, blindMark, String.toList_append]

theorem blind_injective : Function.Injective (Plain.blind key) := by
  intro left right same
  rw [blind_eq, blind_eq] at same
  have hashes : key.mac left.value = key.mac right.value := by
    have lists := congrArg String.toList same
    rw [String.toList_append, String.toList_append] at lists
    exact String.toList_inj.mp (List.append_cancel_left lists)
  have values := key.injective hashes
  cases left
  cases right
  cases values
  rfl

@[simp] theorem blind_inj (left right : Plain) :
    left.blind key = right.blind key ↔ left = right :=
  (blind_injective key).eq_iff

@[simp] theorem blind_ne_value (left right : Plain) :
    left.blind key ≠ right.value := by
  intro same
  have blinded := is_blinded_blind key left
  rw [same, right.plain] at blinded
  cases blinded

@[simp] theorem value_ne_blind (left right : Plain) :
    left.value ≠ right.blind key :=
  fun same => blind_ne_value key right left same.symm

theorem plain_value_inj (left right : Plain) : left.value = right.value ↔ left = right := by
  constructor
  · intro same
    cases left
    cases right
    cases same
    rfl
  · intro same
    rw [same]

section Names

def plainKey : IndexKey := ⟨id, Function.injective_id⟩
def den : Plain := ⟨"den", by decide⟩
def alice : Plain := ⟨"alice", by decide⟩

end Names

end AwfulChat.Storage
