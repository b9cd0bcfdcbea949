import Mathlib.Data.List.Basic

/-!
# Writes in flight to one register

Writes were decided in one order and arrive in another. A write may leave a register as it
is. As long as no write overtakes one that writes another value, what the register will hold
once all have arrived is what it would hold had they arrived in order.
-/

namespace AwfulChat.Library

open List

set_option autoImplicit false

variable {Write Value : Type*}

def afterWrite (writes : Write → Option Value) (held : Value) (write : Write) : Value :=
  (writes write).getD held

def afterWrites (writes : Write → Option Value) (held : Value) (inFlight : List Write) : Value :=
  inFlight.foldl (afterWrite writes) held

theorem after_writes_append (writes : Write → Option Value) (held : Value)
    (first second : List Write) : afterWrites writes held (first ++ second) =
      afterWrites writes (afterWrites writes held first) second :=
  foldl_append

/-- These write no value but this one. -/
def Agree (writes : Write → Option Value) (value : Value) (inFlight : List Write) : Prop :=
  ∀ write ∈ inFlight, ∀ other ∈ writes write, other = value

theorem Agree.after_writes {writes : Write → Option Value} {value : Value} {inFlight : List Write}
    (agree : Agree writes value inFlight) : afterWrites writes value inFlight = value := by
  induction inFlight with
  | nil => rfl
  | cons write rest ih =>
    have first : afterWrite writes value write = value := by
      unfold afterWrite
      cases written : writes write with
      | none => rfl
      | some other => exact agree write mem_cons_self other written
    unfold afterWrites at ih ⊢
    rw [foldl_cons, first]
    exact ih fun later mem => agree later (mem_cons_of_mem _ mem)

theorem after_writes_overtake {writes : Write → Option Value} {write : Write}
    {before : List Write} (agree : ∀ value ∈ writes write, Agree writes value before)
    (held : Value) (behind : List Write) :
    afterWrites writes (afterWrite writes held write) (before ++ behind) =
      afterWrites writes held (before ++ write :: behind) := by
  have start : afterWrites writes (afterWrite writes held write) before =
      afterWrite writes (afterWrites writes held before) write := by
    cases written : writes write with
    | none =>
      unfold afterWrite
      rw [written]
      rfl
    | some value =>
      unfold afterWrite
      rw [written]
      exact (agree value written).after_writes
  rw [after_writes_append, after_writes_append, start]
  rfl

end AwfulChat.Library
