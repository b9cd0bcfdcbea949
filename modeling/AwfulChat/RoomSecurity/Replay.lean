import Mathlib.Data.Nat.Bitwise

/-!
# The replay window

`ReplayWindow` of `replay.ts`: the highest sequence that was accepted and one bit for
each of the sixty-four up to it. Whatever is asked of it, it accepts a sequence at
most once.
-/

namespace AwfulChat.RoomSecurity

set_option autoImplicit false

structure ReplayWindow where
  highest : Int
  bitmap : Nat
  deriving DecidableEq

def newReplayWindow : ReplayWindow where
  highest := -1
  bitmap := 0

def ReplayWindow.accept (window : ReplayWindow) (sequence : Nat) : Bool × ReplayWindow :=
  if window.highest < sequence then
    let delta := (sequence - window.highest).toNat
    (true,
      { highest := sequence
        bitmap := if 64 ≤ delta then 1
          else (window.bitmap <<< delta ||| 1) &&& (2 ^ 64 - 1) })
  else
    let distance := (window.highest - sequence).toNat
    if 64 ≤ distance then (false, window)
    else if window.bitmap &&& 2 ^ distance ≠ 0 then (false, window)
    else (true, { window with bitmap := window.bitmap ||| 2 ^ distance })

/-- Everything that was accepted lies below the window or has its bit set. -/
def ReplayWindow.Covers (window : ReplayWindow) (accepted : List Nat) : Prop :=
  ∀ sequence ∈ accepted, (sequence : Int) ≤ window.highest ∧
    (window.highest - sequence < 64 →
      window.bitmap.testBit (window.highest - sequence).toNat = true)

theorem new_replay_window_covers : newReplayWindow.Covers [] := by
  nofun

theorem and_two_pow_ne_zero (bitmap index : Nat) :
    bitmap &&& 2 ^ index ≠ 0 ↔ bitmap.testBit index = true := by
  rw [Nat.and_two_pow]
  cases bitmap.testBit index <;> simp

section

variable {window : ReplayWindow} {accepted : List Nat} {sequence : Nat}
  (covers : window.Covers accepted)
include covers

theorem accept_higher_covers (higher : window.highest < sequence) :
    (window.accept sequence).2.Covers (sequence :: accepted) := by
  rw [ReplayWindow.accept, if_pos higher]
  intro other mem
  rcases List.mem_cons.mp mem with rfl | known
  · refine ⟨by simp only; omega, ?_⟩
    intro _
    simp only [sub_self, Int.toNat_zero]
    split
    · rfl
    · simp
  · obtain ⟨below, bit⟩ := covers other known
    refine ⟨by simp only; omega, ?_⟩
    simp only
    intro near
    rw [if_neg (by omega), Nat.testBit_and, Nat.testBit_two_pow_sub_one, Nat.testBit_or,
      Nat.testBit_shiftLeft]
    have place : (sequence - other : Int).toNat - (sequence - window.highest).toNat =
        (window.highest - other).toNat := by omega
    rw [place, bit (by omega)]
    simp only [Bool.and_true, Bool.and_eq_true, Bool.or_eq_true, decide_eq_true_eq]
    exact ⟨Or.inl (by omega), by omega⟩

theorem accept_fresh (accepts : (window.accept sequence).1 = true) :
    sequence ∉ accepted ∧ (window.accept sequence).2.Covers (sequence :: accepted) := by
  by_cases higher : window.highest < sequence
  · refine ⟨?_, accept_higher_covers covers higher⟩
    intro known
    exact absurd (covers sequence known).1 (by omega)
  · rw [ReplayWindow.accept, if_neg higher] at accepts ⊢
    simp only at accepts ⊢
    split_ifs at accepts ⊢ with far taken
    rw [and_two_pow_ne_zero] at taken
    constructor
    · intro known
      exact taken ((covers sequence known).2 (by omega))
    · intro other mem
      rcases List.mem_cons.mp mem with rfl | known
      · refine ⟨by simp only; omega, ?_⟩
        intro _
        simp [Nat.testBit_or, Nat.testBit_two_pow_self]
      · obtain ⟨below, bit⟩ := covers other known
        refine ⟨below, ?_⟩
        intro near
        rw [Nat.testBit_or, bit near, Bool.true_or]

end

theorem accept_next {window : ReplayWindow} {sequence : Nat} (higher : window.highest < sequence) :
    (window.accept sequence).1 = true ∧ (window.accept sequence).2.highest = sequence := by
  rw [ReplayWindow.accept, if_pos higher]
  exact ⟨rfl, rfl⟩

end AwfulChat.RoomSecurity
