import AwfulChat.RoomSecurity.FileDescriptor
import AwfulChat.RoomSecurity.Replay

/-!
# What a replay window accepts

`accept` on any number, and over any run of calls: the bitmap is the set of what was accepted among
the sixty-four numbers up to the highest.
-/

namespace AwfulChat.RoomSecurity

open Library List Bool

set_option autoImplicit false

/-- `Number.isSafeInteger(sequence) && sequence >= 0`, with the number. -/
def sequenceNumber (sequence : JsNumber) : Option Nat :=
  ((safeInteger (some (.number sequence))).filter fun value => decide (0 ≤ value)).map Int.toNat

def ReplayWindow.acceptNumber (window : ReplayWindow) (sequence : JsNumber) :
    Bool × ReplayWindow :=
  match sequenceNumber sequence with
  | none => (false, window)
  | some number => window.accept number

/-- A window after some calls, with what it accepted, newest first. -/
def ReplayWindow.after : List JsNumber → ReplayWindow × List Nat
  | [] => (newReplayWindow, [])
  | sequence :: earlier =>
    let before := ReplayWindow.after earlier
    let answer := before.1.acceptNumber sequence
    (answer.2, if answer.1 then (sequenceNumber sequence).toList ++ before.2 else before.2)

/-- The highest accepted number, as the window starts from it. -/
def highestAccepted (accepted : List Nat) : Int :=
  accepted.foldr (fun number highest => max (number : Int) highest) (-1)

variable {accepted : List Nat} {number : Nat}

theorem le_highest_accepted (mem : number ∈ accepted) :
    (number : Int) ≤ highestAccepted accepted := by
  induction accepted with
  | nil => cases mem
  | cons head rest ih =>
    rcases mem_cons.mp mem with same | later
    · rw [same]
      exact le_max_left _ _
    · exact le_trans (ih later) (le_max_right _ _)

theorem highest_accepted_higher (higher : highestAccepted accepted < number) :
    highestAccepted (number :: accepted) = number :=
  max_eq_left (le_of_lt higher)

theorem highest_accepted_lower (lower : ¬highestAccepted accepted < number) :
    highestAccepted (number :: accepted) = highestAccepted accepted :=
  max_eq_right (not_lt.mp lower)

/-- A bit of the map stands for the number that far below the highest. -/
structure ReplayWindow.Exact (window : ReplayWindow) (accepted : List Nat) : Prop where
  highest : window.highest = highestAccepted accepted
  bits : ∀ distance, distance < 64 →
    (window.bitmap.testBit distance = true ↔
      ∃ number ∈ accepted, (number : Int) = window.highest - distance)

theorem new_replay_window_exact : newReplayWindow.Exact [] := by
  refine ⟨rfl, ?_⟩
  intro distance _
  simp [newReplayWindow]

theorem shifted_bit (bitmap delta distance : Nat) (near : distance < 64) :
    (if 64 ≤ delta then 1 else (bitmap <<< delta ||| 1) &&& (2 ^ 64 - 1)).testBit distance = true ↔
      distance = 0 ∨ delta ≤ distance ∧ bitmap.testBit (distance - delta) = true := by
  split_ifs with far
  · rw [Nat.testBit_one_eq_true_iff_self_eq_zero]
    constructor
    · intro first
      exact Or.inl first
    · rintro (first | ⟨reached, _⟩)
      · exact first
      · omega
  · rw [Nat.testBit_and, Nat.testBit_two_pow_sub_one, Nat.testBit_or, Nat.testBit_shiftLeft,
      decide_eq_true near, Bool.and_true, Bool.or_eq_true, Bool.and_eq_true, decide_eq_true_eq,
      Nat.testBit_one_eq_true_iff_self_eq_zero]
    exact or_comm

section

variable {window : ReplayWindow} (exact : window.Exact accepted)
include exact

theorem ReplayWindow.Exact.higher (higher : window.highest < number) :
    (window.accept number).1 = true ∧ (window.accept number).2.Exact (number :: accepted) := by
  rw [ReplayWindow.accept, if_pos higher]
  have above : highestAccepted accepted < number := exact.highest ▸ higher
  refine ⟨rfl, (highest_accepted_higher above).symm, ?_⟩
  intro distance near
  dsimp only
  rw [shifted_bit _ _ _ near]
  constructor
  · rintro (first | ⟨reached, bit⟩)
    · refine ⟨number, mem_cons_self, ?_⟩
      rw [first]
      simp
    · obtain ⟨other, known, place⟩ := (exact.bits _ (by omega)).mp bit
      exact ⟨other, mem_cons_of_mem _ known, by omega⟩
  · rintro ⟨other, mem, place⟩
    rcases mem_cons.mp mem with same | known
    · left
      rw [same] at place
      omega
    · right
      have below := le_highest_accepted known
      rw [← exact.highest] at below
      refine ⟨by omega, (exact.bits _ (by omega)).mpr ⟨other, known, by omega⟩⟩

theorem ReplayWindow.Exact.lower (lower : ¬window.highest < number) :
    ((window.accept number).1 = true ↔ number ∉ accepted ∧ window.highest - 64 < number) ∧
      ((window.accept number).1 = true →
        (window.accept number).2.Exact (number :: accepted)) ∧
      ((window.accept number).1 = false → (window.accept number).2 = window) := by
  rw [ReplayWindow.accept, if_neg lower]
  dsimp only
  split_ifs with far taken
  · refine ⟨⟨(by rintro ⟨⟩), ?_⟩, (by rintro ⟨⟩), fun _ => rfl⟩
    rintro ⟨_, close⟩
    omega
  · rw [and_two_pow_ne_zero] at taken
    refine ⟨⟨(by rintro ⟨⟩), ?_⟩, (by rintro ⟨⟩), fun _ => rfl⟩
    rintro ⟨fresh, _⟩
    obtain ⟨other, known, place⟩ := (exact.bits _ (by omega)).mp taken
    have same : other = number := by omega
    exact absurd (same ▸ known) fresh
  · rw [and_two_pow_ne_zero] at taken
    have fresh : number ∉ accepted := by
      intro known
      exact taken ((exact.bits _ (by omega)).mpr ⟨number, known, by omega⟩)
    refine ⟨⟨fun _ => ⟨fresh, by omega⟩, fun _ => rfl⟩, fun _ => ⟨?_, ?_⟩, (by rintro ⟨⟩)⟩
    · rw [highest_accepted_lower (exact.highest ▸ lower)]
      exact exact.highest
    · intro distance near
      dsimp only
      rw [Nat.testBit_or, Bool.or_eq_true, Nat.testBit_two_pow, decide_eq_true_eq,
        exact.bits distance near]
      constructor
      · rintro (⟨other, known, place⟩ | same)
        · exact ⟨other, mem_cons_of_mem _ known, place⟩
        · exact ⟨number, mem_cons_self, by omega⟩
      · rintro ⟨other, mem, place⟩
        rcases mem_cons.mp mem with same | known
        · right
          rw [same] at place
          omega
        · exact Or.inl ⟨other, known, place⟩

theorem ReplayWindow.Exact.accept (number : Nat) :
    ((window.accept number).1 = true ↔
        number ∉ accepted ∧ highestAccepted accepted - 64 < number) ∧
      ((window.accept number).1 = true →
        (window.accept number).2.Exact (number :: accepted)) ∧
      ((window.accept number).1 = false → (window.accept number).2 = window) := by
  rw [← exact.highest]
  by_cases higher : window.highest < number
  · obtain ⟨accepts, next⟩ := exact.higher higher
    refine ⟨⟨fun _ => ⟨?_, by omega⟩, fun _ => accepts⟩, fun _ => next, ?_⟩
    · intro known
      have below := le_highest_accepted known
      rw [← exact.highest] at below
      omega
    · rw [accepts]
      nofun
  · exact exact.lower higher

end

theorem after_exact (calls : List JsNumber) :
    (ReplayWindow.after calls).1.Exact (ReplayWindow.after calls).2 := by
  induction calls with
  | nil => exact new_replay_window_exact
  | cons sequence earlier exact =>
    unfold ReplayWindow.after ReplayWindow.acceptNumber
    dsimp only
    cases sequenceNumber sequence with
    | none => exact exact
    | some number =>
      obtain ⟨_, taken, refused⟩ := exact.accept number
      dsimp only
      cases answer : ((ReplayWindow.after earlier).1.accept number).1 with
      | true => exact taken answer
      | false =>
        rw [refused answer]
        exact exact

/-- Whatever was asked of a window before, it accepts the safe non-negative integers that it has
not accepted and that lie above the highest accepted number minus sixty-four. -/
theorem accepts_iff_fresh_in_window (calls : List JsNumber) (sequence : JsNumber) :
    ((ReplayWindow.after calls).1.acceptNumber sequence).1 = true ↔
      ∃ number, sequenceNumber sequence = some number ∧
        number ∉ (ReplayWindow.after calls).2 ∧
          highestAccepted (ReplayWindow.after calls).2 - 64 < number := by
  unfold ReplayWindow.acceptNumber
  cases sequenceNumber sequence with
  | none =>
    refine ⟨nofun, ?_⟩
    rintro ⟨number, same, _⟩
    cases same
  | some number =>
    refine ((after_exact calls).accept number).1.trans ⟨fun both => ⟨number, rfl, both⟩, ?_⟩
    rintro ⟨other, same, both⟩
    cases same
    exact both

end AwfulChat.RoomSecurity
