import AwfulChat.Library.JsText
import Mathlib.Algebra.Order.Ring.Int

/-!
# Frames with a length in front

A frame is four bytes of length, the most significant first, and then its body. A
reader that holds some front part of a row of frames finds the first of them as soon as
it is whole, and until then waits.
-/

namespace AwfulChat.Library.Framing

open List

set_option autoImplicit false

def uint32 (value : Nat) : Bytes :=
  [UInt8.ofNat (value / 16777216), UInt8.ofNat (value / 65536 % 256),
    UInt8.ofNat (value / 256 % 256), UInt8.ofNat (value % 256)]

def readUint32 : Bytes → Nat
  | first :: second :: third :: fourth :: _ =>
    first.toNat * 16777216 + second.toNat * 65536 + third.toNat * 256 + fourth.toNat
  | _ => 0

def frameOf (body : Bytes) : Bytes := uint32 body.length ++ body

inductive Scan
  | wait
  | oversized
  | frame (body rest : Bytes)
  deriving DecidableEq

/-- One turn of a reader's loop. -/
def scan (limit : Nat) (buffer : Bytes) : Scan :=
  if buffer.length < 4 then .wait
  else if limit < readUint32 buffer then .oversized
  else if buffer.length < readUint32 buffer + 4 then .wait
  else .frame ((buffer.drop 4).take (readUint32 buffer)) (buffer.drop (readUint32 buffer + 4))

theorem uint32_length (value : Nat) : (uint32 value).length = 4 := rfl

theorem frame_length (body : Bytes) : (frameOf body).length = body.length + 4 := by
  rw [frameOf, length_append, uint32_length, Nat.add_comm]

theorem read_uint32 {value : Nat} (small : value < 2 ^ 32) (rest : Bytes) :
    readUint32 (uint32 value ++ rest) = value := by
  have byte : ∀ part : Nat, part < 256 → (UInt8.ofNat part).toNat = part := by
    intro part bound
    rw [UInt8.toNat_ofNat', Nat.mod_eq_of_lt (by omega)]
  have first : value / 16777216 < 256 := by omega
  simp only [uint32, cons_append, nil_append, readUint32, byte _ first,
    byte _ (Nat.mod_lt _ (show 0 < 256 by decide))]
  omega

theorem front_of_longer {buffer later front rest : Bytes} (same : buffer ++ later = front ++ rest)
    (longer : front.length ≤ buffer.length) : ∃ more, buffer = front ++ more ∧ more ++ later = rest := by
  obtain ⟨more, split⟩ := prefix_of_prefix_length_le (prefix_append front rest)
    (same ▸ prefix_append buffer later) longer
  refine ⟨more, split.symm, ?_⟩
  rw [← split, append_assoc] at same
  exact append_cancel_left same

variable {limit : Nat}

theorem scan_front {buffer later body rest : Bytes} (bounded : limit < 2 ^ 32)
    (fits : body.length ≤ limit) (same : buffer ++ later = frameOf body ++ rest) :
    (scan limit buffer = .wait ∧ buffer.length < body.length + 4) ∨
      ∃ more, scan limit buffer = .frame body more ∧ buffer = frameOf body ++ more ∧
        more ++ later = rest := by
  by_cases short : buffer.length < 4
  · exact Or.inl ⟨if_pos short, by omega⟩
  · rw [frameOf, append_assoc] at same
    obtain ⟨begun, split, others⟩ := front_of_longer same (by rw [uint32_length]; omega)
    have length : readUint32 buffer = body.length := by
      rw [split, read_uint32 (by omega)]
    by_cases incomplete : buffer.length < body.length + 4
    · left
      rw [scan, if_neg short, length, if_neg (by omega), if_pos incomplete]
      exact ⟨rfl, incomplete⟩
    · right
      have count : buffer.length = begun.length + 4 := by
        rw [split, length_append, uint32_length, Nat.add_comm]
      obtain ⟨more, parted, remaining⟩ := front_of_longer others (by omega)
      refine ⟨more, ?_, ?_, remaining⟩
      · rw [scan, if_neg short, length, if_neg (by omega), if_neg incomplete, split, parted]
        congr 1
        · rw [drop_left' (uint32_length _), take_left' rfl]
        · rw [← append_assoc, drop_left']
          rw [length_append, uint32_length, Nat.add_comm]
      · rw [split, parted, frameOf, append_assoc]

theorem read_uint32_append {buffer : Bytes} (header : 4 ≤ buffer.length) (later : Bytes) :
    readUint32 (buffer ++ later) = readUint32 buffer := by
  match buffer, header with
  | _ :: _ :: _ :: _ :: _, _ => rfl

theorem scan_append (buffer later : Bytes) :
    (scan limit buffer = .oversized → scan limit (buffer ++ later) = .oversized) ∧
      ∀ body rest, scan limit buffer = .frame body rest →
        scan limit (buffer ++ later) = .frame body (rest ++ later) := by
  by_cases short : buffer.length < 4
  · have waits : scan limit buffer = .wait := if_pos short
    rw [waits]
    exact ⟨nofun, nofun⟩
  · have same := read_uint32_append (Nat.not_lt.mp short) later
    have longer : ¬(buffer ++ later).length < 4 := by
      rw [length_append]
      omega
    unfold scan
    rw [if_neg short, if_neg longer, same]
    by_cases past : limit < readUint32 buffer
    · rw [if_pos past, if_pos past]
      exact ⟨fun _ => rfl, nofun⟩
    · rw [if_neg past, if_neg past]
      by_cases incomplete : buffer.length < readUint32 buffer + 4
      · rw [if_pos incomplete]
        exact ⟨nofun, nofun⟩
      · have whole : ¬(buffer ++ later).length < readUint32 buffer + 4 := by
          rw [length_append]
          omega
        rw [if_neg incomplete, if_neg whole]
        refine ⟨nofun, ?_⟩
        intro body rest found
        cases found
        rw [drop_append_of_le_length (by omega), drop_append_of_le_length (by omega),
          take_append_of_le_length (by rw [length_drop]; omega)]

theorem scan_frame_shorter {buffer body rest : Bytes}
    (found : scan limit buffer = .frame body rest) :
    rest.length + body.length + 4 = buffer.length ∧ body.length ≤ limit := by
  unfold scan at found
  split at found
  · cases found
  · split at found
    · cases found
    · split at found
      · cases found
      · cases found
        rw [length_drop, length_take, length_drop]
        omega

/-- The bodies of the whole frames in front of the buffer, and what is left of it; nothing
where a header is over the limit. -/
def drain (limit : Nat) : Nat → Bytes → List Bytes × Option Bytes
  | 0, buffer => ([], some buffer)
  | fuel + 1, buffer =>
    match scan limit buffer with
    | .wait => ([], some buffer)
    | .oversized => ([], none)
    | .frame body rest => (body :: (drain limit fuel rest).1, (drain limit fuel rest).2)

theorem drain_fuel {limit fuel : Nat} {buffer : Bytes} (enough : buffer.length ≤ fuel) :
    drain limit fuel buffer = drain limit buffer.length buffer := by
  induction fuel using Nat.strongRecOn generalizing buffer with
  | ind fuel ih =>
    cases fuel with
    | zero => rw [Nat.le_zero.mp enough]
    | succ fuel =>
      cases count : buffer.length with
      | zero =>
        rw [drain, drain, scan, if_pos (by omega)]
      | succ less =>
        rw [drain, drain]
        cases found : scan limit buffer with
        | wait => rfl
        | oversized => rfl
        | frame body rest =>
          have shorter := (scan_frame_shorter found).1
          simp only
          rw [ih fuel (Nat.lt_succ_self _) (by omega),
            ih less (by omega) (by omega)]

theorem drain_append (buffer later : Bytes) :
    drain limit (buffer ++ later).length (buffer ++ later) =
      match drain limit buffer.length buffer with
      | (bodies, none) => (bodies, none)
      | (bodies, some rest) =>
        (bodies ++ (drain limit (rest ++ later).length (rest ++ later)).1,
          (drain limit (rest ++ later).length (rest ++ later)).2) := by
  generalize count : buffer.length = length
  induction length using Nat.strongRecOn generalizing buffer with
  | ind length ih =>
    cases length with
    | zero =>
      rw [length_eq_zero_iff.mp count]
      rfl
    | succ less =>
      obtain ⟨oversized, framed⟩ := @scan_append limit buffer later
      cases found : scan limit buffer with
      | wait =>
        rw [drain, found]
        rfl
      | oversized =>
        have positive : (buffer ++ later).length = less + later.length + 1 := by
          rw [length_append]
          omega
        rw [positive, drain, drain, oversized found, found]
      | frame body rest =>
        have shorter := (scan_frame_shorter found).1
        have positive : (buffer ++ later).length = less + later.length + 1 := by
          rw [length_append]
          omega
        rw [positive, drain, drain, framed body rest found, found]
        simp only
        rw [@drain_fuel limit _ (rest ++ later) (by rw [length_append]; omega),
          @drain_fuel limit less rest (by omega),
          ih rest.length (by omega) rest rfl]
        split <;> rename_i same <;> rw [same] <;> rfl

theorem drain_rest_short {limit fuel : Nat} {buffer rest : Bytes} (enough : buffer.length ≤ fuel)
    (left : (drain limit fuel buffer).2 = some rest) : rest.length < limit + 4 := by
  induction fuel generalizing buffer with
  | zero =>
    cases left
    omega
  | succ fuel ih =>
    rw [drain] at left
    cases found : scan limit buffer with
    | wait =>
      rw [found] at left
      cases left
      unfold scan at found
      split at found
      · omega
      · split at found
        · cases found
        · split at found
          · omega
          · cases found
    | oversized =>
      rw [found] at left
      cases left
    | frame body more =>
      rw [found] at left
      have shorter := (scan_frame_shorter found).1
      exact ih (by omega) left

theorem drain_frame {body : Bytes} (bounded : limit < 2 ^ 32) (fits : body.length ≤ limit) :
    (drain limit (frameOf body).length (frameOf body)).1 = [body] := by
  rcases @scan_front limit (frameOf body) [] body [] bounded fits rfl with
    ⟨_, short⟩ | ⟨more, found, same, _⟩
  · rw [frame_length] at short
    omega
  · have nothing : more = [] := by
      have length := congrArg List.length same
      rw [length_append] at length
      exact length_eq_zero_iff.mp (by omega)
    rw [frame_length body]
    show (drain limit (body.length + 2 + 1 + 1) (frameOf body)).1 = [body]
    rw [drain, found, nothing]
    simp only
    rw [drain, scan, if_pos (by decide)]

end AwfulChat.Library.Framing
