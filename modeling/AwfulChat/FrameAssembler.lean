import AwfulChat.Library.Framing

/-!
# Frames out of a stream's chunks

`FrameAssembler` of `frame-assembler.ts` holds the chunks of a stream as they came and copies a
frame out once all of it is there. What it returns is compared with the frames of the bytes put
together.
-/

namespace AwfulChat.FrameAssembler

open Library Library.Framing List

set_option autoImplicit false

structure FrameAssembler where
  chunks : List Bytes
  held : Nat
  deriving DecidableEq

inductive Pushed
  | frames (frames : List Bytes) (after : FrameAssembler)
  | tooLarge (bytes : Nat)
  | outOfChunks
  deriving DecidableEq

def fillHeader : Bytes → List Bytes → Bytes
  | header, [] => header ++ List.replicate (4 - header.length) 0
  | header, chunk :: rest =>
    if (header ++ chunk.take (4 - header.length)).length = 4 then
      header ++ chunk.take (4 - header.length)
    else fillHeader (header ++ chunk.take (4 - header.length)) rest

def peekLength (chunks : List Bytes) : Nat := readUint32 (fillHeader [] chunks)

/-- The first bytes of the chunks, and the chunks that are left. None is a read past the last
chunk. -/
def take : Nat → List Bytes → Option (Bytes × List Bytes)
  | 0, chunks => some ([], chunks)
  | _ + 1, [] => none
  | n + 1, chunk :: rest =>
    if min (n + 1) chunk.length = chunk.length then
      (take (n + 1 - chunk.length) rest).map fun taken => (chunk ++ taken.1, taken.2)
    else some (chunk.take (n + 1), chunk.drop (n + 1) :: rest)

section Push

variable (maxFrameBytes : Nat)

/-- The loop of `push`; a turn takes four bytes or more. -/
def completed : Nat → FrameAssembler → List Bytes → Pushed
  | 0, assembler, frames => .frames frames assembler
  | fuel + 1, assembler, frames =>
    if assembler.held < 4 then .frames frames assembler
    else if maxFrameBytes < peekLength assembler.chunks then
      .tooLarge (peekLength assembler.chunks)
    else if assembler.held < 4 + peekLength assembler.chunks then .frames frames assembler
    else match take (4 + peekLength assembler.chunks) assembler.chunks with
      | none => .outOfChunks
      | some taken =>
        completed fuel ⟨taken.2, assembler.held - (4 + peekLength assembler.chunks)⟩
          (frames ++ [taken.1.drop 4])

def push (assembler : FrameAssembler) (chunk : Bytes) : Pushed :=
  let next : FrameAssembler :=
    if 0 < chunk.length then ⟨assembler.chunks ++ [chunk], assembler.held + chunk.length⟩
    else assembler
  completed maxFrameBytes (next.held + 1) next []

inductive Ending
  | waiting (assembler : FrameAssembler)
  | tooLarge
  | outOfChunks
  deriving DecidableEq

/-- The frames returned for chunks pushed in order until one push throws. -/
def pushAll : FrameAssembler → List Bytes → List Bytes × Ending
  | assembler, [] => ([], .waiting assembler)
  | assembler, chunk :: rest =>
    match push maxFrameBytes assembler chunk with
    | .frames frames after => (frames ++ (pushAll after rest).1, (pushAll after rest).2)
    | .tooLarge _ => ([], .tooLarge)
    | .outOfChunks => ([], .outOfChunks)

/-- What a new assembler returns. -/
def received (chunks : List Bytes) : List Bytes × Ending := pushAll maxFrameBytes ⟨[], 0⟩ chunks

/-- The frames of the bytes up to the first header over the limit, and what is left; none where
there is such a header. -/
def framesOf (bytes : Bytes) : List Bytes × Option Bytes := drain maxFrameBytes bytes.length bytes

/-- No chunk both ends a frame and completes a header over the limit. -/
def apart : Bytes → List Bytes → Bool
  | _, [] => true
  | held, chunk :: rest =>
    match framesOf maxFrameBytes (held ++ chunk) with
    | (frames, none) => frames.isEmpty
    | (_, some left) => apart left rest

structure Holds (assembler : FrameAssembler) (bytes : Bytes) : Prop where
  flatten : assembler.chunks.flatten = bytes
  held : assembler.held = bytes.length

/-- Of two splits of the same bytes: the same frames, those of the bytes; a throw exactly where the
bytes have a header over the limit; and held bytes that are those of the held chunks. -/
structure Agree (left right : List Bytes) : Prop where
  same : (received maxFrameBytes left).1 = (received maxFrameBytes right).1
  frames : (received maxFrameBytes left).1 = (framesOf maxFrameBytes left.flatten).1
  throws : ∀ split ∈ [left, right], (received maxFrameBytes split).2 = .tooLarge ↔
    (framesOf maxFrameBytes left.flatten).2 = none
  inside : ∀ split ∈ [left, right], (received maxFrameBytes split).2 ≠ .outOfChunks
  held : ∀ split ∈ [left, right], ∀ after, (received maxFrameBytes split).2 = .waiting after →
    after.held = (after.chunks.map List.length).sum

variable {maxFrameBytes : Nat} {assembler : FrameAssembler} {bytes : Bytes}

theorem fill_header_eq {header : Bytes} {chunks : List Bytes} (short : header.length < 4)
    (enough : 4 ≤ (header ++ chunks.flatten).length) :
    fillHeader header chunks = (header ++ chunks.flatten).take 4 := by
  induction chunks generalizing header with
  | nil =>
    rw [flatten_nil, append_nil] at enough
    omega
  | cons chunk rest ih =>
    rw [flatten_cons, ← append_assoc] at enough ⊢
    unfold fillHeader
    split_ifs with full
    · have reached : 4 - header.length ≤ chunk.length := by
        rw [length_append, length_take] at full
        omega
      have enoughHere : 4 ≤ (header ++ chunk).length := by
        rw [length_append]
        omega
      rw [take_append_of_le_length enoughHere, take_append,
        take_of_length_le (Nat.le_of_lt short)]
    · have whole : chunk.take (4 - header.length) = chunk := by
        refine take_of_length_le ?_
        rw [length_append, length_take] at full
        omega
      rw [whole] at full ⊢
      refine ih ?_ enough
      rw [length_append] at full ⊢
      rw [← whole, length_take] at full
      rw [← whole, length_take]
      omega

theorem peek_length_eq {chunks : List Bytes} (enough : 4 ≤ chunks.flatten.length) :
    peekLength chunks = readUint32 chunks.flatten := by
  unfold peekLength
  rw [fill_header_eq (by decide) (by simpa using enough), nil_append]
  have four : 4 ≤ (chunks.flatten.take 4).length := by
    rw [length_take]
    omega
  have split := read_uint32_append four (chunks.flatten.drop 4)
  rw [take_append_drop] at split
  exact split.symm

theorem take_eq {n : Nat} {chunks : List Bytes} (enough : n ≤ chunks.flatten.length) :
    ∃ left, take n chunks = some (chunks.flatten.take n, left) ∧
      left.flatten = chunks.flatten.drop n := by
  induction chunks generalizing n with
  | nil =>
    obtain rfl : n = 0 := Nat.le_zero.mp enough
    exact ⟨[], rfl, rfl⟩
  | cons chunk rest ih =>
    cases n with
    | zero => exact ⟨chunk :: rest, rfl, rfl⟩
    | succ n =>
      rw [flatten_cons] at enough ⊢
      unfold take
      split_ifs with whole
      · have shorter : chunk.length ≤ n + 1 := by omega
        rw [length_append] at enough
        obtain ⟨left, found, same⟩ := @ih (n + 1 - chunk.length) (by omega)
        refine ⟨left, ?_, ?_⟩
        · rw [found, Option.map_some, take_append, take_of_length_le shorter]
        · rw [same, drop_append, drop_of_length_le shorter, nil_append]
      · have longer : n + 1 < chunk.length := by omega
        refine ⟨chunk.drop (n + 1) :: rest, ?_, ?_⟩
        · rw [take_append_of_le_length (Nat.le_of_lt longer)]
        · rw [flatten_cons, drop_append_of_le_length (Nat.le_of_lt longer)]

theorem completed_eq {fuel : Nat} (holds : Holds assembler bytes) (frames : List Bytes) :
    match drain maxFrameBytes fuel bytes with
    | (bodies, some rest) => ∃ after, Holds after rest ∧
        completed maxFrameBytes fuel assembler frames = .frames (frames ++ bodies) after
    | (_, none) => ∃ length, completed maxFrameBytes fuel assembler frames = .tooLarge length := by
  induction fuel generalizing assembler bytes frames with
  | zero => exact ⟨assembler, holds, by rw [append_nil]; rfl⟩
  | succ fuel ih =>
    unfold drain scan completed
    rw [holds.held]
    by_cases short : bytes.length < 4
    · rw [if_pos short, if_pos short]
      exact ⟨assembler, holds, by rw [append_nil]⟩
    rw [if_neg short, if_neg short, peek_length_eq (by rw [holds.flatten]; omega), holds.flatten]
    by_cases past : maxFrameBytes < readUint32 bytes
    · rw [if_pos past, if_pos past]
      exact ⟨_, rfl⟩
    rw [if_neg past, if_neg past, Nat.add_comm 4]
    by_cases cut : bytes.length < readUint32 bytes + 4
    · rw [if_pos cut, if_pos cut]
      exact ⟨assembler, holds, by rw [append_nil]⟩
    rw [if_neg cut, if_neg cut]
    obtain ⟨left, found, same⟩ := @take_eq (readUint32 bytes + 4) assembler.chunks
      (by rw [holds.flatten]; omega)
    rw [holds.flatten] at found same
    rw [found]
    dsimp only
    have next : Holds ⟨left, bytes.length - (readUint32 bytes + 4)⟩
        (bytes.drop (readUint32 bytes + 4)) := ⟨same, (length_drop).symm⟩
    have body : (bytes.take (readUint32 bytes + 4)).drop 4 =
        (bytes.drop 4).take (readUint32 bytes) := by
      rw [drop_take, Nat.add_sub_cancel]
    have later := ih next (frames ++ [(bytes.take (readUint32 bytes + 4)).drop 4])
    rw [body] at later ⊢
    split at later
    · rename_i bodies rest drained
      obtain ⟨after, kept, ends⟩ := later
      rw [drained]
      exact ⟨after, kept, by rw [ends, append_assoc, singleton_append]⟩
    · rename_i bodies drained
      rw [drained]
      exact later

theorem push_eq (holds : Holds assembler bytes) (chunk : Bytes) :
    match framesOf maxFrameBytes (bytes ++ chunk) with
    | (bodies, some rest) => ∃ after, Holds after rest ∧
        push maxFrameBytes assembler chunk = .frames bodies after
    | (_, none) => ∃ length, push maxFrameBytes assembler chunk = .tooLarge length := by
  have next : Holds (if 0 < chunk.length then
      ⟨assembler.chunks ++ [chunk], assembler.held + chunk.length⟩ else assembler)
      (bytes ++ chunk) := by
    split_ifs with filled
    · exact ⟨by simp [holds.flatten], by simp [holds.held]⟩
    · rw [length_eq_zero_iff.mp (Nat.eq_zero_of_not_pos filled), append_nil]
      exact holds
  have ends := @completed_eq maxFrameBytes _ _ ((bytes ++ chunk).length + 1) next []
  rw [drain_fuel (Nat.le_succ _), ← next.held] at ends
  unfold framesOf push
  rw [← next.held]
  simpa only [nil_append] using ends

theorem frames_of_left {frames : List Bytes} {rest : Bytes}
    (cut : framesOf maxFrameBytes bytes = (frames, some rest)) :
    framesOf maxFrameBytes rest = ([], some rest) := by
  have whole := @drain_append maxFrameBytes bytes []
  unfold framesOf at cut ⊢
  rw [cut] at whole
  simp only [append_nil, cut, Prod.mk.injEq, self_eq_append_right] at whole
  exact Prod.ext whole.1 whole.2.symm

theorem push_all_eq {chunks : List Bytes} (holds : Holds assembler bytes)
    (idle : framesOf maxFrameBytes bytes = ([], some bytes)) :
    ((pushAll maxFrameBytes assembler chunks).1 =
        (framesOf maxFrameBytes (bytes ++ chunks.flatten)).1 ↔
      apart maxFrameBytes bytes chunks = true) ∧
    match (framesOf maxFrameBytes (bytes ++ chunks.flatten)).2 with
    | none => (pushAll maxFrameBytes assembler chunks).2 = .tooLarge
    | some rest => ∃ after, Holds after rest ∧
        (pushAll maxFrameBytes assembler chunks).2 = .waiting after := by
  induction chunks generalizing assembler bytes with
  | nil =>
    rw [flatten_nil, append_nil, idle]
    exact ⟨⟨fun _ => rfl, fun _ => rfl⟩, assembler, holds, rfl⟩
  | cons chunk rest ih =>
    have pushed := @push_eq maxFrameBytes _ _ holds chunk
    have whole : framesOf maxFrameBytes (bytes ++ (chunk ++ rest.flatten)) =
        match framesOf maxFrameBytes (bytes ++ chunk) with
        | (bodies, none) => (bodies, none)
        | (bodies, some left) => (bodies ++ (framesOf maxFrameBytes (left ++ rest.flatten)).1,
            (framesOf maxFrameBytes (left ++ rest.flatten)).2) := by
      rw [← append_assoc]
      exact drain_append _ _
    rw [flatten_cons, whole]
    unfold pushAll apart
    cases cut : framesOf maxFrameBytes (bytes ++ chunk) with
    | mk bodies left =>
      rw [cut] at pushed
      cases left with
      | none =>
        obtain ⟨length, thrown⟩ := pushed
        rw [thrown]
        exact ⟨eq_comm.trans isEmpty_iff.symm, rfl⟩
      | some left =>
        obtain ⟨after, kept, returned⟩ := pushed
        rw [returned]
        obtain ⟨frames, ending⟩ := ih kept (frames_of_left cut)
        exact ⟨(append_right_inj bodies).trans frames, ending⟩

/-- The frames of two splits of the same bytes agree exactly when in neither a chunk both ends a
frame and completes a header over the limit. -/
theorem splits_agree_iff {left right : List Bytes} (same : right.flatten = left.flatten) :
    Agree maxFrameBytes left right ↔
      apart maxFrameBytes [] left = true ∧ apart maxFrameBytes [] right = true := by
  have empty : Holds ⟨[], 0⟩ [] := ⟨rfl, rfl⟩
  have idle : framesOf maxFrameBytes [] = ([], some []) := rfl
  obtain ⟨leftFrames, leftEnds⟩ := @push_all_eq maxFrameBytes _ _ left empty idle
  obtain ⟨rightFrames, rightEnds⟩ := @push_all_eq maxFrameBytes _ _ right empty idle
  rw [nil_append] at leftFrames leftEnds rightFrames rightEnds
  rw [same] at rightFrames rightEnds
  constructor
  · intro agree
    exact ⟨leftFrames.mp agree.frames, rightFrames.mp (agree.same.symm.trans agree.frames)⟩
  · rintro ⟨leftApart, rightApart⟩
    have ends : ∀ split ∈ [left, right],
        match (framesOf maxFrameBytes left.flatten).2 with
        | none => (received maxFrameBytes split).2 = .tooLarge
        | some rest => ∃ after, Holds after rest ∧
            (received maxFrameBytes split).2 = .waiting after := by
      intro split mem
      rcases mem_pair.mp mem with rfl | rfl
      · exact leftEnds
      · exact rightEnds
    refine ⟨?_, leftFrames.mpr leftApart, ?_, ?_, ?_⟩
    · exact (leftFrames.mpr leftApart).trans (rightFrames.mpr rightApart).symm
    all_goals
      intro split mem
      have ending := ends split mem
      cases cut : (framesOf maxFrameBytes left.flatten).2 with
      | none =>
        rw [cut] at ending
        simp [ending]
      | some rest =>
        rw [cut] at ending
        obtain ⟨after, kept, waits⟩ := ending
        simp [waits, kept.held, ← kept.flatten, length_flatten]

theorem one_push_loses_frame :
    received 1 [[0, 0, 0, 1, 7], [0, 0, 0, 2]] = ([[7]], .tooLarge) ∧
      received 1 [[0, 0, 0, 1, 7, 0, 0, 0, 2]] = ([], .tooLarge) := by
  decide

theorem sample_splits_agree : Agree 1 [[0, 0], [0, 1, 7, 0]] [[], [0, 0, 0, 1, 7], [0]] := by
  refine (splits_agree_iff (by decide)).mpr ⟨?_, ?_⟩ <;> decide

end Push

end AwfulChat.FrameAssembler
