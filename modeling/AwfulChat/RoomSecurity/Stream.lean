import AwfulChat.Library.Framing
import AwfulChat.RoomSecurity.ChannelCalls

/-!
# The stream below a room channel

The framing of `attachRoomStream`, once the stream has its channel: `write` puts a length
in front of the JSON text, `receive` collects chunks, and hands each whole frame to the
channel. Closing the stream and closing its channel are one thing.
-/

namespace AwfulChat.RoomSecurity

open Library Library.Framing List

set_option autoImplicit false

def LIMIT : Nat := 2 * 1024 * 1024

def frameText (frame : Json) : Bytes := Text.encodeUtf8 (Json.stringify frame)

/-- What `write` hands to the stream; it throws on an oversized frame. -/
def streamWrite (frame : Json) : Option Bytes :=
  if LIMIT < (frameText frame).length then none else some (frameOf (frameText frame))

structure RoomStream where
  buf : Bytes
  channel : RoomChannel

def RoomStream.close (stream : RoomStream) : RoomStream where
  buf := []
  channel := stream.channel.close

/-- The loop of `receive`; the fuel is the length of the buffer, every frame takes four
bytes of it or more. -/
def RoomStream.readFrames : Nat → RoomStream → RoomStream
  | 0, stream => stream
  | fuel + 1, stream =>
    match scan LIMIT stream.buf with
    | .wait => stream
    | .oversized => stream.close
    | .frame body rest =>
      match Json.parse (Text.decodeUtf8 body) with
      | none => stream.close
      | some frame =>
        if (stream.channel.receive (some frame) body.length).closed then
          { buf := [], channel := stream.channel.receive (some frame) body.length }
        else RoomStream.readFrames fuel
          { buf := rest, channel := stream.channel.receive (some frame) body.length }

def RoomStream.receive (stream : RoomStream) (chunk : Bytes) : RoomStream :=
  if stream.channel.closed then stream
  else if LIMIT + 4 < stream.buf.length + chunk.length then stream.close
  else RoomStream.readFrames (stream.buf ++ chunk).length
    { stream with buf := stream.buf ++ chunk }

/-- The lengths of the whole frames in a buffer. -/
def wholeFrames : Nat → Bytes → List Nat
  | 0, _ => []
  | fuel + 1, buffer =>
    match scan LIMIT buffer with
    | .frame body rest => body.length :: wholeFrames fuel rest
    | _ => []

/-- The queue of the channel has room for frames of these lengths. -/
def QueueFits (channel : RoomChannel) (lengths : List Nat) : Prop :=
  channel.pending.length + lengths.length ≤ 32 ∧
    channel.pendingBytes + lengths.sum ≤ 4 * MAX_ROOM_PLAINTEXT

instance decidableQueueFits (channel : RoomChannel) (lengths : List Nat) :
    Decidable (QueueFits channel lengths) := instDecidableAnd

def rowBytes (frames : List Json) : Bytes := frames.flatMap fun frame => frameOf (frameText frame)

/-- A frame that is not too long, and that its text is read back to. -/
structure Framed (frame : Json) : Prop where
  short : (frameText frame).length ≤ MAX_ROOM_PLAINTEXT
  parsed : Json.parse (Text.decodeUtf8 (frameText frame)) = some frame

def RoomChannel.enqueue (channel : RoomChannel) (frames : List Json) : RoomChannel :=
  { channel with
    pending := channel.pending ++
      frames.map fun frame => (some frame, ((frameText frame).length : Int)) }

theorem enqueue_nil (channel : RoomChannel) : channel.enqueue [] = channel := by
  simp [RoomChannel.enqueue]

theorem enqueue_enqueue (channel : RoomChannel) (first second : List Json) :
    (channel.enqueue first).enqueue second = channel.enqueue (first ++ second) := by
  simp [RoomChannel.enqueue]

theorem enqueue_pending_bytes (channel : RoomChannel) (frame : Json) :
    (channel.enqueue [frame]).pendingBytes = channel.pendingBytes + (frameText frame).length := by
  simp [RoomChannel.enqueue, RoomChannel.pendingBytes]

theorem receive_enqueues {channel : RoomChannel} {frame : Json} {lengths : List Nat}
    (running : channel.closed = false) (framed : Framed frame)
    (fits : QueueFits channel ((frameText frame).length :: lengths)) :
    channel.receive (some frame) (frameText frame).length = channel.enqueue [frame] ∧
      QueueFits (channel.enqueue [frame]) lengths := by
  obtain ⟨count, bytes⟩ := fits
  have short := framed.short
  simp only [length_cons, sum_cons] at count bytes
  constructor
  · rw [RoomChannel.receive, if_neg (by simp [running]), if_neg]
    · rfl
    · omega
  · refine ⟨?_, ?_⟩
    · simp only [RoomChannel.enqueue, length_append, length_map, length_cons,
        length_nil]
      omega
    · rw [enqueue_pending_bytes]
      omega

/-- What is left in the buffer is no whole frame. -/
def Incomplete (buffer : Bytes) (frames : List Json) : Prop :=
  buffer = [] ∨ ∃ frame rest, frames = frame :: rest ∧
    buffer.length < (frameText frame).length + 4

theorem limit_small : LIMIT < 2 ^ 32 := by decide

theorem plaintext_below_limit : MAX_ROOM_PLAINTEXT ≤ LIMIT := by decide

theorem read_row (frames : List Json) {fuel : Nat} {buffer later : Bytes} {channel : RoomChannel}
    (running : channel.closed = false) (framed : ∀ frame ∈ frames, Framed frame)
    (same : buffer ++ later = rowBytes frames) (enough : buffer.length ≤ fuel)
    (fits : QueueFits channel (wholeFrames fuel buffer)) :
    ∃ count rest, RoomStream.readFrames fuel ⟨buffer, channel⟩ =
        ⟨rest, channel.enqueue (frames.take count)⟩ ∧
      rest ++ later = rowBytes (frames.drop count) ∧ Incomplete rest (frames.drop count) := by
  induction frames generalizing fuel buffer channel with
  | nil =>
    have nothing : buffer = [] := (append_eq_nil_iff.mp same).1
    subst nothing
    refine ⟨0, [], ?_, same, Or.inl rfl⟩
    rw [take_nil, enqueue_nil]
    cases fuel with
    | zero => rfl
    | succ fuel => rfl
  | cons frame others ih =>
    have head := framed frame mem_cons_self
    cases fuel with
    | zero =>
      have nothing : buffer = [] := length_eq_zero_iff.mp (Nat.le_zero.mp enough)
      subst nothing
      exact ⟨0, [], by rw [take_zero, enqueue_nil]; rfl, same, Or.inl rfl⟩
    | succ fuel =>
      have fit : (frameText frame).length ≤ LIMIT :=
        Nat.le_trans head.short plaintext_below_limit
      have row : rowBytes (frame :: others) = frameOf (frameText frame) ++ rowBytes others := rfl
      rcases scan_front limit_small fit (same.trans row) with ⟨waits, short⟩ |
        ⟨more, found, split, remaining⟩
      · refine ⟨0, buffer, ?_, same, Or.inr ⟨frame, others, rfl, short⟩⟩
        rw [take_zero, enqueue_nil, RoomStream.readFrames]
        simp only [waits]
      · have lengths : wholeFrames (fuel + 1) buffer =
            (frameText frame).length :: wholeFrames fuel more := by
          rw [wholeFrames, found]
        rw [lengths] at fits
        obtain ⟨queued, fitsLater⟩ := receive_enqueues running head fits
        have size : more.length ≤ fuel := by
          rw [split, length_append, frame_length] at enough
          omega
        have still : (channel.enqueue [frame]).closed = false := running
        obtain ⟨count, rest, read, left, incomplete⟩ := ih still
          (fun other mem => framed other (mem_cons_of_mem _ mem)) remaining size
          fitsLater
        refine ⟨count + 1, rest, ?_, left, incomplete⟩
        rw [RoomStream.readFrames]
        simp only [found, head.parsed, queued, still, read, enqueue_enqueue]
        rfl

theorem receive_row {frames : List Json} {chunk later : Bytes} {stream : RoomStream}
    (running : stream.channel.closed = false) (framed : ∀ frame ∈ frames, Framed frame)
    (same : stream.buf ++ (chunk ++ later) = rowBytes frames)
    (incomplete : Incomplete stream.buf frames) (small : chunk.length ≤ 1024 * 1024)
    (fits : QueueFits stream.channel
      (wholeFrames (stream.buf ++ chunk).length (stream.buf ++ chunk))) :
    ∃ count rest, stream.receive chunk = ⟨rest, stream.channel.enqueue (frames.take count)⟩ ∧
      rest ++ later = rowBytes (frames.drop count) ∧ Incomplete rest (frames.drop count) := by
  have short : stream.buf.length < MAX_ROOM_PLAINTEXT + 4 := by
    rcases incomplete with nothing | ⟨frame, rest, rfl, short⟩
    · rw [nothing]
      decide
    · have bound := (framed frame mem_cons_self).short
      omega
  have room : ¬ LIMIT + 4 < stream.buf.length + chunk.length := by
    have limit : LIMIT = MAX_ROOM_PLAINTEXT + 1024 * 1024 := by decide
    omega
  rw [RoomStream.receive, if_neg (by simp [running]), if_neg room]
  exact read_row frames running framed (by rw [append_assoc]; exact same) (Nat.le_refl _) fits

end AwfulChat.RoomSecurity
