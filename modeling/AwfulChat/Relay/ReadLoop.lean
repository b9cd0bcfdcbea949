import AwfulChat.Library.Framing
import AwfulChat.Relay.RoomViews

/-!
# The rendezvous read loop

`readLoop` of `main.go` puts the frames of a stream together from whatever reads it gets and
dispatches one after the other. `json.Unmarshal` is left open, and so is what the other
streams do to the registry between two frames. The answers are encoded as `json.Marshal`
encodes them, a server frame's peers included.
-/

namespace AwfulChat.Relay

open Library List
open Library.Framing

set_option autoImplicit false

def maxMsgLen : Nat := 8192
def maxRoomIDLen : Nat := 128
def maxStreamLogLines : Nat := 8
def maxMembershipOps : Nat := 2 * maxRoomsPerPeer
def membershipOpWindow : Int := minute
def readSize : Nat := 4096

def textLen (chars : List Char) : Nat := (chars.map Char.utf8Size).sum

def hexLetter (value : Nat) : Char := if value < 10 then Char.ofNat (48 + value) else Char.ofNat (87 + value)

/-- A character in a JSON string, as `json.Marshal` writes it: what HTML gives a meaning and the
line separators are escaped too. -/
def escapeChar (char : Char) : List Char :=
  let code := char.toNat
  if code = 34 ∨ code = 92 then [Char.ofNat 92, char]
  else if code = 8 then [Char.ofNat 92, 'b']
  else if code = 12 then [Char.ofNat 92, 'f']
  else if code = 10 then [Char.ofNat 92, 'n']
  else if code = 13 then [Char.ofNat 92, 'r']
  else if code = 9 then [Char.ofNat 92, 't']
  else if code < 32 ∨ code = 38 ∨ code = 60 ∨ code = 62 then
    [Char.ofNat 92, 'u', '0', '0', hexLetter (code / 16), hexLetter (code % 16)]
  else if code = 8232 ∨ code = 8233 then
    [Char.ofNat 92, 'u', '2', '0', '2', hexLetter (code % 16)]
  else [char]

def quote (value : String) : List Char :=
  '"' :: value.toList.flatMap escapeChar ++ ['"']

def quoteAll : List String → List Char
  | [] => []
  | [value] => quote value
  | value :: rest => quote value ++ ',' :: quoteAll rest

namespace ServerMsg

def typeName : ServerMsg → String
  | .peers _ _ => "PEERS"
  | .peerJoined _ _ => "PEER_JOINED"
  | .peerLeft _ _ => "PEER_LEFT"
  | .registerFailed _ => "REGISTER_FAILED"
  | .pong => "PONG"

def peersJson : ServerMsg → List Char
  | .peers _ ids => '[' :: quoteAll ids ++ [']']
  | _ => "null".toList

def peerJson : ServerMsg → List Char
  | .peerJoined _ peer => if peer = "" then [] else ",\"peer\":".toList ++ quote peer
  | .peerLeft _ peer => if peer = "" then [] else ",\"peer\":".toList ++ quote peer
  | _ => []

/-- `json.Marshal` of a `serverMsg`. -/
def marshal (msg : ServerMsg) : List Char :=
  "\x7b\"type\":".toList ++ quote msg.typeName ++ ",\"room\":".toList ++ quote (msg.room.getD "") ++
    ",\"peers\":".toList ++ msg.peersJson ++ msg.peerJson ++ "\x7d".toList

end ServerMsg

structure ClientMsg where
  type : String
  room : Room
  deriving DecidableEq

def validRoom (room : Room) : Bool :=
  !(decide (room = "") || decide (maxRoomIDLen < textLen room.toList)) &&
    room.toList.all fun char => decide (32 ≤ char.toNat ∧ char.toNat ≠ 127)

def OpBudget.allow (budget : OpBudget) (now : Int) : Bool × OpBudget :=
  if 0 < (budget.refill now).left then (true, (budget.refill now).spend)
  else (false, budget.refill now)

inductive LogLine
  /-- One that the stream's budget allowed. -/
  | complaint
  | usedUp
  /-- An outbound frame over the limit, which `sendTo` drops. -/
  | bug
  deriving DecidableEq

structure ReadSite where
  stream : StreamId
  unmarshal : Bytes → Option ClientMsg
  /-- The registry and the clock at the n-th frame. -/
  world : Nat → Registry × Int

/-- What the loop keeps from frame to frame, what it handed to `sendTo` and what it logged. -/
structure LoopState where
  left : Nat
  membershipOps : OpBudget
  registered : Bool
  count : Nat
  caused : Sends
  lines : List LogLine
  deriving DecidableEq

structure Handled where
  membershipOps : OpBudget
  registered : Bool
  complaint : Bool
  sends : Sends

namespace LoopState

def start : LoopState :=
  ⟨maxStreamLogLines, newOpBudget maxMembershipOps membershipOpWindow, false, 0, [], []⟩

def warn (loop : LoopState) : LoopState :=
  if loop.left = 0 then loop
  else { loop with
    left := loop.left - 1
    lines := loop.lines ++ .complaint :: if loop.left - 1 = 0 then [.usedUp] else [] }

end LoopState

def bugLines (sends : Sends) : List LogLine :=
  (sends.filter fun frame => decide (maxMsgLen < textLen frame.2.marshal)).map fun _ => .bug

/-- The dispatch of one frame. -/
def handle (site : ReadSite) (loop : LoopState) (payload : Bytes) : Handled :=
  match site.unmarshal payload with
  | none => ⟨loop.membershipOps, loop.registered, true, []⟩
  | some msg =>
    let membership := msg.type = "REGISTER" ∨ msg.type = "UNREGISTER"
    let refusal : Sends :=
      if msg.type = "REGISTER" then [(site.stream, .registerFailed msg.room)] else []
    let world := site.world loop.count
    if membership ∧ validRoom msg.room = false then
      ⟨loop.membershipOps, loop.registered, true, refusal⟩
    else if membership then
      let allowed := loop.membershipOps.allow world.2
      if allowed.1 = false then ⟨allowed.2, loop.registered, true, refusal⟩
      else if msg.type = "REGISTER" then
        let out := world.1.register site.stream msg.room world.2
        match out.2.1 with
        | .registerOracleSilenced => ⟨allowed.2, loop.registered, true, []⟩
        | .registerCapped => ⟨allowed.2, loop.registered, false, refusal⟩
        | .registerJoined => ⟨allowed.2, true, false, out.2.2⟩
      else
        ⟨allowed.2, loop.registered, false, (world.1.unregister site.stream msg.room).2⟩
    else if msg.type = "PING" then
      ⟨loop.membershipOps, loop.registered, false, [(site.stream, .pong)]⟩
    else ⟨loop.membershipOps, loop.registered, true, []⟩

def dispatch (site : ReadSite) (loop : LoopState) (payload : Bytes) : LoopState :=
  let handled := handle site loop payload
  let warned := if handled.complaint then loop.warn else loop
  { warned with
    membershipOps := handled.membershipOps
    registered := handled.registered
    count := loop.count + 1
    caused := loop.caused ++ handled.sends
    lines := warned.lines ++ bugLines handled.sends }

structure ReadLoop where
  buf : Bytes
  closed : Bool
  dispatched : List Bytes
  loop : LoopState
  /-- The most bytes buffered so far. -/
  peak : Nat

namespace ReadLoop

def start : ReadLoop := ⟨[], false, [], LoopState.start, 0⟩

/-- The inner loop; a step for each byte is more than it takes. -/
def frames (site : ReadSite) : Nat → ReadLoop → ReadLoop
  | 0, s => s
  | fuel + 1, s =>
    match scan maxMsgLen s.buf with
    | .wait => s
    | .oversized => { s with closed := true, loop := s.loop.warn }
    | .frame payload rest =>
      frames site fuel { s with
        buf := rest
        dispatched := s.dispatched ++ [payload]
        loop := dispatch site s.loop payload }

def onRead (site : ReadSite) (s : ReadLoop) (chunk : Bytes) : ReadLoop :=
  if s.closed then s
  else
    let buf := s.buf ++ chunk
    frames site buf.length { s with buf := buf, peak := max s.peak buf.length }

end ReadLoop

def readLoop (site : ReadSite) (chunks : List Bytes) : ReadLoop :=
  chunks.foldl (ReadLoop.onRead site) ReadLoop.start

/-- The loop after what a drained buffer held. -/
def afterDrain (site : ReadSite) (loop : LoopState) (drained : List Bytes × Option Bytes) :
    LoopState :=
  let loop := drained.1.foldl (dispatch site) loop
  if drained.2 = none then loop.warn else loop

namespace ReadLoop

theorem frames_drain (site : ReadSite) (fuel : Nat) (s : ReadLoop) :
    (frames site fuel s).dispatched = s.dispatched ++ (drain maxMsgLen fuel s.buf).1 ∧
      (frames site fuel s).loop = afterDrain site s.loop (drain maxMsgLen fuel s.buf) ∧
      (frames site fuel s).peak = s.peak ∧
      (frames site fuel s).closed = (s.closed || (drain maxMsgLen fuel s.buf).2.isNone) ∧
      ∀ rest ∈ (drain maxMsgLen fuel s.buf).2, (frames site fuel s).buf = rest := by
  induction fuel generalizing s with
  | zero =>
    refine ⟨(append_nil _).symm, rfl, rfl, (Bool.or_false _).symm, ?_⟩
    intro rest same
    cases same
    rfl
  | succ fuel ih =>
    rw [frames, drain]
    cases found : scan maxMsgLen s.buf with
    | wait =>
      refine ⟨(append_nil _).symm, rfl, rfl, (Bool.or_false _).symm, ?_⟩
      intro rest same
      cases same
      rfl
    | oversized =>
      exact ⟨(append_nil _).symm, rfl, rfl, (Bool.or_true _).symm, (by rintro _ ⟨⟩)⟩
    | frame payload rest =>
      obtain ⟨dispatched, loop, peak, closed, left⟩ := ih { s with
        buf := rest
        dispatched := s.dispatched ++ [payload]
        loop := dispatch site s.loop payload }
      simp only at dispatched loop peak closed left ⊢
      refine ⟨?_, loop, peak, closed, left⟩
      rw [dispatched, append_assoc, singleton_append]

/-- What the loop is once it has read these bytes, in whatever pieces. -/
structure Read (site : ReadSite) (seen : Bytes) (s : ReadLoop) : Prop where
  dispatched : s.dispatched = (drain maxMsgLen seen.length seen).1
  loop : s.loop = afterDrain site LoopState.start (drain maxMsgLen seen.length seen)
  closed : s.closed = (drain maxMsgLen seen.length seen).2.isNone
  buf : ∀ rest ∈ (drain maxMsgLen seen.length seen).2, s.buf = rest
  peak : s.peak ≤ maxMsgLen + 4 + readSize

theorem start_read (site : ReadSite) : Read site [] start where
  dispatched := rfl
  loop := rfl
  closed := rfl
  buf := by
    intro rest same
    cases same
    rfl
  peak := Nat.zero_le _

theorem after_drain_append (site : ReadSite) (loop : LoopState) (bodies more : List Bytes)
    (left : Option Bytes) : afterDrain site loop (bodies ++ more, left) =
      afterDrain site (bodies.foldl (dispatch site) loop) (more, left) := by
  unfold afterDrain
  simp only [foldl_append]

theorem Read.on_read {site : ReadSite} {seen : Bytes} {s : ReadLoop} (read : Read site seen s)
    {chunk : Bytes} (size : chunk.length ≤ readSize) :
    Read site (seen ++ chunk) (onRead site s chunk) := by
  have whole := @drain_append maxMsgLen seen chunk
  obtain ⟨dispatched, loop, closed, buf, peak⟩ := read
  cases drained : drain maxMsgLen seen.length seen with
  | mk bodies left =>
    rw [drained] at whole dispatched loop closed buf
    cases left with
    | none =>
      simp only [Option.isNone_none] at whole closed
      unfold onRead
      rw [if_pos closed]
      refine ⟨by rw [whole, dispatched], by rw [whole, loop], by rw [whole]; exact closed, ?_,
        peak⟩
      rw [whole]
      exact nofun
    | some rest =>
      simp only [Option.isNone_some] at whole closed
      have held : s.buf = rest := buf rest rfl
      have short := drain_rest_short (le_refl seen.length) (congrArg Prod.snd drained)
      unfold onRead
      rw [if_neg (by rw [closed]; exact Bool.false_ne_true)]
      simp only
      obtain ⟨dispatched_, loop_, peak_, closed_, buf_⟩ := frames_drain site
        (s.buf ++ chunk).length
        { s with buf := s.buf ++ chunk, peak := max s.peak (s.buf ++ chunk).length }
      simp only at dispatched_ loop_ peak_ closed_ buf_
      rw [held] at dispatched_ loop_ peak_ closed_ buf_ ⊢
      refine ⟨?_, ?_, ?_, ?_, ?_⟩
      · rw [dispatched_, dispatched, whole]
      · rw [loop_, loop, whole, after_drain_append]
        rfl
      · rw [closed_, closed, whole, Bool.false_or]
      · rw [whole]
        exact buf_
      · rw [peak_, length_append]
        omega

theorem read_loop_reads (site : ReadSite) {chunks : List Bytes}
    (sizes : ∀ chunk ∈ chunks, chunk.length ≤ readSize) :
    Read site chunks.flatten (readLoop site chunks) := by
  have from_ : ∀ (chunks : List Bytes) (seen : Bytes) (s : ReadLoop), Read site seen s →
      (∀ chunk ∈ chunks, chunk.length ≤ readSize) →
      Read site (seen ++ chunks.flatten) (chunks.foldl (onRead site) s) := by
    intro chunks
    induction chunks with
    | nil =>
      intro seen s read _
      rw [flatten_nil, append_nil]
      exact read
    | cons chunk rest ih =>
      intro seen s read sizes
      rw [flatten_cons, ← append_assoc]
      exact ih _ _ (read.on_read (sizes chunk mem_cons_self))
        fun other mem => sizes other (mem_cons_of_mem _ mem)
  exact from_ chunks [] start (start_read site) sizes

end ReadLoop

section Sizes

theorem text_len_append (first second : List Char) :
    textLen (first ++ second) = textLen first + textLen second := by
  unfold textLen
  rw [map_append, sum_append]

theorem text_len_cons (char : Char) (rest : List Char) :
    textLen (char :: rest) = char.utf8Size + textLen rest := rfl

theorem hex_letter_size : ∀ value, value < 16 → (hexLetter value).utf8Size = 1 := by decide

theorem escape_char_len (char : Char) : textLen (escapeChar char) ≤ 6 * char.utf8Size := by
  have positive := char.utf8Size_pos
  have six : ∀ first second third fourth value : Nat, value < 16 → ∀ letter, letter < 16 →
      textLen [Char.ofNat 92, 'u', '0', '0', hexLetter value, hexLetter letter] = 6 := by
    intro _ _ _ _ value small letter small_
    simp only [textLen, map_cons, map_nil, sum_cons, sum_nil,
      hex_letter_size value small, hex_letter_size letter small_]
    rfl
  have slashed : (Char.ofNat 92).utf8Size = 1 := rfl
  unfold escapeChar
  simp only
  split
  · simp only [textLen, map_cons, map_nil, sum_cons, sum_nil, slashed]
    omega
  · split
    · exact (by decide : textLen [Char.ofNat 92, 'b'] ≤ 2).trans (by omega)
    · split
      · exact (by decide : textLen [Char.ofNat 92, 'f'] ≤ 2).trans (by omega)
      · split
        · exact (by decide : textLen [Char.ofNat 92, 'n'] ≤ 2).trans (by omega)
        · split
          · exact (by decide : textLen [Char.ofNat 92, 'r'] ≤ 2).trans (by omega)
          · split
            · exact (by decide : textLen [Char.ofNat 92, 't'] ≤ 2).trans (by omega)
            · split
              · rw [six 0 0 0 0 _ (by omega) _ (by omega)]
                omega
              · split
                · have four : textLen [Char.ofNat 92, 'u', '2', '0', '2',
                      hexLetter (char.toNat % 16)] = 6 := by
                    simp only [textLen, map_cons, map_nil, sum_cons, sum_nil,
                      hex_letter_size _ (Nat.mod_lt char.toNat (by decide : 0 < 16))]
                    rfl
                  rw [four]
                  omega
                · rw [text_len_cons]
                  simp only [textLen, map_nil, sum_nil]
                  omega

theorem quote_len (value : String) : textLen (quote value) ≤ 2 + 6 * textLen value.toList := by
  have body : ∀ chars : List Char, textLen (chars.flatMap escapeChar) ≤ 6 * textLen chars := by
    intro chars
    induction chars with
    | nil => exact Nat.zero_le _
    | cons char rest ih =>
      have one := escape_char_len char
      rw [flatMap_cons, text_len_append, text_len_cons]
      omega
  have whole := body value.toList
  have marks : textLen (quote value) = 1 + textLen (value.toList.flatMap escapeChar) + 1 := by
    unfold quote
    rw [cons_append, text_len_cons, text_len_append]
    have mark : '"'.utf8Size = 1 := rfl
    have last : textLen ['"'] = 1 := rfl
    omega
  omega

/-- A peer id, as libp2p writes it: at most fifty-four letters and digits. -/
def PeerText (id : PeerId) : Prop :=
  id.toList.length ≤ 54 ∧ ∀ char ∈ id.toList, char.isAlphanum = true

theorem alphanum_plain {char : Char} (plain : char.isAlphanum = true) :
    escapeChar char = [char] ∧ char.utf8Size = 1 := by
  have range : (48 ≤ char.toNat ∧ char.toNat ≤ 57) ∨ (65 ≤ char.toNat ∧ char.toNat ≤ 90) ∨
      (97 ≤ char.toNat ∧ char.toNat ≤ 122) := by
    unfold Char.isAlphanum Char.isAlpha Char.isUpper Char.isLower Char.isDigit at plain
    simp only [Bool.or_eq_true, Bool.and_eq_true, decide_eq_true_eq, ge_iff_le,
      UInt32.le_iff_toNat_le] at plain
    have value : char.val.toNat = char.toNat := rfl
    rw [value] at plain
    have bounds : ('A'.val.toNat = 65 ∧ 'Z'.val.toNat = 90) ∧
        ('a'.val.toNat = 97 ∧ 'z'.val.toNat = 122) ∧ '0'.val.toNat = 48 ∧ '9'.val.toNat = 57 := by
      decide
    omega
  refine ⟨?_, ?_⟩
  · unfold escapeChar
    simp only
    rw [if_neg (by omega), if_neg (by omega), if_neg (by omega), if_neg (by omega),
      if_neg (by omega), if_neg (by omega), if_neg (by omega), if_neg (by omega)]
  · apply Char.utf8Size_eq_one_iff.mpr
    rw [UInt32.le_iff_toNat_le]
    have value : char.val.toNat = char.toNat := rfl
    rw [value]
    simp only [UInt32.reduceToNat]
    omega

theorem quote_peer_len {id : PeerId} (peer : PeerText id) : textLen (quote id) ≤ 56 := by
  have plain : ∀ chars : List Char, (∀ char ∈ chars, char.isAlphanum = true) →
      textLen (chars.flatMap escapeChar) = chars.length := by
    intro chars letters
    induction chars with
    | nil => rfl
    | cons char rest ih =>
      obtain ⟨same, one⟩ := alphanum_plain (letters char mem_cons_self)
      rw [flatMap_cons, text_len_append, same, text_len_cons, one,
        ih fun other mem => letters other (mem_cons_of_mem _ mem),
        length_cons]
      simp only [textLen, map_nil, sum_nil]
      omega
  have body := plain id.toList peer.2
  have short := peer.1
  unfold quote
  rw [cons_append, text_len_cons, text_len_append, body]
  have mark : '"'.utf8Size = 1 := rfl
  have last : textLen ['"'] = 1 := rfl
  omega

theorem quote_all_len {ids : List PeerId} (peers : ∀ id ∈ ids, PeerText id) :
    textLen (quoteAll ids) ≤ 57 * ids.length := by
  induction ids using quoteAll.induct with
  | case1 => exact Nat.zero_le _
  | case2 id =>
    have one := quote_peer_len (peers id mem_cons_self)
    rw [quoteAll, length_singleton]
    omega
  | case3 id rest more ih =>
    have one := quote_peer_len (peers id mem_cons_self)
    have others := ih fun other mem => peers other (mem_cons_of_mem _ mem)
    have comma : ','.utf8Size = 1 := rfl
    rw [quoteAll, text_len_append, text_len_cons, length_cons]
    · omega
    · exact more

theorem valid_room_quote {room : Room} (valid : validRoom room = true) :
    textLen (quote room) ≤ 770 := by
  have bound := quote_len room
  unfold validRoom maxRoomIDLen at valid
  simp only [Bool.and_eq_true, Bool.not_eq_true', Bool.or_eq_false_iff, decide_eq_false_iff_not,
    Nat.not_lt] at valid
  omega

theorem marshal_len (msg : ServerMsg) : textLen msg.marshal =
    26 + textLen (quote msg.typeName) + textLen (quote (msg.room.getD "")) +
      textLen msg.peersJson + textLen msg.peerJson := by
  unfold ServerMsg.marshal
  simp only [text_len_append]
  have opening : textLen "\x7b\"type\":".toList = 8 := by decide
  have room : textLen ",\"room\":".toList = 8 := by decide
  have peers : textLen ",\"peers\":".toList = 9 := by decide
  have closing : textLen "\x7d".toList = 1 := by decide
  omega

theorem null_len : textLen "null".toList = 4 := by decide

theorem peers_fit {room : Room} (valid : validRoom room = true) {ids : List PeerId}
    (few : ids.length ≤ maxPeersPerFrame) (peers : ∀ id ∈ ids, PeerText id) :
    textLen (ServerMsg.peers room ids).marshal ≤ maxMsgLen := by
  have quoted := valid_room_quote valid
  have list := quote_all_len peers
  have name : textLen (quote "PEERS") = 7 := by decide
  have brackets : textLen (ServerMsg.peers room ids).peersJson = 2 + textLen (quoteAll ids) := by
    show textLen ('[' :: quoteAll ids ++ [']']) = _
    rw [cons_append, text_len_cons, text_len_append]
    have mark : '['.utf8Size = 1 := rfl
    have last : textLen [']'] = 1 := rfl
    omega
  have nothing : textLen (ServerMsg.peers room ids).peerJson = 0 := rfl
  rw [marshal_len, brackets, nothing]
  simp only [ServerMsg.typeName, ServerMsg.room, Option.getD_some, name]
  unfold maxPeersPerFrame at few
  unfold maxMsgLen
  omega

theorem peer_notice_len {peer : PeerId} (text : PeerText peer) :
    textLen (if peer = "" then [] else ",\"peer\":".toList ++ quote peer) ≤ 64 := by
  split
  · exact Nat.zero_le _
  · have quoted := quote_peer_len text
    have label : textLen ",\"peer\":".toList = 8 := by decide
    rw [text_len_append]
    omega

section

variable {room : Room} {peer : PeerId} (valid : validRoom room = true) (text : PeerText peer)
include valid text

theorem joined_fits : textLen (ServerMsg.peerJoined room peer).marshal ≤ maxMsgLen := by
  have quoted := valid_room_quote valid
  have notice := peer_notice_len text
  have name : textLen (quote "PEER_JOINED") = 13 := by decide
  have null : textLen (ServerMsg.peerJoined room peer).peersJson = 4 := null_len
  rw [marshal_len, null]
  simp only [ServerMsg.typeName, ServerMsg.room, ServerMsg.peerJson, Option.getD_some, name]
  unfold maxMsgLen
  omega

theorem left_fits : textLen (ServerMsg.peerLeft room peer).marshal ≤ maxMsgLen := by
  have quoted := valid_room_quote valid
  have notice := peer_notice_len text
  have name : textLen (quote "PEER_LEFT") = 11 := by decide
  have null : textLen (ServerMsg.peerLeft room peer).peersJson = 4 := null_len
  rw [marshal_len, null]
  simp only [ServerMsg.typeName, ServerMsg.room, ServerMsg.peerJson, Option.getD_some, name]
  unfold maxMsgLen
  omega

end

theorem failed_len (room : Room) :
    textLen (ServerMsg.registerFailed room).marshal = 47 + textLen (quote room) := by
  have name : textLen (quote "REGISTER_FAILED") = 17 := by decide
  have null : textLen (ServerMsg.registerFailed room).peersJson = 4 := null_len
  have nothing : textLen (ServerMsg.registerFailed room).peerJson = 0 := rfl
  rw [marshal_len, null, nothing]
  simp only [ServerMsg.typeName, ServerMsg.room, Option.getD_some, name]
  omega

theorem pong_fits : textLen ServerMsg.pong.marshal ≤ maxMsgLen := by decide

end Sizes

namespace Registry

section

variable {frame : StreamId × ServerMsg} (r : Registry) (c : StreamId) (room : Room)
include r c room

theorem register_frames (now : Int) (mem : frame ∈ (r.register c room now).2.2) :
    (∃ ids, frame.2 = .peers room ids ∧ ids.length ≤ maxPeersPerFrame ∧
      ∀ id ∈ ids, ∃ m, id = r.peerOf m) ∨ frame.2 = .peerJoined room (r.peerOf c) := by
  have listed : ∀ {members : List StreamId} {peer : PeerId},
      frame ∈ sendPeers c room (r.peersExcept members peer) →
      ∃ ids, frame.2 = .peers room ids ∧ ids.length ≤ maxPeersPerFrame ∧
        ∀ id ∈ ids, ∃ m, id = r.peerOf m := by
    intro members peer inside
    obtain ⟨ids, chunk, rfl⟩ := mem_map.mp inside
    obtain ⟨index, _, rfl⟩ := mem_map.mp chunk
    refine ⟨_, rfl, slice_length_le _ _ _, ?_⟩
    intro id there
    have among : id ∈ r.peersExcept members peer := mem_of_mem_drop (mem_of_mem_take there)
    obtain ⟨m, _, rfl⟩ := mem_map.mp (mem_dedup.mp among)
    exact ⟨m, rfl⟩
  unfold Registry.register at mem
  cases found : r.streams.get c with
  | none =>
    rw [found] at mem
    cases mem
  | some client =>
    have own := peer_of_client found
    rw [found] at mem
    simp only at mem
    split at mem
    · cases mem
    · split at mem
      · exact Or.inl (listed mem)
      · split at mem
        · cases mem
        · split at mem
          · cases mem
          · have joined : frame ∈ (sendPeers c room (r.peersExcept (r.membersOf room)
                client.peerId) ++ if !r.peerInRoom (r.membersOf room) client.peerId then
                  ((r.membersOf room).filter fun m => decide (r.peerOf m ≠ client.peerId)).map
                    fun m => (m, ServerMsg.peerJoined room client.peerId)
                else []) → (∃ ids, frame.2 = .peers room ids ∧ ids.length ≤ maxPeersPerFrame ∧
                  ∀ id ∈ ids, ∃ m, id = r.peerOf m) ∨
                frame.2 = .peerJoined room (r.peerOf c) := by
              intro inside
              rcases mem_append.mp inside with list | announced
              · exact Or.inl (listed list)
              · split at announced
                · obtain ⟨m, _, rfl⟩ := mem_map.mp announced
                  exact Or.inr (by rw [own])
                · cases announced
            by_cases empty : r.membersOf room = []
            · rw [if_pos empty] at mem
              split at mem
              · cases mem
              · exact joined mem
            · rw [if_neg empty] at mem
              exact joined mem

theorem unregister_frames (mem : frame ∈ (r.unregister c room).2) :
    frame.2 = .peerLeft room (r.peerOf c) := by
  unfold Registry.unregister at mem
  split at mem
  · cases mem
  · obtain ⟨m, _, rfl⟩ := mem_map.mp mem
    rfl

end

end Registry

section Handling

variable {site : ReadSite}

/-- A REGISTER whose room is refused before anything else, and answered with its name. -/
def Echoes (site : ReadSite) (payload : Bytes) (room : Room) : Prop :=
  site.unmarshal payload = some ⟨"REGISTER", room⟩ ∧ validRoom room = false

theorem echo_sent {payload : Bytes} {room : Room} (echoes : Echoes site payload room)
    (loop : LoopState) :
    (handle site loop payload).sends = [(site.stream, .registerFailed room)] := by
  unfold handle
  rw [echoes.1]
  simp [echoes.2]

theorem handled_fits (peers : ∀ n c, PeerText ((site.world n).1.peerOf c)) {loop : LoopState}
    {payload : Bytes} {frame : StreamId × ServerMsg}
    (mem : frame ∈ (handle site loop payload).sends) :
    textLen frame.2.marshal ≤ maxMsgLen ∨
      ∃ room, Echoes site payload room ∧ frame = (site.stream, .registerFailed room) := by
  unfold handle at mem
  cases read : site.unmarshal payload with
  | none =>
    rw [read] at mem
    cases mem
  | some msg =>
    obtain ⟨kind, room⟩ := msg
    rw [read] at mem
    simp only at mem
    have refused : frame ∈ (if kind = "REGISTER" then
        [(site.stream, ServerMsg.registerFailed room)] else []) →
        kind = "REGISTER" ∧ frame = (site.stream, .registerFailed room) := by
      intro inside
      split at inside
      · rename_i register
        exact ⟨register, mem_singleton.mp inside⟩
      · cases inside
    split at mem
    · rename_i unusable
      obtain ⟨register, same⟩ := refused mem
      exact Or.inr ⟨room, ⟨by rw [read, register], unusable.2⟩, same⟩
    · rename_i usable
      split at mem
      · rename_i membership
        have valid : validRoom room = true := by
          by_contra unusable
          exact usable ⟨membership, Bool.not_eq_true _ ▸ unusable⟩
        have failed : textLen (ServerMsg.registerFailed room).marshal ≤ maxMsgLen := by
          have quoted := valid_room_quote valid
          rw [failed_len]
          unfold maxMsgLen
          omega
        split at mem
        · obtain ⟨_, rfl⟩ := refused mem
          exact Or.inl failed
        · split at mem
          · split at mem
            · cases mem
            · rw [mem_singleton.mp mem]
              exact Or.inl failed
            · rcases Registry.register_frames _ _ _ _ mem with ⟨ids, same, few, known⟩ | same
              · rw [same]
                refine Or.inl (peers_fit valid few ?_)
                intro id inside
                obtain ⟨m, rfl⟩ := known id inside
                exact peers loop.count m
              · rw [same]
                exact Or.inl (joined_fits valid (peers loop.count site.stream))
          · rw [Registry.unregister_frames _ _ _ mem]
            exact Or.inl (left_fits valid (peers loop.count site.stream))
      · split at mem
        · rw [mem_singleton.mp mem]
          exact Or.inl pong_fits
        · cases mem

end Handling

section Accounting

theorem bug_lines_append (first second : Sends) :
    bugLines (first ++ second) = bugLines first ++ bugLines second := by
  unfold bugLines
  rw [filter_append, map_append]

theorem bug_lines_nil {sends : Sends} (fit : ∀ frame ∈ sends, textLen frame.2.marshal ≤ maxMsgLen) :
    bugLines sends = [] := by
  unfold bugLines
  rw [map_eq_nil_iff, filter_eq_nil_iff]
  intro frame mem
  have size := fit frame mem
  simpa using size

namespace LoopState

/-- Every line is one of the budget's, its last word or one about a dropped frame. -/
structure Accounted (loop : LoopState) : Prop where
  left : loop.left ≤ maxStreamLogLines
  bugs : loop.lines.count .bug = (bugLines loop.caused).length
  length : loop.lines.length = maxStreamLogLines - loop.left + (if loop.left = 0 then 1 else 0) +
    (bugLines loop.caused).length

theorem start_accounted : start.Accounted where
  left := le_refl _
  bugs := rfl
  length := rfl

theorem Accounted.warn {loop : LoopState} (accounted : loop.Accounted) : loop.warn.Accounted := by
  obtain ⟨left, bugs, length⟩ := accounted
  unfold LoopState.warn
  split
  · exact ⟨left, bugs, length⟩
  · rename_i some_
    rw [if_neg some_] at length
    by_cases last : loop.left - 1 = 0
    · refine ⟨Nat.le_trans (Nat.sub_le _ _) left, ?_, ?_⟩
      · simp only [last, if_true]
        rw [count_append, bugs]
        rfl
      · simp only [last, if_true]
        rw [length_append, length]
        simp only [length_cons, length_nil]
        omega
    · refine ⟨Nat.le_trans (Nat.sub_le _ _) left, ?_, ?_⟩
      · simp only [last, if_false]
        rw [count_append, bugs]
        rfl
      · simp only [last, if_false]
        rw [length_append, length]
        simp only [length_cons, length_nil]
        omega

theorem count_bug_lines (sends : Sends) : (bugLines sends).count .bug = (bugLines sends).length := by
  unfold bugLines
  rw [count_eq_length]
  intro line mem
  obtain ⟨_, _, rfl⟩ := mem_map.mp mem
  rfl

theorem Accounted.dispatch {loop : LoopState} (accounted : loop.Accounted) (site : ReadSite)
    (payload : Bytes) : (Relay.dispatch site loop payload).Accounted := by
  have kept : loop.warn.caused = loop.caused := by
    unfold LoopState.warn
    split <;> rfl
  have both : ∀ warned : LoopState, warned.Accounted → warned.caused = loop.caused →
      ∀ ops registered count sends, Accounted { warned with
        membershipOps := ops
        registered := registered
        count := count
        caused := loop.caused ++ sends
        lines := warned.lines ++ bugLines sends } := by
    rintro warned ⟨left, bugs, length⟩ same ops registered count sends
    rw [same] at bugs length
    refine ⟨left, ?_, ?_⟩
    · rw [count_append, bugs, count_bug_lines, bug_lines_append, length_append]
    · simp only
      rw [length_append, length, bug_lines_append, length_append]
      omega
  unfold Relay.dispatch
  simp only
  split
  · exact both _ accounted.warn kept _ _ _ _
  · exact both _ accounted rfl _ _ _ _

theorem Accounted.after_drain {loop : LoopState} (accounted : loop.Accounted) (site : ReadSite)
    (drained : List Bytes × Option Bytes) : (afterDrain site loop drained).Accounted := by
  obtain ⟨bodies, left⟩ := drained
  have folded : (bodies.foldl (Relay.dispatch site) loop).Accounted := by
    induction bodies generalizing loop with
    | nil => exact accounted
    | cons body rest ih => exact ih (accounted.dispatch site body)
  unfold afterDrain
  simp only
  split
  · exact folded.warn
  · exact folded

end LoopState

theorem after_drain_caused (site : ReadSite) (loop : LoopState) (bodies : List Bytes)
    (left : Option Bytes) :
    (afterDrain site loop (bodies, left)).caused = (bodies.foldl (dispatch site) loop).caused := by
  unfold afterDrain LoopState.warn
  simp only
  split
  · split <;> rfl
  · rfl

theorem mem_caused {site : ReadSite} {bodies : List Bytes} {loop : LoopState}
    {frame : StreamId × ServerMsg} :
    frame ∈ (bodies.foldl (dispatch site) loop).caused ↔ frame ∈ loop.caused ∨
      ∃ before body after, bodies = before ++ body :: after ∧
        frame ∈ (handle site (before.foldl (dispatch site) loop) body).sends := by
  induction bodies generalizing loop with
  | nil => simp
  | cons body rest ih =>
    have first : (dispatch site loop body).caused = loop.caused ++ (handle site loop body).sends :=
      rfl
    rw [foldl_cons, ih, first, mem_append]
    constructor
    · rintro ((there | sent) | ⟨before, later, after, rfl, sent⟩)
      · exact Or.inl there
      · exact Or.inr ⟨[], body, rest, rfl, sent⟩
      · exact Or.inr ⟨body :: before, later, after, rfl, sent⟩
    · rintro (there | ⟨before, later, after, same, sent⟩)
      · exact Or.inl (Or.inl there)
      · cases before with
        | nil =>
          cases same
          exact Or.inl (Or.inr sent)
        | cons head before =>
          cases same
          exact Or.inr ⟨before, later, after, rfl, sent⟩

end Accounting

/-- The names of refused rooms that the loop is to echo fit in a frame with the envelope. -/
def EchoesFit (site : ReadSite) (bytes : Bytes) : Prop :=
  ∀ payload ∈ (drain maxMsgLen bytes.length bytes).1, ∀ room, Echoes site payload room →
    47 + textLen (quote room) ≤ maxMsgLen

theorem caused_fit_iff {site : ReadSite} (peers : ∀ n c, PeerText ((site.world n).1.peerOf c))
    {chunks : List Bytes} (sizes : ∀ chunk ∈ chunks, chunk.length ≤ readSize) :
    (∀ frame ∈ (readLoop site chunks).loop.caused, textLen frame.2.marshal ≤ maxMsgLen) ↔
      EchoesFit site chunks.flatten := by
  rw [(ReadLoop.read_loop_reads site sizes).loop, after_drain_caused]
  constructor
  · intro fit payload mem room echoes
    obtain ⟨before, after, split_⟩ := append_of_mem mem
    have sent := fit (site.stream, .registerFailed room) (mem_caused.mpr (Or.inr
      ⟨before, payload, after, split_, by rw [echo_sent echoes]; exact mem_singleton_self _⟩))
    rw [failed_len] at sent
    exact sent
  · intro fit frame caused
    rcases mem_caused.mp caused with none_ | ⟨before, payload, after, split_, sent⟩
    · cases none_
    · rcases handled_fits peers sent with small | ⟨room, echoes, rfl⟩
      · exact small
      · rw [failed_len]
        exact fit payload (by rw [split_]; simp) room echoes

def asciiBytes (chars : List Char) : Bytes := chars.map fun char => UInt8.ofNat char.toNat

def registerOpening : Bytes := asciiBytes "\x7b\"type\":\"REGISTER\",\"room\":\"".toList

def registerClosing : Bytes := asciiBytes "\"\x7d".toList

/-- What `json.Unmarshal` makes of a REGISTER that is written plainly. -/
def readPlainRegister (payload : Bytes) : Option ClientMsg :=
  if registerOpening.isPrefixOf payload && registerClosing.isSuffixOf payload then
    some ⟨"REGISTER", String.ofList (((payload.drop registerOpening.length).take
      (payload.length - registerOpening.length - registerClosing.length)).map
        fun byte => Char.ofNat byte.toNat)⟩
  else none

def plainSite : ReadSite := ⟨0, readPlainRegister, fun _ => (newRegistry, 0)⟩

def plainRegister (room : List Char) : Bytes :=
  frameOf (registerOpening ++ asciiBytes room ++ registerClosing)

theorem read_plain_register {room : List Char} (plain : ∀ char ∈ room, char.toNat < 256) :
    readPlainRegister (registerOpening ++ asciiBytes room ++ registerClosing) =
      some ⟨"REGISTER", String.ofList room⟩ := by
  have opened : registerOpening.isPrefixOf
      (registerOpening ++ asciiBytes room ++ registerClosing) = true := by
    rw [ isPrefixOf_iff_prefix, append_assoc]
    exact prefix_append _ _
  have closed : registerClosing.isSuffixOf
      (registerOpening ++ asciiBytes room ++ registerClosing) = true := by
    rw [isSuffixOf_iff_suffix]
    exact suffix_append _ _
  have count : (registerOpening ++ asciiBytes room ++ registerClosing).length -
      registerOpening.length - registerClosing.length = (asciiBytes room).length := by
    simp only [length_append]
    omega
  have back : (asciiBytes room).map (fun byte => Char.ofNat byte.toNat) = room := by
    unfold asciiBytes
    rw [map_map]
    conv_rhs => rw [← map_id room]
    apply map_congr_left
    intro char mem
    have byte : (UInt8.ofNat char.toNat).toNat = char.toNat := by
      rw [UInt8.toNat_ofNat', Nat.mod_eq_of_lt (plain char mem)]
    show Char.ofNat (UInt8.ofNat char.toNat).toNat = char
    rw [byte, Char.ofNat_toNat]
  unfold readPlainRegister
  rw [opened, closed, count, append_assoc, drop_left' rfl, take_left' rfl, back]
  rfl

theorem text_len_replicate (count : Nat) (part : Char → List Char) (char : Char) :
    textLen ((List.replicate count char).flatMap part) = count * textLen (part char) := by
  induction count with
  | zero => simp [textLen]
  | succ count ih =>
    rw [replicate_succ, flatMap_cons, text_len_append, ih, Nat.succ_mul]
    omega

theorem plain_peers (n : Nat) (c : StreamId) : PeerText ((plainSite.world n).1.peerOf c) :=
  ⟨Nat.zero_le _, nofun⟩

theorem refusal_dropped {room : List Char} (plain : ∀ char ∈ room, char.toNat < 256)
    (short : room.length ≤ 4000) (unusable : validRoom (String.ofList room) = false)
    (long : maxMsgLen < 47 + textLen (quote (String.ofList room))) :
    (∀ chunk ∈ [plainRegister room], chunk.length ≤ readSize) ∧
    (∃ frame ∈ (readLoop plainSite [plainRegister room]).loop.caused,
      maxMsgLen < textLen frame.2.marshal) ∧
    LogLine.bug ∈ (readLoop plainSite [plainRegister room]).loop.lines := by
  have body : (registerOpening ++ asciiBytes room ++ registerClosing).length =
      27 + room.length + 2 := by
    rw [length_append, length_append, asciiBytes, length_map]
    rfl
  have sizes : ∀ chunk ∈ [plainRegister room], chunk.length ≤ readSize := by
    intro chunk mem
    rw [mem_singleton.mp mem, plainRegister, frame_length, body]
    unfold readSize
    omega
  have drained : (drain maxMsgLen [plainRegister room].flatten.length
      [plainRegister room].flatten).1 = [registerOpening ++ asciiBytes room ++ registerClosing] := by
    rw [flatten_singleton, plainRegister]
    apply drain_frame (by decide)
    rw [body]
    unfold maxMsgLen
    omega
  have past : ¬EchoesFit plainSite [plainRegister room].flatten := by
    intro fit
    have first := fit (registerOpening ++ asciiBytes room ++ registerClosing)
      (by rw [drained]; exact mem_singleton_self _) _ ⟨read_plain_register plain, unusable⟩
    omega
  have caused : ∃ frame ∈ (readLoop plainSite [plainRegister room]).loop.caused,
      maxMsgLen < textLen frame.2.marshal := by
    by_contra none_
    apply past
    apply (caused_fit_iff plain_peers sizes).mp
    intro frame mem
    by_contra large
    exact none_ ⟨frame, mem, Nat.not_le.mp large⟩
  refine ⟨sizes, caused, ?_⟩
  obtain ⟨frame, mem, large⟩ := caused
  have accounted : (readLoop plainSite [plainRegister room]).loop.Accounted := by
    rw [(ReadLoop.read_loop_reads plainSite sizes).loop]
    exact LoopState.start_accounted.after_drain plainSite _
  have dropped : LogLine.bug ∈ bugLines (readLoop plainSite [plainRegister room]).loop.caused :=
    mem_map.mpr ⟨frame, mem_filter.mpr ⟨mem, decide_eq_true large⟩, rfl⟩
  apply count_pos_iff.mp
  rw [accounted.bugs]
  exact length_pos_of_mem dropped

theorem quote_of_list_len (chars : List Char) :
    textLen (quote (String.ofList chars)) = 2 + textLen (chars.flatMap escapeChar) := by
  unfold quote
  rw [String.toList_ofList, cons_append, text_len_cons, text_len_append]
  have mark : '"'.utf8Size = 1 := rfl
  have last : textLen ['"'] = 1 := rfl
  omega

end AwfulChat.Relay
