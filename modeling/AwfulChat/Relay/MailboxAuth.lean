import AwfulChat.Library.JsText
import AwfulChat.Library.OrderedMap
import AwfulChat.Library.Runs

/-!
# Proofs of the mailbox

`authenticateMailbox`, `verifyMailboxSignature` and `mailboxAuthFirstUse` of
`mailbox.go`. A proof is a signature over the action, the host, the device, the
time and the hash of the body; an accepted one is remembered until its time is
too old to be accepted again. The clock is read twice in one call, once for the
age of the proof and once for the memory of it.

Ed25519, SHA-256 and base58 are parameters.
-/

namespace AwfulChat.Relay

open Library Library.OrderedMap List Option

set_option autoImplicit false

/-- What the relay calls and does not contain. -/
structure AuthSite where
  base58Decode : String → Option Bytes
  sha256 : Bytes → Bytes
  smallOrder : Bytes → Bool
  verify : Bytes → String → Bytes → Bool

inductive MailboxAction where
  | collect
  | ack
  | pushSubscribe
  | pushUnsubscribe
  deriving DecidableEq

def MailboxAction.text : MailboxAction → String
  | .collect => "collect"
  | .ack => "ack"
  | .pushSubscribe => "push-subscribe"
  | .pushUnsubscribe => "push-unsubscribe"

def second : Int := 1000000000

def mailboxAuthSkew : Int := 120 * second
def mailboxAuthFutureSkew : Int := 30 * second
def mailboxSeenMax : Nat := 65536
def mailboxAuthScheme : String := "AwfulMailbox-v2"

section Texts

def hexDigit (value : Nat) : Char := (Nat.toDigits 16 value).headD '0'

def hexEncode (bytes : Bytes) : String :=
  String.ofList (bytes.flatMap fun byte => [hexDigit (byte.toNat / 16), hexDigit (byte.toNat % 16)])

/-- `unicode.IsSpace`. -/
def isSpace (c : Char) : Bool :=
  (9 ≤ c.toNat && c.toNat ≤ 13) || c.toNat == 0x20 || c.toNat == 0x85 || c.toNat == 0xa0 ||
    c.toNat == 0x1680 || (0x2000 ≤ c.toNat && c.toNat ≤ 0x200a) || c.toNat == 0x2028 ||
    c.toNat == 0x2029 || c.toNat == 0x202f || c.toNat == 0x205f || c.toNat == 0x3000

/-- `strings.Fields`. -/
def fields (text : List Char) : List (List Char) :=
  (text.splitOnP isSpace).filter fun part => !part.isEmpty

def decimal (digits : List Char) : Option Int :=
  if digits.isEmpty || digits.any (fun c => !c.isDigit) then none
  else some (digits.foldl (fun value c => value * 10 + ((c.toNat - 48 : Nat) : Int)) 0)

/-- `strconv.ParseInt` in base 10, for 64 bits. -/
def parseInt (text : List Char) : Option Int :=
  let signed : Option Int :=
    match text with
    | '-' :: digits => (decimal digits).map fun value => -value
    | '+' :: digits => decimal digits
    | digits => decimal digits
  signed.filter fun value => decide (-2 ^ 63 ≤ value) && decide (value < 2 ^ 63)

def base64Value (c : Char) : Option Nat :=
  if 'A' ≤ c ∧ c ≤ 'Z' then some (c.toNat - 65)
  else if 'a' ≤ c ∧ c ≤ 'z' then some (c.toNat - 97 + 26)
  else if c.isDigit then some (c.toNat - 48 + 52)
  else if c = '+' then some 62
  else if c = '/' then some 63
  else none

/-- `base64.StdEncoding`, four characters at a time. Strict decoding refuses a last
character whose unused bits are not zero. -/
def decodeGroups (strict : Bool) : List Char → Option Bytes
  | [] => some []
  | a :: b :: c :: d :: rest =>
    if d = '=' ∧ c = '=' then do
      let high ← base64Value a
      let low ← base64Value b
      if rest ≠ [] ∨ (strict = true ∧ low % 16 ≠ 0) then none
      else some [UInt8.ofNat (high * 4 + low / 16)]
    else if d = '=' then do
      let high ← base64Value a
      let middle ← base64Value b
      let low ← base64Value c
      if rest ≠ [] ∨ (strict = true ∧ low % 4 ≠ 0) then none
      else some [UInt8.ofNat (high * 4 + middle / 16), UInt8.ofNat (middle % 16 * 16 + low / 4)]
    else do
      let first ← base64Value a
      let second ← base64Value b
      let third ← base64Value c
      let fourth ← base64Value d
      let later ← decodeGroups strict rest
      some (UInt8.ofNat (first * 4 + second / 16) ::
        UInt8.ofNat (second % 16 * 16 + third / 4) ::
        UInt8.ofNat (third % 4 * 64 + fourth) :: later)
  | _ => none

/-- Line breaks are skipped, as the decoder does. -/
def decodeBase64 (strict : Bool) (text : List Char) : Option Bytes :=
  decodeGroups strict (text.filter fun c => c != '\n' && c != '\r')

def isBase58 (c : Char) : Bool :=
  (decide ('1' ≤ c) && decide (c ≤ '9')) || (decide ('A' ≤ c) && decide (c ≤ 'H')) ||
    (decide ('J' ≤ c) && decide (c ≤ 'N')) || (decide ('P' ≤ c) && decide (c ≤ 'Z')) ||
    (decide ('a' ≤ c) && decide (c ≤ 'k')) || (decide ('m' ≤ c) && decide (c ≤ 'z'))

/-- `mailboxDeviceRe`. -/
def mailboxDevice (device : String) : Bool :=
  decide (32 ≤ device.toList.length) && decide (device.toList.length ≤ 64) &&
    device.toList.all isBase58

end Texts

def mailboxAuthMessage (action : MailboxAction) (host device : String) (ts : Int)
    (bodySha256Hex : String) : String :=
  "awful-mailbox:v2:" ++ action.text ++ ":" ++ host ++ ":" ++ device ++ ":" ++ ts.repr ++ ":" ++
    bodySha256Hex

def ed25519Key (raw : Bytes) : Option Bytes :=
  match raw with
  | 0xed :: 0x01 :: key => if key.length = 32 then some key else none
  | _ => none

def didToPubKey (site : AuthSite) (did : String) : Except String Bytes :=
  if !"did:key:".toList.isPrefixOf did.toList then .error "not a did:key"
  else
    let body := did.toList.drop 8
    if 64 < (String.ofList body).utf8ByteSize then .error "did too long"
    else
      let trimmed := if ['z'].isPrefixOf body then body.drop 1 else body
      match ((site.base58Decode (String.ofList body)).bind ed25519Key).or
        ((site.base58Decode (String.ofList trimmed)).bind ed25519Key) with
      | some key => .ok key
      | none => .error "not an ed25519 did:key"

def mailboxIDForDid (site : AuthSite) (did : String) : String :=
  hexEncode (site.sha256 did.toUTF8.toList)

def verifyMailboxSignature (site : AuthSite) (did : String) (ts : Int) (sig : List Char)
    (message : String) (now : Int) : Except String String :=
  let age := now - ts * second
  if mailboxAuthSkew < age ∨ age < -mailboxAuthFutureSkew then .error "stale timestamp"
  else
    match didToPubKey site did with
    | .error reason => .error reason
    | .ok key =>
      match decodeBase64 false sig with
      | none => .error "illegal base64 data"
      | some bytes =>
        if site.smallOrder key then .error "small-order public key"
        else if !site.verify key message bytes then .error "bad signature"
        else .ok (mailboxIDForDid site did)

def verifyMailboxAuth (site : AuthSite) (did : String) (ts : Int) (sig : String) (now : Int) :
    Except String String :=
  verifyMailboxSignature site did ts sig.toList ("awful-mailbox:" ++ ts.repr) now

/-- The signatures seen, with the time each expires, and the order they came in. -/
structure SeenProofs where
  seen : OrderedMap Bytes Int
  order : List Bytes

def SeenProofs.empty : SeenProofs := ⟨.empty, []⟩

def dropSeen (now : Int) : OrderedMap Bytes Int → List Bytes → SeenProofs
  | seen, [] => ⟨seen, []⟩
  | seen, oldest :: rest =>
    if ((seen.get oldest).any fun expires => decide (now < expires)) = true ∧
        rest.length + 1 < mailboxSeenMax then
      ⟨seen, oldest :: rest⟩
    else dropSeen now (seen.delete oldest) rest

def mailboxAuthFirstUse (cache : SeenProofs) (sig : Bytes) (ts now : Int) : Bool × SeenProofs :=
  let expires := ts * second + (mailboxAuthSkew + second)
  let kept := dropSeen now cache.seen cache.order
  if (kept.seen.get sig).any fun known => decide (now < known) then (false, kept)
  else (true, ⟨kept.seen.set sig expires, kept.order ++ [sig]⟩)

/-- A request to one of the four handlers, its body already read and decoded. -/
structure AuthCall where
  action : MailboxAction
  authorization : String
  host : String
  body : Bytes
  device : String
  legacyDid : String
  legacyTs : Int
  legacySig : String
  checkedAt : Int
  usedAt : Int

/-- What a signer signs for. -/
structure MailboxRequest where
  action : MailboxAction
  host : String
  device : String
  ts : Int
  body : Bytes
  deriving DecidableEq

def MailboxRequest.message (site : AuthSite) (request : MailboxRequest) : String :=
  mailboxAuthMessage request.action request.host request.device request.ts
    (hexEncode (site.sha256 request.body))

structure AcceptedProof where
  request : MailboxRequest
  did : String
  sig : Bytes
  usedAt : Int

inductive AuthOutcome where
  | refused (reason : String)
  | legacy (box : String)
  | proven (box : String) (proof : AcceptedProof)

/-- The fields of a v2 header. -/
def proofFields (authorization : String) : Option (List (List Char)) :=
  let scheme := (mailboxAuthScheme ++ " ").toList
  if scheme.isPrefixOf authorization.toList then
    some (fields (authorization.toList.drop scheme.length))
  else none

def authenticateMailbox (site : AuthSite) (cache : SeenProofs) (call : AuthCall) :
    AuthOutcome × SeenProofs :=
  match proofFields call.authorization with
  | some [did, time, sig] =>
    match parseInt time with
    | none => (.refused "malformed timestamp", cache)
    | some ts =>
      let request : MailboxRequest :=
        ⟨call.action, call.host.toLower, call.device, ts, call.body⟩
      match verifyMailboxSignature site (String.ofList did) ts sig (request.message site)
        call.checkedAt with
      | .error reason => (.refused reason, cache)
      | .ok box =>
        match decodeBase64 true sig with
        | none => (.refused "malformed signature", cache)
        | some bytes =>
          let used := mailboxAuthFirstUse cache bytes ts call.usedAt
          if used.1 then
            (.proven box ⟨request, String.ofList did, bytes, call.usedAt⟩, used.2)
          else (.refused "replayed proof", used.2)
  | some _ => (.refused "malformed authorization", cache)
  | none =>
    if call.action ≠ .collect then (.refused "this call needs a v2 proof", cache)
    else
      match verifyMailboxAuth site call.legacyDid call.legacyTs call.legacySig call.checkedAt with
      | .error reason => (.refused reason, cache)
      | .ok box => (.legacy box, cache)

/-- The check every handler makes before it authenticates. -/
def deviceAllowed (call : AuthCall) : Bool :=
  mailboxDevice call.device ||
    (call.device == "" && (call.action == .collect || call.action == .ack))

def handleAuthenticated (site : AuthSite) (cache : SeenProofs) (call : AuthCall) :
    AuthOutcome × SeenProofs :=
  if !deviceAllowed call then (.refused "bad device", cache)
  else authenticateMailbox site cache call

structure AuthWorld where
  cache : SeenProofs
  clock : Int
  accepted : List AcceptedProof

def AuthWorld.start (clock : Int) : AuthWorld := ⟨.empty, clock, []⟩

def AuthOutcome.proofs : AuthOutcome → List AcceptedProof
  | .proven _ proof => [proof]
  | _ => []

/-- One call; the clock does not go back. -/
def authStep (site : AuthSite) (world : AuthWorld) (call : AuthCall) : Option AuthWorld :=
  if world.clock ≤ call.checkedAt ∧ call.checkedAt ≤ call.usedAt then
    let handled := handleAuthenticated site world.cache call
    some ⟨handled.2, call.usedAt, world.accepted ++ handled.1.proofs⟩
  else none

section Texts

theorem strict_groups_lenient (text : List Char) {bytes : Bytes}
    (decoded : decodeGroups true text = some bytes) : decodeGroups false text = some bytes := by
  fun_induction decodeGroups true text generalizing bytes with
  | case1 => exact decoded
  | case2 a b c d rest padded =>
    simp only [bind_eq_bind, bind_eq_some_iff] at decoded
    obtain ⟨high, highValue, low, lowValue, final⟩ := decoded
    split_ifs at final with unused
    have whole : rest = [] := by
      by_contra more
      exact unused (Or.inl more)
    simpa [decodeGroups, padded, highValue, lowValue, whole] using final
  | case3 a b c rest padded =>
    simp only [bind_eq_bind, bind_eq_some_iff] at decoded
    obtain ⟨high, highValue, middle, middleValue, low, lowValue, final⟩ := decoded
    split_ifs at final with unused
    have whole : rest = [] := by
      by_contra more
      exact unused (Or.inl more)
    have apart : c ≠ '=' := fun both => padded ⟨rfl, both⟩
    simpa [decodeGroups, apart, highValue, middleValue, lowValue, whole] using final
  | case4 a b c d rest padded single induction =>
    simp only [bind_eq_bind, bind_eq_some_iff] at decoded
    obtain ⟨first, firstValue, second, secondValue, third, thirdValue, fourth, fourthValue,
      later, laterBytes, final⟩ := decoded
    simpa [decodeGroups, single, firstValue, secondValue, thirdValue, fourthValue,
      induction laterBytes] using final
  | case5 => cases decoded

theorem strict_lenient {text : List Char} {bytes : Bytes}
    (decoded : decodeBase64 true text = some bytes) : decodeBase64 false text = some bytes :=
  strict_groups_lenient _ decoded

theorem to_digits_injective {left right : Nat} (same : Nat.toDigits 10 left = Nat.toDigits 10 right) :
    left = right := by
  rw [← Nat.ofDigitChars_ten_toDigits (n := left), same, Nat.ofDigitChars_ten_toDigits]

theorem digits_of_nat_repr {value : Nat} {c : Char} (member : c ∈ (Nat.repr value).toList) :
    c.isDigit = true := by
  rw [Nat.toList_repr] at member
  exact Nat.isDigit_of_mem_toDigits (by decide) (by decide) member

theorem int_repr_injective {left right : Int} (same : left.repr = right.repr) : left = right := by
  have signed : ∀ value other : Nat, Nat.repr value ≠ "-" ++ Nat.repr other := by
    intro value other equal
    have member : '-' ∈ (Nat.repr value).toList := by
      rw [equal]
      simp
    exact absurd (digits_of_nat_repr member) (by decide)
  cases left with
  | ofNat left =>
    cases right with
    | ofNat right =>
      have digits : Nat.toDigits 10 left = Nat.toDigits 10 right := by
        simpa [Int.repr] using congrArg String.toList same
      exact congrArg Int.ofNat (to_digits_injective digits)
    | negSucc right => exact absurd same (signed left (right + 1))
  | negSucc left =>
    cases right with
    | ofNat right => exact absurd same.symm (signed right (left + 1))
    | negSucc right =>
      have digits : Nat.toDigits 10 (left + 1) = Nat.toDigits 10 (right + 1) := by
        simpa [Int.repr] using congrArg String.toList same
      rw [Nat.add_right_cancel (to_digits_injective digits)]

theorem colon_free_repr (value : Int) : ':' ∉ value.repr.toList := by
  intro member
  cases value with
  | ofNat value => exact absurd (digits_of_nat_repr member) (by decide)
  | negSucc value =>
    have later : ':' ∈ (Nat.repr (value + 1)).toList := by
      simpa [Int.repr] using member
    exact absurd (digits_of_nat_repr later) (by decide)

theorem colon_free_device {device : String} (shaped : mailboxDevice device = true ∨ device = "") :
    ':' ∉ device.toList := by
  intro member
  rcases shaped with valid | empty
  · simp only [mailboxDevice, Bool.and_eq_true, List.all_eq_true] at valid
    exact absurd (valid.2 ':' member) (by decide)
  · rw [empty] at member
    simp at member

theorem hex_digit_cases : ∀ value < 16, hexDigit value ≠ ':' ∧
    ∀ other < 16, hexDigit value = hexDigit other → value = other := by
  decide

theorem hex_bytes_injective (left right : Bytes)
    (same : (left.flatMap fun byte => [hexDigit (byte.toNat / 16), hexDigit (byte.toNat % 16)]) =
      right.flatMap fun byte => [hexDigit (byte.toNat / 16), hexDigit (byte.toNat % 16)]) :
    left = right := by
  induction left generalizing right with
  | nil =>
    cases right with
    | nil => rfl
    | cons byte rest => simp at same
  | cons byte rest induction =>
    cases right with
    | nil => simp at same
    | cons other others =>
      simp only [flatMap_cons, cons_append, nil_append, List.cons.injEq] at same
      obtain ⟨high, low, later⟩ := same
      have small := byte.toNat_lt
      have otherSmall := other.toNat_lt
      have upper := (hex_digit_cases (byte.toNat / 16) (by omega)).2 _ (by omega) high
      have lower := (hex_digit_cases (byte.toNat % 16) (by omega)).2 _ (by omega) low
      have equal : byte = other := UInt8.toNat_inj.mp (by omega)
      rw [equal, induction others later]

theorem hex_encode_injective {left right : Bytes} (same : hexEncode left = hexEncode right) :
    left = right := by
  apply hex_bytes_injective
  exact String.ofList_injective same

theorem colon_free_hex (bytes : Bytes) : ':' ∉ (hexEncode bytes).toList := by
  intro member
  simp only [hexEncode, String.toList_ofList, mem_flatMap] at member
  obtain ⟨byte, -, digit⟩ := member
  have small := byte.toNat_lt
  have high := (hex_digit_cases (byte.toNat / 16) (by omega)).1
  have low := (hex_digit_cases (byte.toNat % 16) (by omega)).1
  simp only [mem_cons, not_mem_nil, or_false] at digit
  rcases digit with first | second
  · exact high first.symm
  · exact low second.symm

theorem split_at_first {left right before after : List Char} (plain : ':' ∉ left)
    (otherPlain : ':' ∉ before) (same : left ++ ':' :: right = before ++ ':' :: after) :
    left = before ∧ right = after := by
  induction left generalizing before with
  | nil =>
    cases before with
    | nil => simpa using same
    | cons c rest =>
      simp only [nil_append, cons_append, List.cons.injEq] at same
      rw [← same.1] at otherPlain
      simp at otherPlain
  | cons head tail induction =>
    cases before with
    | nil =>
      simp only [nil_append, cons_append, List.cons.injEq] at same
      rw [same.1] at plain
      simp at plain
    | cons c rest =>
      simp only [cons_append, List.cons.injEq] at same
      simp only [mem_cons, not_or] at plain otherPlain
      obtain ⟨tails, rights⟩ := induction plain.2 otherPlain.2 same.2
      rw [same.1, tails]
      exact ⟨rfl, rights⟩

theorem split_at_last {left right before after : List Char} (plain : ':' ∉ right)
    (otherPlain : ':' ∉ after) (same : left ++ ':' :: right = before ++ ':' :: after) :
    left = before ∧ right = after := by
  have reversed : right.reverse ++ ':' :: left.reverse = after.reverse ++ ':' :: before.reverse := by
    simpa using congrArg List.reverse same
  obtain ⟨rights, lefts⟩ := split_at_first (by simpa using plain) (by simpa using otherPlain) reversed
  exact ⟨reverse_injective lefts, reverse_injective rights⟩

theorem action_text_plain (action : MailboxAction) : ':' ∉ action.text.toList := by
  cases action <;> decide

theorem action_text_injective {left right : MailboxAction} (same : left.text = right.text) :
    left = right := by
  cases left <;> cases right <;> simp [MailboxAction.text] at same ⊢

theorem auth_message_injective {action other : MailboxAction} {host device host' device' : String}
    {ts ts' : Int} {hash hash' : Bytes} (plain : ':' ∉ device.toList) (plain' : ':' ∉ device'.toList)
    (same : mailboxAuthMessage action host device ts (hexEncode hash) =
      mailboxAuthMessage other host' device' ts' (hexEncode hash')) :
    action = other ∧ host = host' ∧ device = device' ∧ ts = ts' ∧ hash = hash' := by
  have colon : ":".toList = [':'] := by simp
  have lists : ("awful-mailbox:v2:".toList ++ (action.text.toList ++ ':' :: (host.toList ++
      ':' :: (device.toList ++ ':' :: (ts.repr.toList ++ ':' :: (hexEncode hash).toList))))) =
      "awful-mailbox:v2:".toList ++ (other.text.toList ++ ':' :: (host'.toList ++
      ':' :: (device'.toList ++ ':' :: (ts'.repr.toList ++ ':' :: (hexEncode hash').toList)))) := by
    have written := congrArg String.toList same
    unfold mailboxAuthMessage at written
    simpa only [String.toList_append, colon, append_assoc, singleton_append,
      cons_append, nil_append] using written
  have lists := append_cancel_left lists
  obtain ⟨actions, hosts⟩ :=
    split_at_first (action_text_plain action) (action_text_plain other) lists
  have regrouped : ((host.toList ++ ':' :: device.toList) ++ ':' :: ts.repr.toList) ++
      ':' :: (hexEncode hash).toList =
      ((host'.toList ++ ':' :: device'.toList) ++ ':' :: ts'.repr.toList) ++
      ':' :: (hexEncode hash').toList := by
    simpa using hosts
  obtain ⟨timed, hashes⟩ := split_at_last (colon_free_hex hash) (colon_free_hex hash') regrouped
  obtain ⟨named, times⟩ := split_at_last (colon_free_repr ts) (colon_free_repr ts') timed
  obtain ⟨hostLists, devices⟩ := split_at_last plain plain' named
  exact ⟨action_text_injective (String.toList_injective actions),
    String.toList_injective hostLists, String.toList_injective devices,
    int_repr_injective (String.toList_injective times),
    hex_encode_injective (String.toList_injective hashes)⟩

end Texts

def proofWindow : Int := mailboxAuthSkew + mailboxAuthFutureSkew + second

def AcceptedProof.expires (proof : AcceptedProof) : Int :=
  proof.request.ts * second + (mailboxAuthSkew + second)

def FewAccepted (accepted : List AcceptedProof) : Prop :=
  ∀ now, (accepted.countP fun proof =>
    decide (now < proof.usedAt + proofWindow) && decide (proof.usedAt ≤ now)) < mailboxSeenMax

section Cache

/-- The proofs accepted so far, as a list that the cache is about: the order of the
cache is its tail, in the order of the clock, and a signature has one time. -/
structure History (accepted : List AcceptedProof) (now : Int) : Prop where
  sorted : accepted.Pairwise fun earlier later => earlier.usedAt ≤ later.usedAt
  past : ∀ proof ∈ accepted, proof.usedAt ≤ now
  window : ∀ proof ∈ accepted, proof.expires ≤ proof.usedAt + proofWindow
  one_time : ∀ proof ∈ accepted, ∀ other ∈ accepted, proof.sig = other.sig →
    proof.request.ts = other.request.ts

structure Remembers (seen : OrderedMap Bytes Int) (accepted kept : List AcceptedProof) (now : Int) :
    Prop where
  tail : ∃ gone, accepted = gone ++ kept
  live : ∀ proof ∈ accepted, now < proof.expires → seen.get proof.sig = some proof.expires
  keys : ∀ sig, seen.get sig ≠ none → sig ∈ kept.map AcceptedProof.sig
  known : ∀ sig expires, seen.get sig = some expires →
    ∃ proof ∈ accepted, proof.sig = sig ∧ expires = proof.expires

variable {seen : OrderedMap Bytes Int} {accepted kept : List AcceptedProof} {now : Int}

theorem Remembers.later (remembers : Remembers seen accepted kept now) {later : Int}
    (after : now ≤ later) : Remembers seen accepted kept later where
  tail := remembers.tail
  live := by
    intro proof member fresh
    exact remembers.live proof member (by omega)
  keys := remembers.keys
  known := remembers.known

section

variable (history : History accepted now)
include history

theorem History.later {later : Int} (after : now ≤ later) :
    History accepted later where
  sorted := history.sorted
  past := by
    intro proof member
    have before := history.past proof member
    omega
  window := history.window
  one_time := history.one_time

theorem History.same_expiry {proof other : AcceptedProof}
    (member : proof ∈ accepted) (otherMember : other ∈ accepted) (same : proof.sig = other.sig) :
    proof.expires = other.expires := by
  unfold AcceptedProof.expires
  rw [history.one_time proof member other otherMember same]

theorem History.after_front {front proof : AcceptedProof}
    {rest gone : List AcceptedProof} (split : accepted = gone ++ front :: rest)
    (member : proof ∈ front :: rest) : front.usedAt ≤ proof.usedAt := by
  have pairs := history.sorted
  rw [split, pairwise_append, pairwise_cons] at pairs
  rcases mem_cons.mp member with same | later
  · exact Int.le_of_eq (by rw [same])
  · exact pairs.2.1.1 proof later

theorem History.few_from (few : FewAccepted accepted)
    {front : AcceptedProof} {rest gone : List AcceptedProof} (split : accepted = gone ++ front :: rest)
    (live : now < front.usedAt + proofWindow) : rest.length + 1 < mailboxSeenMax := by
  have counted : ∀ proof ∈ front :: rest,
      (decide (now < proof.usedAt + proofWindow) && decide (proof.usedAt ≤ now)) = true := by
    intro proof member
    have listed : proof ∈ accepted := by
      rw [split]
      exact mem_append_right gone member
    have after := history.after_front split member
    have before := history.past proof listed
    simp only [Bool.and_eq_true, decide_eq_true_eq]
    omega
  have all := countP_eq_length.mpr counted
  have bound := few now
  rw [split, countP_append, all] at bound
  simp only [length_cons] at bound
  omega

theorem Remembers.drop {front : AcceptedProof}
    {rest : List AcceptedProof} (remembers : Remembers seen accepted (front :: rest) now)
    (expired : front.expires ≤ now) : Remembers (seen.delete front.sig) accepted rest now := by
  obtain ⟨gone, split⟩ := remembers.tail
  have listed : front ∈ accepted := by
    rw [split]
    simp
  refine ⟨⟨gone ++ [front], by simpa using split⟩, ?_, ?_, ?_⟩
  · intro proof member fresh
    have different : proof.sig ≠ front.sig := by
      intro same
      have equal := history.same_expiry member listed same
      omega
    rw [get_delete_other _ _ _ different]
    exact remembers.live proof member fresh
  · intro sig stored
    rw [get_delete] at stored
    split_ifs at stored with same
    · exact absurd rfl stored
    · have found := remembers.keys sig stored
      simp only [map_cons, mem_cons] at found
      exact found.resolve_left same
  · intro sig expires stored
    rw [get_delete] at stored
    split_ifs at stored
    exact remembers.known sig expires stored

theorem drop_seen_remembers (few : FewAccepted accepted)
    (remembers : Remembers seen accepted kept now) :
    ∃ left, (dropSeen now seen (kept.map AcceptedProof.sig)).order = left.map AcceptedProof.sig ∧
      Remembers (dropSeen now seen (kept.map AcceptedProof.sig)).seen accepted left now ∧
      (∀ proof ∈ left, now < proof.usedAt + proofWindow) ∧ left.length < mailboxSeenMax := by
  induction kept generalizing seen with
  | nil => exact ⟨[], rfl, remembers, by simp, by decide⟩
  | cons front rest induction =>
    obtain ⟨gone, split⟩ := remembers.tail
    have listed : front ∈ accepted := by
      rw [split]
      simp
    have reach := history.window front listed
    simp only [map_cons, dropSeen, length_map]
    split_ifs with stays
    · obtain ⟨stored, short⟩ := stays
      rw [Option.any_eq_true] at stored
      obtain ⟨expires, found, fresh⟩ := stored
      obtain ⟨proof, member, same, equal⟩ := remembers.known _ _ found
      have expiry := history.same_expiry member listed same
      have later : now < front.usedAt + proofWindow := by
        have := of_decide_eq_true fresh
        omega
      refine ⟨front :: rest, rfl, remembers, ?_, by simpa using short⟩
      intro other kept
      have after := history.after_front split kept
      omega
    · have expired : front.expires ≤ now := by
        by_contra fresh
        have found := remembers.live front listed (by omega)
        apply stays
        refine ⟨?_, history.few_from few split (by omega)⟩
        rw [found, any_some]
        exact decide_eq_true (by omega)
      exact induction (remembers.drop history expired)

theorem History.append {proof : AcceptedProof}
    (used : proof.usedAt = now) (window : proof.expires ≤ proof.usedAt + proofWindow)
    (one_time : ∀ other ∈ accepted, proof.sig = other.sig → proof.request.ts = other.request.ts) :
    History (accepted ++ [proof]) now where
  sorted := by
    rw [pairwise_append]
    refine ⟨history.sorted, pairwise_singleton _ _, ?_⟩
    intro earlier member later single
    rw [mem_singleton.mp single, used]
    exact history.past earlier member
  past := by
    intro other member
    rcases mem_append.mp member with old | new
    · exact history.past other old
    · rw [mem_singleton.mp new]
      exact Int.le_of_eq used
  window := by
    intro other member
    rcases mem_append.mp member with old | new
    · exact history.window other old
    · rw [mem_singleton.mp new]
      exact window
  one_time := by
    intro one member other otherMember same
    rcases mem_append.mp member with old | new
    · rcases mem_append.mp otherMember with otherOld | otherNew
      · exact history.one_time one old other otherOld same
      · rw [mem_singleton.mp otherNew] at same ⊢
        exact (one_time one old same.symm).symm
    · rw [mem_singleton.mp new] at same ⊢
      rcases mem_append.mp otherMember with otherOld | otherNew
      · exact one_time other otherOld same
      · rw [mem_singleton.mp otherNew]

end

theorem Remembers.append (remembers : Remembers seen accepted kept now) {proof : AcceptedProof}
    (unseen : proof.sig ∉ accepted.map AcceptedProof.sig) :
    Remembers (seen.set proof.sig proof.expires) (accepted ++ [proof]) (kept ++ [proof]) now where
  tail := by
    obtain ⟨gone, split⟩ := remembers.tail
    exact ⟨gone, by rw [split, append_assoc]⟩
  live := by
    intro other member fresh
    rw [get_set]
    rcases mem_append.mp member with old | new
    · split_ifs with same
      · exact absurd (mem_map.mpr ⟨other, old, same⟩) unseen
      · exact remembers.live other old fresh
    · rw [mem_singleton.mp new, if_pos rfl]
  keys := by
    intro sig stored
    rw [get_set] at stored
    split_ifs at stored with same
    · simp [same]
    · have known := remembers.keys sig stored
      simp only [map_append, mem_append]
      exact Or.inl known
  known := by
    intro sig expires stored
    rw [get_set] at stored
    split_ifs at stored with same
    · cases stored
      exact ⟨proof, by simp, same.symm, rfl⟩
    · obtain ⟨other, member, found, equal⟩ := remembers.known sig expires stored
      exact ⟨other, mem_append_left _ member, found, equal⟩

end Cache

section Calls

variable {site : AuthSite} {cache : SeenProofs} {call : AuthCall}

structure Proven (site : AuthSite) (cache : SeenProofs) (call : AuthCall) (proof : AcceptedProof)
    (next : SeenProofs) : Prop where
  asked : proof.request =
    ⟨call.action, call.host.toLower, call.device, proof.request.ts, call.body⟩
  used : proof.usedAt = call.usedAt
  young : call.checkedAt - proof.request.ts * second ≤ mailboxAuthSkew
  due : -mailboxAuthFutureSkew ≤ call.checkedAt - proof.request.ts * second
  verified : ∃ key, didToPubKey site proof.did = .ok key ∧ site.smallOrder key = false ∧
    site.verify key (proof.request.message site) proof.sig = true
  first : mailboxAuthFirstUse cache proof.sig proof.request.ts call.usedAt = (true, next)

theorem verified_signature {did : String} {ts : Int} {sig : List Char} {message box : String}
    {now : Int} (verified : verifyMailboxSignature site did ts sig message now = .ok box) :
    (now - ts * second ≤ mailboxAuthSkew ∧ -mailboxAuthFutureSkew ≤ now - ts * second) ∧
      ∃ key bytes, didToPubKey site did = .ok key ∧ decodeBase64 false sig = some bytes ∧
        site.smallOrder key = false ∧ site.verify key message bytes = true := by
  unfold verifyMailboxSignature at verified
  dsimp only at verified
  split at verified
  · cases verified
  rename_i fresh
  split at verified
  · cases verified
  rename_i key named
  split at verified
  · cases verified
  rename_i bytes decoded
  split at verified
  · cases verified
  rename_i large
  split at verified
  · cases verified
  rename_i valid
  refine ⟨by omega, key, bytes, named, decoded, by simpa using large, by simpa using valid⟩

theorem authenticate_cases (site : AuthSite) (cache : SeenProofs) (call : AuthCall) :
    ((authenticateMailbox site cache call).1.proofs = [] ∧
      (authenticateMailbox site cache call).2 = cache) ∨
    (∃ sig ts, (authenticateMailbox site cache call).1.proofs = [] ∧
      mailboxAuthFirstUse cache sig ts call.usedAt =
        (false, (authenticateMailbox site cache call).2)) ∨
    (∃ proof, (authenticateMailbox site cache call).1.proofs = [proof] ∧
      Proven site cache call proof (authenticateMailbox site cache call).2) := by
  generalize handled : authenticateMailbox site cache call = result
  unfold authenticateMailbox at handled
  split at handled
  · rename_i did time sig _
    split at handled
    · subst handled
      exact Or.inl ⟨rfl, rfl⟩
    rename_i ts _
    dsimp only at handled
    split at handled
    · subst handled
      exact Or.inl ⟨rfl, rfl⟩
    rename_i box verified
    split at handled
    · subst handled
      exact Or.inl ⟨rfl, rfl⟩
    rename_i bytes strict
    obtain ⟨⟨young, due⟩, key, lenient, named, decoded, large, valid⟩ := verified_signature verified
    rw [strict_lenient strict] at decoded
    cases decoded
    split at handled
    · rename_i accepted
      subst handled
      refine Or.inr (Or.inr ⟨_, rfl, rfl, rfl, young, due, ⟨key, named, large, valid⟩, ?_⟩)
      exact Prod.ext accepted rfl
    · rename_i replayed
      subst handled
      refine Or.inr (Or.inl ⟨bytes, ts, rfl, ?_⟩)
      exact Prod.ext (by simpa using replayed) rfl
  · subst handled
    exact Or.inl ⟨rfl, rfl⟩
  · split at handled
    · subst handled
      exact Or.inl ⟨rfl, rfl⟩
    · split at handled
      · subst handled
        exact Or.inl ⟨rfl, rfl⟩
      · subst handled
        exact Or.inl ⟨rfl, rfl⟩

end Calls

/-- The signatures key holders have made: none is forged, and two are the same
exactly when they are one key's over one message. -/
structure SignedBy (site : AuthSite) (Signed : Bytes → String → Bytes → Prop) : Prop where
  unforgeable : ∀ key message sig, site.smallOrder key = false →
    site.verify key message sig = true → Signed key message sig
  unique : ∀ key message sig key' message' sig', Signed key message sig →
    Signed key' message' sig' → (sig = sig' ↔ key = key' ∧ message = message')

def MailboxRequest.Shaped (request : MailboxRequest) : Prop :=
  mailboxDevice request.device = true ∨ request.device = ""

/-- Each proof is used once, for what it was signed for, and the cache stays small. -/
structure ProofsOnce (site : AuthSite) (Signed : Bytes → String → Bytes → Prop)
    (world : AuthWorld) : Prop where
  once : (world.accepted.map AcceptedProof.sig).Nodup
  signed : ∀ proof ∈ world.accepted, ∃ key, didToPubKey site proof.did = .ok key ∧
    Signed key (proof.request.message site) proof.sig
  exact_request : ∀ proof ∈ world.accepted, ∀ key (request : MailboxRequest), request.Shaped →
    Signed key (request.message site) proof.sig → request = proof.request ∨
      (request.body ≠ proof.request.body ∧
        site.sha256 request.body = site.sha256 proof.request.body)
  bounded : world.cache.seen.size ≤ mailboxSeenMax ∧ world.cache.order.length ≤ mailboxSeenMax
  dropped : ∀ sig ts now, world.clock ≤ now → ∀ kept,
    (mailboxAuthFirstUse world.cache sig ts now).2.seen.get kept ≠ none →
    kept = sig ∨ ∃ proof ∈ world.accepted, proof.sig = kept ∧ now < proof.usedAt + proofWindow

/-- The two readings of the clock in one call are less than a second apart. -/
def promptCall (_ : AuthWorld) (call : AuthCall) : Bool :=
  decide (call.usedAt - call.checkedAt < second)

structure AuthKept (site : AuthSite) (Signed : Bytes → String → Bytes → Prop)
    (world : AuthWorld) : Prop where
  history : History world.accepted world.clock
  cached : ∃ kept, world.cache.order = kept.map AcceptedProof.sig ∧
    Remembers world.cache.seen world.accepted kept world.clock ∧ kept.length ≤ mailboxSeenMax
  once : (world.accepted.map AcceptedProof.sig).Nodup
  signed : ∀ proof ∈ world.accepted, ∃ key, didToPubKey site proof.did = .ok key ∧
    Signed key (proof.request.message site) proof.sig
  shaped : ∀ proof ∈ world.accepted, proof.request.Shaped

section Worlds

variable {site : AuthSite} {Signed : Bytes → String → Bytes → Prop} {world next : AuthWorld}
  {call : AuthCall}

theorem auth_start_kept (clock : Int) : AuthKept site Signed (AuthWorld.start clock) where
  history := by
    refine ⟨List.Pairwise.nil, ?_, ?_, ?_⟩
    · nofun
    · nofun
    · nofun
  cached := by
    refine ⟨[], rfl, ⟨⟨[], rfl⟩, ?_, ?_, ?_⟩, Nat.zero_le _⟩
    · nofun
    · intro sig stored
      exact absurd rfl stored
    · nofun
  once := nodup_nil
  signed := nofun
  shaped := nofun

theorem SignedBy.one_request (signatures : SignedBy site Signed) {left right : MailboxRequest}
    {key key' sig : Bytes} (shaped : left.Shaped) (otherShaped : right.Shaped)
    (signed : Signed key (left.message site) sig) (otherSigned : Signed key' (right.message site) sig) :
    left.action = right.action ∧ left.host = right.host ∧ left.device = right.device ∧
      left.ts = right.ts ∧ site.sha256 left.body = site.sha256 right.body := by
  have same := (signatures.unique _ _ _ _ _ _ signed otherSigned).mp rfl
  exact auth_message_injective (colon_free_device shaped) (colon_free_device otherShaped) same.2

theorem FewAccepted.of_append {accepted more : List AcceptedProof}
    (few : FewAccepted (accepted ++ more)) : FewAccepted accepted := by
  intro now
  have bound := few now
  rw [countP_append] at bound
  omega

section

variable (kept : AuthKept site Signed world)
include kept

theorem AuthKept.advance {clock : Int}
    (after : world.clock ≤ clock) : AuthKept site Signed { world with clock := clock } where
  history := kept.history.later after
  cached := by
    obtain ⟨list, ordered, remembers, short⟩ := kept.cached
    exact ⟨list, ordered, remembers.later after, short⟩
  once := kept.once
  signed := kept.signed
  shaped := kept.shaped

theorem AuthKept.after_drop (few : FewAccepted world.accepted) :
    ∃ left, (dropSeen world.clock world.cache.seen world.cache.order).order =
        left.map AcceptedProof.sig ∧
      Remembers (dropSeen world.clock world.cache.seen world.cache.order).seen world.accepted left
        world.clock ∧
      (∀ proof ∈ left, world.clock < proof.usedAt + proofWindow) ∧ left.length < mailboxSeenMax := by
  obtain ⟨list, ordered, remembers, -⟩ := kept.cached
  rw [ordered]
  exact drop_seen_remembers kept.history few remembers

theorem AuthKept.replayed (few : FewAccepted world.accepted)
    {sig : Bytes} {ts : Int} {cache : SeenProofs}
    (refused : mailboxAuthFirstUse world.cache sig ts world.clock = (false, cache)) :
    AuthKept site Signed { world with cache := cache } := by
  obtain ⟨left, ordered, remembers, -, short⟩ := kept.after_drop few
  unfold mailboxAuthFirstUse at refused
  dsimp only at refused
  split at refused
  · cases refused
    exact ⟨kept.history, ⟨left, ordered, remembers, Nat.le_of_lt short⟩, kept.once, kept.signed,
      kept.shaped⟩
  · cases refused

theorem AuthKept.first_used (signatures : SignedBy site Signed) (few : FewAccepted world.accepted)
    {proof : AcceptedProof} {cache : SeenProofs} (proven : Proven site world.cache call proof cache)
    (atUse : world.clock = call.usedAt) (orderly : call.checkedAt ≤ call.usedAt)
    (prompt : call.usedAt - call.checkedAt < second) (device : proof.request.Shaped) :
    AuthKept site Signed ⟨cache, world.clock, world.accepted ++ [proof]⟩ := by
  obtain ⟨left, ordered, remembers, -, short⟩ := kept.after_drop few
  obtain ⟨key, named, large, valid⟩ := proven.verified
  have signed := signatures.unforgeable _ _ _ large valid
  have young := proven.young
  have due := proven.due
  have used := proven.used
  have fresh : world.clock < proof.expires := by
    unfold AcceptedProof.expires
    omega
  have window : proof.expires ≤ proof.usedAt + proofWindow := by
    unfold AcceptedProof.expires proofWindow
    omega
  have one_time : ∀ other ∈ world.accepted, proof.sig = other.sig →
      proof.request.ts = other.request.ts := by
    intro other member same
    obtain ⟨otherKey, -, otherSigned⟩ := kept.signed other member
    rw [← same] at otherSigned
    exact (signatures.one_request device (kept.shaped other member) signed otherSigned).2.2.2.1
  have first := proven.first
  unfold mailboxAuthFirstUse at first
  dsimp only at first
  rw [← atUse] at first
  split at first
  · cases first
  rename_i unknown
  have unseen : proof.sig ∉ world.accepted.map AcceptedProof.sig := by
    intro member
    obtain ⟨other, listed, same⟩ := mem_map.mp member
    have equal : proof.expires = other.expires := by
      unfold AcceptedProof.expires
      rw [one_time other listed same.symm]
    have found := remembers.live other listed (by omega)
    apply unknown
    rw [← same, found, any_some]
    exact decide_eq_true (by omega)
  cases first
  refine ⟨kept.history.append (by omega) window one_time,
    ⟨left ++ [proof], by simp [ordered], remembers.append unseen, ?_⟩, ?_, ?_, ?_⟩
  · rw [length_append, length_singleton]
    exact short
  · rw [map_append, nodup_append]
    refine ⟨kept.once, by simp, ?_⟩
    intro one member other single same
    simp only [map_cons, map_nil, mem_singleton] at single
    rw [same, single] at member
    exact unseen member
  · intro other member
    rcases mem_append.mp member with old | new
    · exact kept.signed other old
    · rw [mem_singleton.mp new]
      exact ⟨key, named, signed⟩
  · intro other member
    rcases mem_append.mp member with old | new
    · exact kept.shaped other old
    · rw [mem_singleton.mp new]
      exact device

end

theorem shaped_of_allowed (allowed : deviceAllowed call = true) {proof : AcceptedProof}
    {cache next : SeenProofs} (proven : Proven site cache call proof next) :
    proof.request.Shaped := by
  have device : proof.request.device = call.device := by rw [proven.asked]
  unfold MailboxRequest.Shaped
  rw [device]
  unfold deviceAllowed at allowed
  rw [Bool.or_eq_true, Bool.and_eq_true, beq_iff_eq] at allowed
  exact allowed.imp id And.left

theorem auth_step_kept (signatures : SignedBy site Signed) (kept : AuthKept site Signed world)
    (prompt : promptCall world call = true) (few : FewAccepted next.accepted)
    (stepped : authStep site world call = some next) : AuthKept site Signed next := by
  unfold authStep at stepped
  split at stepped
  · rename_i ordered
    cases stepped
    have earlier : FewAccepted world.accepted := few.of_append
    have now := kept.advance (Int.le_trans ordered.1 ordered.2)
    unfold handleAuthenticated
    split
    · simpa [AuthOutcome.proofs] using now
    · rename_i allowed
      rcases authenticate_cases site world.cache call with
        ⟨none_proven, same⟩ | ⟨sig, ts, none_proven, refused⟩ | ⟨proof, one, proven⟩
      · rw [none_proven, same, append_nil]
        exact now
      · rw [none_proven, append_nil]
        exact now.replayed earlier refused
      · rw [one]
        exact now.first_used signatures earlier proven rfl ordered.2
          (of_decide_eq_true prompt) (shaped_of_allowed (by simpa using allowed) proven)
  · cases stepped

theorem AuthKept.size_bounded (kept : AuthKept site Signed world) :
    world.cache.seen.size ≤ mailboxSeenMax ∧ world.cache.order.length ≤ mailboxSeenMax := by
  obtain ⟨list, ordered, remembers, short⟩ := kept.cached
  have within : world.cache.seen.keys ⊆ list.map AcceptedProof.sig := by
    intro sig member
    exact remembers.keys sig (mem_keys_iff.mp member)
  have fewer : world.cache.seen.keys.length ≤ (list.map AcceptedProof.sig).length :=
    List.Nodup.length_le_of_subset world.cache.seen.distinct within
  have sized : world.cache.seen.keys.length = world.cache.seen.size := by
    simp [OrderedMap.keys, OrderedMap.size]
  rw [length_map, sized] at fewer
  rw [ordered, length_map]
  omega

theorem AuthKept.drops_expired (kept : AuthKept site Signed world)
    (few : FewAccepted world.accepted) {sig : Bytes} {ts now : Int} (after : world.clock ≤ now)
    {stored : Bytes} (found : (mailboxAuthFirstUse world.cache sig ts now).2.seen.get stored ≠ none) :
    stored = sig ∨ ∃ proof ∈ world.accepted, proof.sig = stored ∧
      now < proof.usedAt + proofWindow := by
  obtain ⟨left, -, remembers, recent, -⟩ := (kept.advance after).after_drop few
  have known : ∀ key, (dropSeen now world.cache.seen world.cache.order).seen.get key ≠ none →
      ∃ proof ∈ world.accepted, proof.sig = key ∧ now < proof.usedAt + proofWindow := by
    intro key present
    obtain ⟨proof, member, same⟩ := mem_map.mp (remembers.keys key present)
    obtain ⟨gone, split⟩ := remembers.tail
    have listed : proof ∈ world.accepted := by
      rw [show world.accepted = gone ++ left from split]
      exact mem_append_right gone member
    exact ⟨proof, listed, same, recent proof member⟩
  unfold mailboxAuthFirstUse at found
  dsimp only at found
  split at found
  · exact Or.inr (known stored found)
  · rw [get_set] at found
    split_ifs at found with same
    · exact Or.inl same
    · exact Or.inr (known stored found)

end Worlds

/-- In every run whose calls read their two times within a second, every proof is
accepted once. -/
theorem mailbox_proofs_work_once (site : AuthSite) {Signed : Bytes → String → Bytes → Prop}
    (signatures : SignedBy site Signed) (clock : Int) (calls : List AuthCall) {world : AuthWorld}
    (ran : run (authStep site) (AuthWorld.start clock) calls = some world)
    (prompt : Meets (authStep site) (fun state call => promptCall state call = true)
      (AuthWorld.start clock) calls)
    (few : FewAccepted world.accepted) : ProofsOnce site Signed world := by
  have keeps : ∀ (state : AuthWorld) (call : AuthCall) (next : AuthWorld),
      (FewAccepted state.accepted → AuthKept site Signed state) → promptCall state call = true →
      authStep site state call = some next →
      FewAccepted next.accepted → AuthKept site Signed next := by
    intro state call next held met stepped fewer
    have earlier : FewAccepted state.accepted := by
      unfold authStep at stepped
      split at stepped
      · cases stepped
        exact fewer.of_append
      · cases stepped
    exact auth_step_kept signatures (held earlier) met fewer stepped
  have kept := run_keeps keeps (fun _ => auth_start_kept clock) prompt ran few
  refine ⟨kept.once, kept.signed, ?_, kept.size_bounded, ?_⟩
  · intro proof member key request shaped signed
    obtain ⟨signer, -, proofSigned⟩ := kept.signed proof member
    obtain ⟨action, host, device, ts, hash⟩ :=
      signatures.one_request shaped (kept.shaped proof member) signed proofSigned
    by_cases body : request.body = proof.request.body
    · left
      cases request
      cases found : proof.request
      simp only [found] at action host device ts body
      simp [action, host, device, ts, body]
    · exact Or.inr ⟨body, hash⟩
  · intro sig ts now after stored found
    exact kept.drops_expired few after found

section Replay

def aliceKey : Bytes :=
  [3, 161, 7, 191, 243, 206, 16, 190, 29, 112, 221, 24, 231, 75, 192, 153, 103, 228, 214, 48,
    155, 165, 13, 95, 29, 220, 134, 100, 18, 85, 49, 184]

def aliceProof : Bytes :=
  [204, 96, 30, 191, 104, 19, 24, 75, 136, 16, 191, 41, 243, 62, 194, 184, 60, 122, 243, 211,
    84, 199, 17, 233, 253, 180, 252, 53, 128, 12, 189, 77, 151, 113, 209, 169, 86, 21, 61,
    240, 235, 40, 60, 24, 166, 215, 63, 240, 222, 130, 90, 32, 29, 244, 21, 128, 58, 37, 216,
    184, 133, 224, 160, 8]

def collectSite : AuthSite where
  base58Decode text :=
    if text = "6MkehRgf7yJbgaGfYsdoAsKdBPE3dj2CYhowQdcjqSJgvVd" then some (0xed :: 0x01 :: aliceKey)
    else none
  sha256 bytes :=
    if bytes = [123, 125] then
      [68, 19, 111, 163, 85, 179, 103, 138, 17, 70, 173, 22, 247, 232, 100, 158, 148, 251, 79,
    194, 31, 231, 126, 131, 16, 192, 96, 246, 28, 170, 255, 138]
    else
      [182, 41, 159, 75, 156, 135, 163, 165, 133, 225, 86, 102, 179, 238, 169, 87, 82, 67, 29,
    120, 104, 63, 10, 251, 174, 49, 8, 189, 154, 30, 150, 173]
  smallOrder _ := false
  verify key message sig :=
    decide (key = aliceKey) && (decide (sig = aliceProof) && decide (message =
      "awful-mailbox:v2:collect:relay.test::0:44136fa355b3678a1146ad16f7e8649e94fb4fc21fe77e8310c060f61caaff8a"))

def AliceSigned (key : Bytes) (message : String) (sig : Bytes) : Prop :=
  collectSite.verify key message sig = true

theorem alice_signs : SignedBy collectSite AliceSigned where
  unforgeable := fun _ _ _ _ valid => valid
  unique := by
    intro key message sig key' message' sig' signed otherSigned
    simp only [AliceSigned, collectSite, Bool.and_eq_true, decide_eq_true_eq] at signed otherSigned
    obtain ⟨rfl, rfl, rfl⟩ := signed
    obtain ⟨rfl, rfl, rfl⟩ := otherSigned
    simp

def collectAt (checkedAt usedAt : Int) : AuthCall where
  action := .collect
  authorization := "AwfulMailbox-v2 did:key:6MkehRgf7yJbgaGfYsdoAsKdBPE3dj2CYhowQdcjqSJgvVd 0 zGAev2gTGEuIEL8p8z7CuDx689NUxxHp/bT8NYAMvU2XcdGpVhU98OsoPBim1z/w3oJaIB30FYA6Jdi4heCgCA=="
  host := "relay.test"
  body := [123, 125]
  device := ""
  legacyDid := ""
  legacyTs := 0
  legacySig := ""
  checkedAt := checkedAt
  usedAt := usedAt

theorem few_of_short {accepted : List AcceptedProof} (short : accepted.length < mailboxSeenMax) :
    FewAccepted accepted := by
  intro now
  exact Nat.lt_of_le_of_lt countP_le_length short

def slowReplay : List AuthCall := [collectAt 0 0, collectAt (120 * second) (121 * second)]

theorem slow_replay_accepted : ∃ world,
    run (authStep collectSite) (AuthWorld.start 0) slowReplay = some world ∧
      FewAccepted world.accepted ∧ ¬(world.accepted.map AcceptedProof.sig).Nodup := by
  have twice : (run (authStep collectSite) (AuthWorld.start 0) slowReplay).map
      (fun world => world.accepted.map AcceptedProof.sig) = some [aliceProof, aliceProof] := by
    decide +kernel
  obtain ⟨world, ran, sigs⟩ := map_eq_some_iff.mp twice
  have length : world.accepted.length = 2 := by
    have counted := congrArg List.length sigs
    simpa using counted
  refine ⟨world, ran, few_of_short (by rw [length]; decide), ?_⟩
  rw [sigs]
  simp

theorem prompt_replay_refused : ∃ world,
    run (authStep collectSite) (AuthWorld.start 0) [collectAt 0 0, collectAt second second] =
      some world ∧ world.accepted.length = 1 ∧ ProofsOnce collectSite AliceSigned world := by
  have once : (run (authStep collectSite) (AuthWorld.start 0)
      [collectAt 0 0, collectAt second second]).map (fun world => world.accepted.length) =
        some 1 := by
    decide +kernel
  obtain ⟨world, ran, length⟩ := map_eq_some_iff.mp once
  refine ⟨world, ran, length, ?_⟩
  apply mailbox_proofs_work_once collectSite alice_signs 0 _ ran
  · exact ⟨rfl, fun _ _ => ⟨rfl, fun _ _ => trivial⟩⟩
  · exact few_of_short (by rw [length]; decide)

end Replay

end AwfulChat.Relay
