import AwfulChat.Library.NetAddrText

/-!
# Who the client is

`clientip.go`: the address a request is taken to come from, and the budgets it is counted under.
The entries of X-Forwarded-For are believed from a proxy the operator named, and read from the
right, past the operator's own proxies, so what a client put in front of them is never reached.
-/

namespace AwfulChat.Relay.ClientIp

open Library List Option

set_option autoImplicit false

/-- The CIDRs and addresses of TRUSTED_PROXY_CIDRS, and what its hostnames last resolved to. -/
structure TrustedProxySet where
  static : List NetPrefix
  resolved : List NetAddr

def TrustedProxySet.contains (trusted : TrustedProxySet) (address : NetAddr) : Bool :=
  (trusted.static.any fun network => network.contains address.unmap) ||
    decide (address.unmap ∈ trusted.resolved)

/-- What a request says of where it comes from: its socket peer, and each line of the header. -/
structure ForwardedRequest where
  remoteAddr : Bytes
  forwardedFor : List Bytes

section Text

/-- The encodings of the characters that `strings.TrimSpace` trims. -/
def spaces : List Bytes :=
  [[9], [10], [11], [12], [13], [32], [0xC2, 0x85], [0xC2, 0xA0], [0xE1, 0x9A, 0x80]] ++
    ((List.range 11).map (fun low => [0xE2, 0x80, UInt8.ofNat (0x80 + low)]) ++
      [[0xE2, 0x80, 0xA8], [0xE2, 0x80, 0xA9], [0xE2, 0x80, 0xAF], [0xE2, 0x81, 0x9F],
        [0xE3, 0x80, 0x80]])

/-- Each turn takes one space off the front, so it ends within the length. -/
def trimFront (marks : List Bytes) : Nat → Bytes → Bytes
  | 0, input => input
  | fuel + 1, input =>
    match marks.find? fun mark => mark.isPrefixOf input with
    | some mark => trimFront marks fuel (input.drop mark.length)
    | none => input

def trimSpace (input : Bytes) : Bytes :=
  let front := trimFront spaces input.length input
  (trimFront (spaces.map List.reverse) front.length front.reverse).reverse

def splitHostPort (input : Bytes) : Option Bytes :=
  if 58 ∉ input then none
  else
    let last := input.length - 1 - input.reverse.idxOf 58
    if input.head? = some 91 then
      let closing := input.idxOf 93
      if closing + 1 = last ∧ 91 ∉ input.drop 1 ∧ 93 ∉ input.drop (closing + 1) then
        some ((input.take closing).drop 1)
      else none
    else if 58 ∈ input.take last ∨ 91 ∈ input ∨ 93 ∈ input then none
    else some (input.take last)

/-- The entries of the header, over its lines and commas. -/
def forwardedHops (lines : List Bytes) : List Bytes :=
  lines.flatMap fun line => ((line.splitOn 44).map trimSpace).filter fun hop => decide (hop ≠ [])

end Text

section Client

variable (trusted : TrustedProxySet)

def isTrustedProxy (ip : Fin (2 ^ 128)) : Bool := trusted.contains (.v6 ip [])

def ForwardedRequest.remote (r : ForwardedRequest) : Bytes :=
  (splitHostPort r.remoteAddr).getD r.remoteAddr

/-- A hop that is an address and none of the trusted proxies. -/
def clientHop (hop : Bytes) : Option (Fin (2 ^ 128)) :=
  (NetAddr.parseIP hop).filter fun ip => !isTrustedProxy trusted ip

def clientAddr (r : ForwardedRequest) : Bytes :=
  if (NetAddr.parseIP r.remote).any (isTrustedProxy trusted) then
    match (forwardedHops r.forwardedFor).getLast? with
    | none => r.remote
    | some last =>
      match (forwardedHops r.forwardedFor).reverse.findSome? (clientHop trusted) with
      | some ip => NetAddr.ipString ip
      | none => last
  else r.remote

def ipv6AggregateFactor : Nat := 4

/-- The keys of an address: its own, and for IPv6 that of its /48. -/
def bucketsOf : NetAddr → Bytes × Bytes
  | .v4 value => (NetAddr.string (.v4 value), [])
  | .v6 value zone => ((NetAddr.prefixOf 64 (.v6 value zone)).string,
      (NetAddr.prefixOf 48 (.v6 value zone)).string)

def clientBuckets (addr : Bytes) : Bytes × Bytes :=
  match NetAddr.parse addr with
  | none => (addr, [])
  | some address => bucketsOf address.unmap

def cgnatPrefix : NetPrefix := ⟨.v4 ⟨100 * 2 ^ 24 + 64 * 2 ^ 16, by norm_num⟩, 10⟩

def isProxyClassAddr (address : NetAddr) : Bool :=
  address.unmap.isLoopback || address.unmap.isPrivate || address.unmap.isLinkLocalUnicast ||
    address.unmap.isUnspecified || cgnatPrefix.contains address.unmap || trusted.contains address

def exemptFromShares (addr : Bytes) : Bool :=
  match NetAddr.parse addr with
  | none => true
  | some address => isProxyClassAddr trusted address

def shareKey (addr : Bytes) : Bytes :=
  if exemptFromShares trusted addr then []
  else
    match (NetAddr.parse addr).map NetAddr.unmap with
    | none => []
    | some (.v4 value) => NetAddr.string (.v4 value)
    | some address => (address.prefixOf 56).string

def rateKeyIP (addr : Bytes) : Bytes := (clientBuckets addr).1

/-- The buckets one request of a kind is charged to, with their limits. -/
def rateKeys (kind : Bytes) (limit : Nat) (r : ForwardedRequest) :
    List (Bytes × Nat) :=
  let buckets := clientBuckets (clientAddr trusted r)
  if buckets.2 = [] then [(kind ++ buckets.1, limit)]
  else [(kind ++ buckets.1, limit), (kind ++ buckets.2, limit * ipv6AggregateFactor)]

end Client

section Forged

variable {trusted : TrustedProxySet}

/-- What a proxy adds to the header: a line of its own, or an entry behind the last line. -/
structure ForwardedEntry where
  sameLine : Bool
  text : Bytes

def ForwardedEntry.appendTo (lines : List Bytes) (entry : ForwardedEntry) :
    List Bytes :=
  match entry.sameLine, lines.getLast? with
  | true, some last => lines.dropLast ++ [last ++ 44 :: entry.text]
  | _, _ => lines ++ [entry.text]

/-- The header of a client, and what the proxies on the way added to it. -/
def forwarded (client : List Bytes) (entries : List ForwardedEntry) : List Bytes :=
  entries.foldl ForwardedEntry.appendTo client

/-- One entry, which is an address. -/
structure ForwardedEntry.Names (entry : ForwardedEntry) (ip : Fin (2 ^ 128)) : Prop where
  single : 44 ∉ entry.text
  parsed : NetAddr.parseIP (trimSpace entry.text) = some ip

theorem hops_append (one other : List Bytes) :
    forwardedHops (one ++ other) = forwardedHops one ++ forwardedHops other :=
  flatMap_append

theorem hops_line (line : Bytes) : forwardedHops [line] =
    ((line.splitOn 44).map trimSpace).filter fun hop => decide (hop ≠ []) := by
  unfold forwardedHops
  rw [flatMap_singleton]

theorem hops_appended (lines : List Bytes) (entry : ForwardedEntry) :
    forwardedHops (entry.appendTo lines) = forwardedHops lines ++ forwardedHops [entry.text] := by
  unfold ForwardedEntry.appendTo
  split
  · rename_i last _ there
    obtain ⟨front, rfl⟩ : ∃ front, lines = front ++ [last] :=
      ⟨lines.dropLast, (dropLast_append_getLast? last there).symm⟩
    rw [dropLast_concat, hops_append, hops_append, append_assoc]
    congr 1
    rw [hops_line, hops_line, hops_line, splitOn_append_cons_self, map_append,
      filter_append]
  · exact hops_append _ _

variable {entry : ForwardedEntry} {entries : List ForwardedEntry}

theorem hops_entry {ip : Fin (2 ^ 128)} (names : entry.Names ip) :
    forwardedHops [entry.text] = [trimSpace entry.text] := by
  have filled : trimSpace entry.text ≠ [] := by
    intro empty
    have parsed := names.parsed
    rw [empty] at parsed
    cases parsed
  rw [hops_line, splitOn_eq_singleton names.single]
  simp [filled]

theorem hops_forwarded (client : List Bytes) (entries : List ForwardedEntry) :
    forwardedHops (forwarded client entries) =
      forwardedHops client ++ entries.flatMap fun entry => forwardedHops [entry.text] := by
  unfold forwarded
  induction entries generalizing client with
  | nil => simp
  | cons entry rest ih =>
    rw [foldl_cons, ih, hops_appended, flatMap_cons, append_assoc]

theorem client_hop_found {address : Fin (2 ^ 128)} (names : entry.Names address)
    (untrusted : isTrustedProxy trusted address = false)
    (proxies : ∀ other ∈ entries, ∃ ip, other.Names ip ∧ isTrustedProxy trusted ip = true)
    (client : List Bytes) :
    (forwardedHops (forwarded client (entry :: entries))).reverse.findSome? (clientHop trusted) =
      some address := by
  have last : clientHop trusted (trimSpace entry.text) = some address := by
    unfold clientHop
    rw [names.parsed, filter_some, untrusted]
    rfl
  have passed : ∀ hop ∈ entries.flatMap fun entry => forwardedHops [entry.text],
      clientHop trusted hop = none := by
    intro hop mem
    obtain ⟨other, listed, inside⟩ := mem_flatMap.mp mem
    obtain ⟨ip, named, believed⟩ := proxies other listed
    rw [hops_entry named, mem_singleton] at inside
    unfold clientHop
    rw [inside, named.parsed, filter_some, believed]
    rfl
  rw [hops_forwarded, flatMap_cons, hops_entry names, reverse_append,
    reverse_append, append_assoc, List.findSome?_append]
  have none : (entries.flatMap fun entry => forwardedHops [entry.text]).reverse.findSome?
      (clientHop trusted) = none := by
    rw [List.findSome?_eq_none_iff]
    intro hop mem
    exact passed hop (mem_reverse.mp mem)
  rw [none, none_or]
  simp [last]

theorem client_addr_forwarded {remoteAddr : Bytes}
    {address : Fin (2 ^ 128)} {client : List Bytes}
    (peer : (NetAddr.parseIP (ForwardedRequest.mk remoteAddr
      (forwarded client (entry :: entries))).remote).any (isTrustedProxy trusted) = true)
    (names : entry.Names address) (untrusted : isTrustedProxy trusted address = false)
    (proxies : ∀ other ∈ entries, ∃ ip, other.Names ip ∧ isTrustedProxy trusted ip = true) :
    clientAddr trusted ⟨remoteAddr, forwarded client (entry :: entries)⟩ =
      NetAddr.ipString address := by
  have found := client_hop_found names untrusted proxies client
  unfold clientAddr
  rw [if_pos peer]
  cases last : (forwardedHops (forwarded client (entry :: entries))).getLast? with
  | none =>
    rw [List.getLast?_eq_none_iff] at last
    rw [last] at found
    cases found
  | some hop =>
    dsimp only
    rw [found]

theorem client_buckets_ip (address : Fin (2 ^ 128)) :
    clientBuckets (NetAddr.ipString address) =
      bucketsOf (NetAddr.unmap (.v6 address [])) := by
  unfold clientBuckets
  rw [NetAddr.parse_ip_string]
  unfold NetAddr.unmap
  dsimp only
  split_ifs with mapped
  · rfl
  · dsimp only
    rw [if_neg mapped]

/-- Behind a trusted proxy no header a client sends changes what it is counted under, and that is
the address in front of the operator's proxies; from any other peer the header is not read. -/
theorem client_cannot_choose_bucket (trusted : TrustedProxySet) (remoteAddr : Bytes) :
    (∀ (entry : ForwardedEntry) (entries : List ForwardedEntry) (address : Fin (2 ^ 128)),
      (NetAddr.parseIP (ForwardedRequest.mk remoteAddr []).remote).any (isTrustedProxy trusted) =
          true →
        entry.Names address → isTrustedProxy trusted address = false →
          (∀ other ∈ entries, ∃ ip, other.Names ip ∧ isTrustedProxy trusted ip = true) →
            ∀ one other : List Bytes,
              let first : ForwardedRequest := ⟨remoteAddr, forwarded one (entry :: entries)⟩
              let second : ForwardedRequest := ⟨remoteAddr, forwarded other (entry :: entries)⟩
              clientAddr trusted first = clientAddr trusted second ∧
                NetAddr.parseIP (clientAddr trusted first) = some address ∧
                clientBuckets (clientAddr trusted first) =
                  bucketsOf (NetAddr.unmap (.v6 address [])) ∧
                clientBuckets (clientAddr trusted first) =
                  clientBuckets (clientAddr trusted second) ∧
                shareKey trusted (clientAddr trusted first) =
                  shareKey trusted (clientAddr trusted second) ∧
                rateKeyIP (clientAddr trusted first) = rateKeyIP (clientAddr trusted second) ∧
                ∀ kind limit,
                  rateKeys trusted kind limit first = rateKeys trusted kind limit second) ∧
      ((NetAddr.parseIP (ForwardedRequest.mk remoteAddr []).remote).any (isTrustedProxy trusted) =
          false →
        ∀ one other : List Bytes,
          clientAddr trusted ⟨remoteAddr, one⟩ = clientAddr trusted ⟨remoteAddr, other⟩) := by
  constructor
  · intro entry entries address peer names untrusted proxies one other first second
    have one_addr : clientAddr trusted first = NetAddr.ipString address :=
      client_addr_forwarded peer names untrusted proxies
    have other_addr : clientAddr trusted second = NetAddr.ipString address :=
      client_addr_forwarded peer names untrusted proxies
    have same : clientAddr trusted first = clientAddr trusted second :=
      one_addr.trans other_addr.symm
    refine ⟨same, ?_, ?_, ?_, ?_, ?_, ?_⟩
    · rw [one_addr]
      exact NetAddr.parse_ip_ip_string address
    · rw [one_addr]
      exact client_buckets_ip address
    · rw [same]
    · rw [same]
    · rw [same]
    · intro kind limit
      unfold rateKeys
      rw [same]
  · intro peer one other
    have remote : ∀ lines, clientAddr trusted ⟨remoteAddr, lines⟩ =
        (ForwardedRequest.mk remoteAddr []).remote := by
      intro lines
      unfold clientAddr
      have unbelieved : ¬(NetAddr.parseIP (ForwardedRequest.mk remoteAddr lines).remote).any
          (isTrustedProxy trusted) = true := by
        rw [Bool.not_eq_true]
        exact peer
      rw [if_neg unbelieved]
      rfl
    rw [remote one, remote other]

def ascii (value : String) : Bytes :=
  value.toList.map fun unit => UInt8.ofNat unit.toNat

def sampleTrusted : TrustedProxySet :=
  ⟨[⟨.v4 ⟨10 * 2 ^ 24, by norm_num⟩, 8⟩], []⟩

def samplePeer : Bytes := ascii "10.0.0.2:4711"

def sampleEntry : ForwardedEntry := ⟨true, ascii " 2001:db8::9"⟩

def sampleProxy : ForwardedEntry := ⟨false, ascii "10.0.0.3"⟩

def sampleAddress : Fin (2 ^ 128) :=
  ⟨0x20010db8 * 2 ^ 96 + 9, by norm_num⟩

theorem forged_sample :
    clientAddr sampleTrusted ⟨samplePeer, forwarded [] [sampleEntry, sampleProxy]⟩ =
        clientAddr sampleTrusted ⟨samplePeer, forwarded [ascii "1.2.3.4, ,x", ascii "10.0.0.9"]
          [sampleEntry, sampleProxy]⟩ ∧
      clientAddr sampleTrusted ⟨ascii "192.0.2.7:99", [ascii "1.2.3.4"]⟩ =
        clientAddr sampleTrusted ⟨ascii "192.0.2.7:99", []⟩ := by
  have names : sampleEntry.Names sampleAddress := ⟨by decide +kernel, by decide +kernel⟩
  have proxies : ∀ other ∈ [sampleProxy], ∃ ip, other.Names ip ∧
      isTrustedProxy sampleTrusted ip = true := by
    intro other mem
    rw [mem_singleton.mp mem]
    exact ⟨⟨0xFFFF * 2 ^ 32 + 10 * 2 ^ 24 + 3, by norm_num⟩,
      ⟨by decide +kernel, by decide +kernel⟩, by decide +kernel⟩
  have behind := (client_cannot_choose_bucket sampleTrusted samplePeer).1 sampleEntry [sampleProxy]
    sampleAddress (by decide +kernel) names (by decide +kernel) proxies []
      [ascii "1.2.3.4, ,x", ascii "10.0.0.9"]
  exact ⟨behind.1, (client_cannot_choose_bucket sampleTrusted (ascii "192.0.2.7:99")).2
    (by decide +kernel) [ascii "1.2.3.4"] []⟩

end Forged

end AwfulChat.Relay.ClientIp
