import AwfulChat.Library.NetAddrText

/-!
# Public addresses

`isDisallowedIP` of `og.go` and the two dialers that ask it. An IPv6 address that stands for an
IPv4 one is judged by that one, so it is no way around the ranges.
-/

namespace AwfulChat.Relay.PublicAddress

open Library

set_option autoImplicit false

/-- `net.IP`, in four bytes or in sixteen. -/
inductive IP
  | four (value : Fin (2 ^ 32))
  | sixteen (value : Fin (2 ^ 128))
  deriving DecidableEq

theorem mapped_lt (value : Fin (2 ^ 32)) : 0xFFFF * 2 ^ 32 + value.val < 2 ^ 128 := by omega

def mapped (value : Fin (2 ^ 32)) : Fin (2 ^ 128) := ⟨0xFFFF * 2 ^ 32 + value.val, mapped_lt value⟩

namespace IP

def to16 : IP → Fin (2 ^ 128)
  | four value => mapped value
  | sixteen value => value

/-- The address by `To4`, as the predicates of `net.IP` and `Contains` see it. -/
def normal (ip : IP) : NetAddr := NetAddr.unmap (.v6 ip.to16 [])

end IP

def isMulticast : NetAddr → Bool
  | .v4 value => decide (value.val / 2 ^ 28 = 0xE)
  | .v6 value _ => decide (value.val / 2 ^ 120 = 0xFF)

def net4 (base bits : Nat) : NetPrefix := ⟨.v4 ⟨base % 2 ^ 32, by omega⟩, bits⟩

def net6 (base bits : Nat) : NetPrefix := ⟨.v6 ⟨base % 2 ^ 128, by omega⟩ [], bits⟩

def disallowedNets : List NetPrefix :=
  [net4 0 8, net4 (100 * 2 ^ 24 + 64 * 2 ^ 16) 10, net4 (198 * 2 ^ 24 + 18 * 2 ^ 16) 15,
    net4 (240 * 2 ^ 24) 4, net6 (0x64FF9B0001 * 2 ^ 80) 48, net6 (0x20010000 * 2 ^ 96) 32]

def nat64WellKnown : NetPrefix := net6 (0x64FF9B * 2 ^ 96) 96

def sixToFour : NetPrefix := net6 (0x2002 * 2 ^ 112) 16

def ipv4Compatible : NetPrefix := net6 0 96

/-- Four bytes of an address, from the bit `low` on. -/
def bytesAt (low : Nat) (value : Fin (2 ^ 128)) : Fin (2 ^ 32) :=
  ⟨value.val / 2 ^ low % 2 ^ 32, Nat.mod_lt _ (by norm_num)⟩

/-- The address is put in its mapped form, as `net.IPv4` does. -/
def embeddedIPv4 (ip : IP) : Option IP :=
  match ip.normal with
  | .v4 _ => none
  | .v6 value zone =>
    if nat64WellKnown.contains (.v6 value zone) then some (.sixteen (mapped (bytesAt 0 value)))
    else if sixToFour.contains (.v6 value zone) then some (.sixteen (mapped (bytesAt 80 value)))
    else if ipv4Compatible.contains (.v6 value zone) then
      some (.sixteen (mapped (bytesAt 0 value)))
    else none

/-- The ranges that are tested before an address is looked into. -/
def inRange (address : NetAddr) : Bool :=
  address.isLoopback || address.isPrivate || address.isLinkLocalUnicast ||
    address.isUnspecified || isMulticast address ||
      disallowedNets.any fun network => network.contains address

theorem normal_mapped (value : Fin (2 ^ 32)) : NetAddr.unmap (.v6 (mapped value) []) = .v4 value := by
  have bound := value.isLt
  have four : NetAddr.is4In6 (mapped value) = true := by
    apply decide_eq_true
    simp only [mapped]
    omega
  rw [NetAddr.unmap, if_pos four]
  congr 1
  apply Fin.ext
  simp only [NetAddr.low32, mapped]
  omega

theorem embedded_mapped {ip inner : IP} (found : embeddedIPv4 ip = some inner) :
    ∃ value, inner = .sixteen (mapped value) := by
  unfold embeddedIPv4 at found
  split at found
  · cases found
  · split_ifs at found <;> cases found <;> exact ⟨_, rfl⟩

theorem embedded_of_mapped (value : Fin (2 ^ 32)) : embeddedIPv4 (.sixteen (mapped value)) = none := by
  simp only [embeddedIPv4, IP.normal, IP.to16, normal_mapped]

def depth (ip : IP) : Nat := if (embeddedIPv4 ip).isSome then 1 else 0

def isDisallowedIP (ip : IP) : Bool :=
  if inRange ip.normal then true
  else
    match found : embeddedIPv4 ip with
    | some inner => isDisallowedIP inner
    | none => false
termination_by depth ip
decreasing_by
  obtain ⟨value, rfl⟩ := embedded_mapped found
  simp [depth, found, embedded_of_mapped]

inductive DialError
  | invalidAddress
  | disallowedPort (port : Bytes)
  | lookupFailed (host : Bytes)
  | noIPs (host : Bytes)
  | disallowedIP (ip : IP)

def allowedFetchPorts : List Bytes := [[56, 48], [52, 52, 51]]

/-- The address that is dialed, as its text, when every one of the list is allowed. -/
def dialFirst (host port : Bytes) (ips : List IP) :
    Except DialError (Bytes × Bytes) :=
  match ips with
  | [] => .error (.noIPs host)
  | first :: _ =>
    match ips.find? isDisallowedIP with
    | some ip => .error (.disallowedIP ip)
    | none => .ok (NetAddr.ipString first.to16, port)

section Dial

variable (splitHostPort : Bytes → Option (Bytes × Bytes))
  (lookupIPAddr : Bytes → Option (List IP))

def ogSafeDial (addr : Bytes) : Except DialError (Bytes × Bytes) :=
  match splitHostPort addr with
  | none => .error .invalidAddress
  | some (host, port) =>
    if port ∉ allowedFetchPorts then .error (.disallowedPort port)
    else
      match lookupIPAddr host with
      | none => .error (.lookupFailed host)
      | some ips => dialFirst host port ips

/-- One error for a lookup that failed and one that found nothing. -/
def pluginProxySafeDial (addr : Bytes) : Except DialError (Bytes × Bytes) :=
  match splitHostPort addr with
  | none => .error .invalidAddress
  | some (host, port) =>
    if port ∉ allowedFetchPorts then .error (.disallowedPort port)
    else
      match lookupIPAddr host with
      | none => .error (.lookupFailed host)
      | some [] => .error (.lookupFailed host)
      | some ips => dialFirst host port ips

end Dial

/-- The IPv4 address that an address of sixteen bytes stands for. -/
inductive Carries (value : Fin (2 ^ 128)) (inner : Fin (2 ^ 32)) : Prop
  | mapped (form : value.val = 0xFFFF * 2 ^ 32 + inner.val)
  | nat64 (form : value.val = 0x64FF9B * 2 ^ 96 + inner.val)
  | sixToFour (form : value.val / 2 ^ 80 = 0x2002 * 2 ^ 32 + inner.val)
  | compatible (form : value.val = inner.val)

theorem disallowed_eq (ip : IP) :
    isDisallowedIP ip = (inRange ip.normal || (embeddedIPv4 ip).any isDisallowedIP) := by
  rw [isDisallowedIP]
  split <;> rename_i ranged
  · rw [ranged, Bool.true_or]
  · rw [eq_false_of_ne_true ranged, Bool.false_or]
    split <;> rename_i found <;> rw [found] <;> rfl

theorem disallowed_mapped (value : Fin (2 ^ 32)) :
    isDisallowedIP (.sixteen (mapped value)) = inRange (.v4 value) := by
  rw [disallowed_eq, embedded_of_mapped, IP.normal, IP.to16, normal_mapped]
  exact Bool.or_false _

theorem disallowed_four (value : Fin (2 ^ 32)) :
    isDisallowedIP (.four value) = isDisallowedIP (.sixteen (mapped value)) := by
  rw [disallowed_eq, disallowed_eq]
  rfl

theorem embedded_six {value : Fin (2 ^ 128)} (six : value.val / 2 ^ 32 ≠ 0xFFFF) :
    embeddedIPv4 (.sixteen value) =
      if value.val / 2 ^ 32 = 0x64FF9B * 2 ^ 64 then some (.sixteen (mapped (bytesAt 0 value)))
      else if value.val / 2 ^ 112 = 0x2002 then some (.sixteen (mapped (bytesAt 80 value)))
      else if value.val / 2 ^ 32 = 0 then some (.sixteen (mapped (bytesAt 0 value)))
      else none := by
  have normal : (IP.sixteen value).normal = .v6 value [] := by
    have apart : NetAddr.is4In6 value = false := decide_eq_false six
    simp only [IP.normal, IP.to16, NetAddr.unmap, apart, Bool.false_eq_true, if_false]
  rw [embeddedIPv4, normal]
  norm_num [nat64WellKnown, sixToFour, ipv4Compatible, net6, NetPrefix.contains]

theorem embedded_of_carries {value : Fin (2 ^ 128)} {inner : Fin (2 ^ 32)}
    (carries : Carries value inner) :
    value = mapped inner ∨ embeddedIPv4 (.sixteen value) = some (.sixteen (mapped inner)) := by
  have bound := inner.isLt
  cases carries with
  | mapped form => exact .inl (Fin.ext form)
  | nat64 form =>
    right
    have read : bytesAt 0 value = inner := Fin.ext (by simp only [bytesAt]; omega)
    rw [embedded_six (by omega), if_pos (by omega), read]
  | sixToFour form =>
    right
    have read : bytesAt 80 value = inner := Fin.ext (by simp only [bytesAt]; omega)
    rw [embedded_six (by omega), if_neg (by omega), if_pos (by omega), read]
  | compatible form =>
    right
    have read : bytesAt 0 value = inner := Fin.ext (by simp only [bytesAt]; omega)
    rw [embedded_six (by omega), if_neg (by omega), if_neg (by omega), if_pos (by omega), read]

/-- Outside every range there is for an IPv4 address. -/
structure Public (value : Fin (2 ^ 32)) : Prop where
  loopback : NetAddr.isLoopback (.v4 value) = false
  private_ : NetAddr.isPrivate (.v4 value) = false
  linkLocal : NetAddr.isLinkLocalUnicast (.v4 value) = false
  unspecified : NetAddr.isUnspecified (.v4 value) = false
  multicast : isMulticast (.v4 value) = false
  nets : ∀ network ∈ disallowedNets, network.contains (.v4 value) = false

theorem public_of_allowed {value : Fin (2 ^ 32)} (allowed : isDisallowedIP (.four value) = false) :
    Public value := by
  rw [disallowed_four, disallowed_mapped] at allowed
  simp only [inRange, Bool.or_eq_false_iff, List.any_eq_false, Bool.not_eq_true] at allowed
  obtain ⟨⟨⟨⟨⟨loopback, private_⟩, linkLocal⟩, unspecified⟩, multicast⟩, nets⟩ := allowed
  exact ⟨loopback, private_, linkLocal, unspecified, multicast, nets⟩

theorem allowed_of_carries {value : Fin (2 ^ 128)} {inner : Fin (2 ^ 32)}
    (carries : Carries value inner) (allowed : isDisallowedIP (.sixteen value) = false) :
    isDisallowedIP (.four inner) = false := by
  rw [disallowed_four]
  rcases embedded_of_carries carries with same | inside
  · rw [← same]
    exact allowed
  · rw [disallowed_eq, inside] at allowed
    exact (Bool.or_eq_false_iff.mp allowed).2

/-- What is dialed is an address of the list that was looked up, all of which are allowed. -/
structure Checked (ips : List IP) (dialed : Bytes) : Prop where
  listed : ∃ ip ∈ ips, NetAddr.parseIP dialed = some ip.to16
  allowed : ∀ ip ∈ ips, isDisallowedIP ip = false

theorem dial_first_checked {host port : Bytes} {ips : List IP}
    {dialed : Bytes × Bytes} (ran : dialFirst host port ips = .ok dialed) :
    Checked ips dialed.1 := by
  cases ips with
  | nil => cases ran
  | cons first rest =>
    simp only [dialFirst] at ran
    cases refused : (first :: rest).find? isDisallowedIP with
    | some ip =>
      rw [refused] at ran
      cases ran
    | none =>
      rw [refused] at ran
      cases ran
      refine ⟨⟨first, by simp, NetAddr.parse_ip_ip_string _⟩, ?_⟩
      intro ip mem
      exact eq_false_of_ne_true (List.find?_eq_none.mp refused ip mem)

/-- An allowed address stands for no forbidden one, and only checked addresses are dialed. -/
theorem allowed_address_public
    (splitHostPort : Bytes → Option (Bytes × Bytes))
    (lookupIPAddr : Bytes → Option (List IP)) :
    (∀ value, isDisallowedIP (.four value) = isDisallowedIP (.sixteen (mapped value))) ∧
      (∀ value inner, isDisallowedIP (.sixteen value) = false → Carries value inner →
        isDisallowedIP (.four inner) = false ∧ Public inner) ∧
      ∀ addr dialed, (ogSafeDial splitHostPort lookupIPAddr addr = .ok dialed ∨
          pluginProxySafeDial splitHostPort lookupIPAddr addr = .ok dialed) →
        ∃ host ips, lookupIPAddr host = some ips ∧ Checked ips dialed.1 := by
  refine ⟨disallowed_four, ?_, ?_⟩
  · intro value inner allowed carries
    have inside := allowed_of_carries carries allowed
    exact ⟨inside, public_of_allowed inside⟩
  · intro addr dialed ran
    unfold ogSafeDial pluginProxySafeDial at ran
    cases split : splitHostPort addr with
    | none => simp [split] at ran
    | some target =>
      obtain ⟨host, port⟩ := target
      by_cases web : port ∈ allowedFetchPorts
      · cases found : lookupIPAddr host with
        | none => simp [split, web, found] at ran
        | some ips =>
          refine ⟨host, ips, found, ?_⟩
          cases ips with
          | nil => simp [split, web, found, dialFirst] at ran
          | cons first rest =>
            simp only [split, web, found, not_true_eq_false, if_false, or_self] at ran
            exact dial_first_checked ran
      · simp [split, web] at ran

theorem sample_address_allowed :
    isDisallowedIP (.four ⟨0x08080808, by decide⟩) = false ∧
      Public ⟨0x08080808, by decide⟩ := by
  refine (allowed_address_public (fun _ => none) (fun _ => none)).2.1
    ⟨0x64FF9B * 2 ^ 96 + 0x08080808, by norm_num⟩ _ ?_ (.nat64 rfl)
  rw [disallowed_eq, embedded_six (by decide), Bool.or_eq_false_iff]
  refine ⟨by decide +kernel, ?_⟩
  rw [if_pos (by decide)]
  exact (disallowed_mapped _).trans (by decide +kernel)

end AwfulChat.Relay.PublicAddress
