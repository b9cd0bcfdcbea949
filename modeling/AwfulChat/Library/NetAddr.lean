import AwfulChat.Library.JsText
import Mathlib.Tactic.NormNum

/-!
# Network addresses

The addresses of Go's `net/netip` and their text: dotted decimal, and groups of hexadecimal with
one run of zeros left out. What an address is printed as is parsed as that address.
-/

namespace AwfulChat.Library

set_option autoImplicit false

/-- `netip.Addr`; an IPv4 address mapped into IPv6 is one of the second kind. -/
inductive NetAddr
  | v4 (value : Fin (2 ^ 32))
  | v6 (value : Fin (2 ^ 128)) (zone : Bytes)
  deriving DecidableEq

namespace NetAddr

section Text

def digit (value : Nat) : UInt8 := UInt8.ofNat (if value < 10 then 48 + value else 87 + value)

/-- `appendDecimal`, of a value below 256. -/
def decimalText (value : Nat) : Bytes :=
  (if 100 ≤ value then [digit (value / 100)] else []) ++
    ((if 10 ≤ value then [digit (value / 10 % 10)] else []) ++ [digit (value % 10)])

/-- `appendHex`, of a value below 65536. -/
def hexText (value : Nat) : Bytes :=
  (if 0x1000 ≤ value then [digit (value / 0x1000)] else []) ++
    ((if 0x100 ≤ value then [digit (value / 0x100 % 16)] else []) ++
      ((if 0x10 ≤ value then [digit (value / 0x10 % 16)] else []) ++ [digit (value % 16)]))

def joined (mark : UInt8) : List Bytes → Bytes
  | [] => []
  | [piece] => piece
  | piece :: next :: rest => piece ++ mark :: joined mark (next :: rest)

def octets (value : Fin (2 ^ 32)) : List Nat :=
  [value.val / 2 ^ 24, value.val / 2 ^ 16 % 256, value.val / 2 ^ 8 % 256, value.val % 256]

def groups (value : Fin (2 ^ 128)) : List Nat :=
  [value.val / 2 ^ 112, value.val / 2 ^ 96 % 65536, value.val / 2 ^ 80 % 65536,
    value.val / 2 ^ 64 % 65536, value.val / 2 ^ 48 % 65536, value.val / 2 ^ 32 % 65536,
    value.val / 2 ^ 16 % 65536, value.val % 65536]

def octetsText (fields : List Nat) : Bytes := joined 46 (fields.map decimalText)

/-- How many groups of zeros stand at a place. -/
def zeroRun (found : List Nat) (place : Nat) : Nat :=
  ((found.drop place).takeWhile fun group => decide (group = 0)).length

/-- The longest run of zeros of two groups at least, the first of equals. -/
def longestRun (found : List Nat) : Option (Nat × Nat) :=
  (List.range 8).foldl (fun best place =>
    let length := zeroRun found place
    if 2 ≤ length ∧ (best.map Prod.snd).getD 0 < length then some (place, length) else best) none

def groupsText (found : List Nat) : Bytes :=
  match longestRun found with
  | none => joined 58 (found.map hexText)
  | some (start, length) =>
    joined 58 ((found.take start).map hexText) ++ 58 :: 58 ::
      joined 58 ((found.drop (start + length)).map hexText)

def is4In6 (value : Fin (2 ^ 128)) : Bool := decide (value.val / 2 ^ 32 = 0xFFFF)

def low32 (value : Fin (2 ^ 128)) : Fin (2 ^ 32) :=
  ⟨value.val % 2 ^ 32, Nat.mod_lt _ (by norm_num)⟩

def zoneText (zone : Bytes) : Bytes := if zone = [] then [] else 37 :: zone

/-- `Addr.String`. -/
def string : NetAddr → Bytes
  | .v4 value => octetsText (octets value)
  | .v6 value zone =>
    if is4In6 value then
      [58, 58, 102, 102, 102, 102, 58] ++ (octetsText (octets (low32 value)) ++ zoneText zone)
    else groupsText (groups value) ++ zoneText zone

def unmap : NetAddr → NetAddr
  | .v4 value => .v4 value
  | .v6 value zone => if is4In6 value then .v4 (low32 value) else .v6 value zone

end Text

section Parse

/-- `parseIPv4Fields`: the value and the digits of the field being read, and the fields before. -/
def readOctets : Bytes → Nat → Nat → List Nat → Option (List Nat)
  | [], value, _, fields => if fields.length < 3 then none else some (fields ++ [value])
  | unit :: rest, value, digits, fields =>
    if 48 ≤ unit.toNat ∧ unit.toNat ≤ 57 then
      if digits = 1 ∧ value = 0 then none
      else if 255 < value * 10 + (unit.toNat - 48) then none
      else readOctets rest (value * 10 + (unit.toNat - 48)) (digits + 1) fields
    else if unit = 46 then
      if digits = 0 ∨ rest = [] then none
      else if fields.length = 3 then none
      else readOctets rest 0 0 (fields ++ [value])
    else none

def hexValue (unit : UInt8) : Option Nat :=
  if 48 ≤ unit.toNat ∧ unit.toNat ≤ 57 then some (unit.toNat - 48)
  else if 97 ≤ unit.toNat ∧ unit.toNat ≤ 102 then some (unit.toNat - 87)
  else if 65 ≤ unit.toNat ∧ unit.toNat ≤ 70 then some (unit.toNat - 55)
  else none

def isHex (unit : UInt8) : Bool := (hexValue unit).isSome

def hexNumber (digits : Bytes) : Nat :=
  digits.foldl (fun value unit => value * 16 + (hexValue unit).getD 0) 0

/-- What is left of the loop of `parseIPv6`, with the groups read and the place of the `::`. -/
def readGroups : Nat → Bytes → List Nat → Option Nat → Option (List Nat × Option Nat)
  | 0, rest, found, ellipsis => if rest = [] then some (found, ellipsis) else none
  | room + 1, input, found, ellipsis =>
    let digits := input.takeWhile isHex
    let rest := input.dropWhile isHex
    if digits = [] ∨ 4 < digits.length then none
    else if rest.head? = some 46 then
      if ellipsis.isNone ∧ found.length ≠ 6 then none
      else if 8 < found.length + 2 then none
      else
        match readOctets input 0 0 [] with
        | some [first, second, third, fourth] =>
          some (found ++ [first * 256 + second, third * 256 + fourth], ellipsis)
        | _ => none
    else
      let more := found ++ [hexNumber digits]
      match rest with
      | [] => some (more, ellipsis)
      | [_] => none
      | unit :: next :: tail =>
        if unit ≠ 58 then none
        else if next = 58 then
          if ellipsis.isSome then none
          else if tail = [] then some (more, some more.length)
          else readGroups room tail more (some more.length)
        else readGroups room (next :: tail) more ellipsis

/-- The `::` stands for the groups that are missing. -/
def fillGroups (read : List Nat × Option Nat) : Option (List Nat) :=
  match read.2 with
  | none => if read.1.length = 8 then some read.1 else none
  | some place =>
    if 8 ≤ read.1.length then none
    else some (read.1.take place ++ (List.replicate (8 - read.1.length) 0 ++ read.1.drop place))

/-- The groups of an IPv6 address without its zone. -/
def parseGroups (input : Bytes) : Option (List Nat) :=
  match input with
  | 58 :: 58 :: rest =>
    if rest = [] then some (List.replicate 8 0)
    else (readGroups 8 rest [] (some 0)).bind fillGroups
  | _ => (readGroups 8 input [] none).bind fillGroups

def ofOctets (fields : List Nat) : Fin (2 ^ 32) :=
  ⟨fields.foldl (fun value field => value * 256 + field) 0 % 2 ^ 32, Nat.mod_lt _ (by norm_num)⟩

def ofGroups (found : List Nat) : Fin (2 ^ 128) :=
  ⟨found.foldl (fun value group => value * 65536 + group) 0 % 2 ^ 128,
    Nat.mod_lt _ (by norm_num)⟩

def parse4 (input : Bytes) : Option NetAddr := (readOctets input 0 0 []).map (.v4 ∘ ofOctets)

def parse6 (input : Bytes) : Option NetAddr :=
  let address := input.takeWhile fun unit => unit ≠ 37
  let zone := input.dropWhile fun unit => unit ≠ 37
  if zone = [37] then none
  else (parseGroups address).map fun found => .v6 (ofGroups found) zone.tail

def parse (input : Bytes) : Option NetAddr :=
  match input.find? fun unit => decide (unit = 46 ∨ unit = 58 ∨ unit = 37) with
  | some mark => if mark = 46 then parse4 input else if mark = 58 then parse6 input else none
  | none => none

/-- `net.ParseIP`: an address without a zone, as its sixteen bytes. -/
def parseIP (input : Bytes) : Option (Fin (2 ^ 128)) :=
  match parse input with
  | some (.v4 value) => some ⟨0xFFFF * 2 ^ 32 + value.val, by omega⟩
  | some (.v6 value zone) => if zone = [] then some value else none
  | none => none

def ipString (value : Fin (2 ^ 128)) : Bytes :=
  if is4In6 value then octetsText (octets (low32 value)) else groupsText (groups value)

end Parse

section Special

/-- The address without its low bits. -/
def masked {width : Nat} (bits : Nat) (value : Fin (2 ^ width)) : Fin (2 ^ width) :=
  ⟨value.val / 2 ^ (width - bits) * 2 ^ (width - bits),
    Nat.lt_of_le_of_lt (Nat.div_mul_le_self _ _) value.isLt⟩

def isLoopback : NetAddr → Bool
  | .v4 value => decide (value.val / 2 ^ 24 = 127)
  | .v6 value _ => decide (value.val = 1)

/-- 10/8, 172.16/12 and 192.168/16, and fc00::/7. -/
def isPrivate : NetAddr → Bool
  | .v4 value => decide (value.val / 2 ^ 24 = 10) || decide (value.val / 2 ^ 20 = 172 * 16 + 1) ||
      decide (value.val / 2 ^ 16 = 192 * 256 + 168)
  | .v6 value _ => decide (value.val / 2 ^ 121 = 0xFC / 2)

def isLinkLocalUnicast : NetAddr → Bool
  | .v4 value => decide (value.val / 2 ^ 16 = 169 * 256 + 254)
  | .v6 value _ => decide (value.val / 2 ^ 118 = 0xFE80 / 64)

def isUnspecified (address : NetAddr) : Bool :=
  decide (address = .v4 0) || decide (address = .v6 0 [])

end Special

end NetAddr

structure NetPrefix where
  address : NetAddr
  bits : Nat

def NetPrefix.contains (network : NetPrefix) (address : NetAddr) : Bool :=
  match network.address, address with
  | .v4 base, .v4 value =>
    decide (value.val / 2 ^ (32 - network.bits) = base.val / 2 ^ (32 - network.bits))
  | .v6 base _, .v6 value zone => decide (zone = []) &&
      decide (value.val / 2 ^ (128 - network.bits) = base.val / 2 ^ (128 - network.bits))
  | _, _ => false

def NetPrefix.string (network : NetPrefix) : Bytes :=
  network.address.string ++ 47 :: NetAddr.decimalText network.bits

/-- `Addr.Prefix`. -/
def NetAddr.prefixOf (bits : Nat) : NetAddr → NetPrefix
  | .v4 value => ⟨.v4 (masked bits value), bits⟩
  | .v6 value _ => ⟨.v6 (masked bits value) [], bits⟩

end AwfulChat.Library
