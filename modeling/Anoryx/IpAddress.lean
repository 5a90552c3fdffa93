import Mathlib

/-!
# Anoryx.IpAddress

Internet addresses as the Python library `ipaddress` classifies them.

A *network* is a block of addresses that share a prefix.  Two blocks nest or share nothing, so
whether they overlap is decided at their first addresses alone (`Network.overlaps_iff`); the
tables of special networks are compared so, and no proof walks an address space.
-/

namespace IpAddress

/-! ## networks -/

/-- The mask of the first `n` of `w` bits. -/
def netmask (w n : Nat) : BitVec w := BitVec.allOnes w <<< (w - n)

variable {w m n : Nat} {ip4 : BitVec 32}

/-- Masking an address clears the bits after the prefix. -/
theorem and_netmask (n : Nat) (ip : BitVec w) : ip &&& netmask w n = (ip >>> (w - n)) <<< (w - n) := by
  ext i hi
  simp only [netmask, BitVec.getElem_and, BitVec.getElem_shiftLeft, BitVec.getElem_allOnes]
  grind

/-- `ip_network`: a prefix of `prefixlen` bits.  The address has no host bits. -/
structure Network (w : Nat) where
  address : BitVec w
  prefixlen : Nat
  strict : address &&& netmask w prefixlen = address

namespace Network

variable {w : Nat}

/-- `ip in network` -/
def contains (net : Network w) (ip : BitVec w) : Bool := ip &&& netmask w net.prefixlen == net.address

variable {net other : Network w} {ip : BitVec w}

/-- An address is in a network just when its masked bits are the network's. -/
theorem contains_iff : net.contains ip = true ↔ ip &&& netmask w net.prefixlen = net.address := by
  simp [contains]

/-- A network contains its own address. -/
theorem contains_address (net : Network w) : net.contains net.address = true := contains_iff.mpr net.strict

theorem netmask_and_netmask (h : m ≤ n) : netmask w n &&& netmask w m = netmask w m := by
  ext i hi
  simp only [netmask, BitVec.getElem_and, BitVec.getElem_shiftLeft, BitVec.getElem_allOnes]
  grind

/-- Of two networks with a common address, the wider one contains the other's address. -/
theorem contains_address_of_le (hle : net.prefixlen ≤ other.prefixlen) (h : net.contains ip = true)
    (h' : other.contains ip = true) : net.contains other.address = true := by
  rw [contains_iff] at *
  calc other.address &&& netmask w net.prefixlen
      = ip &&& (netmask w other.prefixlen &&& netmask w net.prefixlen) := by rw [← h', BitVec.and_assoc]
    _ = net.address := by rw [netmask_and_netmask hle, h]

def overlaps (net other : Network w) : Bool := net.contains other.address || other.contains net.address

/-- Networks overlap just when they have an address in common. -/
theorem overlaps_iff : net.overlaps other = true ↔ ∃ ip, net.contains ip = true ∧ other.contains ip = true := by
  constructor
  · intro h
    rcases Bool.or_eq_true_iff.mp h with h | h
    · exact ⟨other.address, h, other.contains_address⟩
    · exact ⟨net.address, net.contains_address, h⟩
  · rintro ⟨ip, h, h'⟩
    rcases Nat.le_total net.prefixlen other.prefixlen with hle | hle
    · simp [overlaps, contains_address_of_le hle h h']
    · simp [overlaps, contains_address_of_le hle h' h]

/-- `subnet_of`, the other way around. -/
def supernetOf (net other : Network w) : Bool :=
  decide (net.prefixlen ≤ other.prefixlen) && net.contains other.address

/-- Networks that do not overlap share no address. -/
theorem not_contains_of_not_overlaps (h : net.overlaps other = false) (hip : net.contains ip = true) :
    other.contains ip = false := by
  by_contra hcontains
  rw [overlaps_iff.mpr ⟨ip, hip, by simpa using hcontains⟩] at h
  contradiction

/-- A supernet contains every address of its subnet. -/
theorem contains_of_supernetOf (h : net.supernetOf other = true) (hip : other.contains ip = true) :
    net.contains ip = true := by
  obtain ⟨hle, haddr⟩ := Bool.and_eq_true_iff.mp h
  rw [contains_iff] at *
  rw [← haddr, ← hip, BitVec.and_assoc, netmask_and_netmask (of_decide_eq_true hle)]

end Network

/-- In one of the networks, and in none of the exceptions. -/
def listed {w : Nat} (networks exceptions : List (Network w)) (ip : BitVec w) : Bool :=
  networks.any (·.contains ip) && exceptions.all (!·.contains ip)

/-- Below a listed network and away from the exceptions, an address is listed. -/
theorem listed_of_contains {networks exceptions : List (Network w)} {net : Network w} {ip : BitVec w}
    (hnet : ∃ super ∈ networks, super.supernetOf net = true) (hexceptions : exceptions.all (!net.overlaps ·) = true)
    (h : net.contains ip = true) : listed networks exceptions ip = true := by
  obtain ⟨super, hmem, hsuper⟩ := hnet
  rw [listed, Bool.and_eq_true]
  constructor
  · exact List.any_eq_true.mpr ⟨super, hmem, Network.contains_of_supernetOf hsuper h⟩
  · rw [List.all_eq_true] at *
    intro exc hexc
    simp only [Bool.not_eq_true'] at *
    exact Network.not_contains_of_not_overlaps (hexceptions exc hexc) h

/-- Away from all listed networks an address is not listed. -/
theorem not_listed_of_contains {networks exceptions : List (Network w)} {net : Network w} {ip : BitVec w}
    (hnetworks : networks.all (!net.overlaps ·) = true) (h : net.contains ip = true) :
    listed networks exceptions ip = false := by
  rw [listed, Bool.and_eq_false_iff]
  left
  rw [List.all_eq_true] at hnetworks
  rw [List.any_eq_false]
  intro other hother
  have hnot := Network.not_contains_of_not_overlaps (by simpa using hnetworks other hother) h
  simp [hnot]

/-! ## the tables -/

/-- `a.b.c.d` -/
def octets (a b c d : Nat) : BitVec 32 := BitVec.ofNat 32 (((a * 256 + b) * 256 + c) * 256 + d)

/-- The IPv6 address of the hextets, zeros after them. -/
def hextets (hs : List Nat) : BitVec 128 :=
  BitVec.ofNat 128 (hs.foldl (fun n h => n * 65536 + h) 0 * 65536 ^ (8 - hs.length))

/-- `IPv4Network('a.b.c.d/n')` -/
def v4Network (a b c d n : Nat)
    (strict : octets a b c d &&& netmask 32 n = octets a b c d := by decide) : Network 32 :=
  ⟨octets a b c d, n, strict⟩

/-- `IPv6Network('hs::/n')` -/
def v6Network (hs : List Nat) (n : Nat) (strict : hextets hs &&& netmask 128 n = hextets hs := by decide) :
    Network 128 :=
  ⟨hextets hs, n, strict⟩

namespace IPv4

def linklocalNetwork : Network 32 := v4Network 169 254 0 0 16
def loopbackNetwork : Network 32 := v4Network 127 0 0 0 8
def multicastNetwork : Network 32 := v4Network 224 0 0 0 4

/-- `_public_network`, the shared address space: neither private nor global. -/
def publicNetwork : Network 32 := v4Network 100 64 0 0 10

def privateNetworks : List (Network 32) :=
  [v4Network 0 0 0 0 8, v4Network 10 0 0 0 8, v4Network 127 0 0 0 8, v4Network 169 254 0 0 16,
    v4Network 172 16 0 0 12, v4Network 192 0 0 0 24, v4Network 192 0 0 170 31, v4Network 192 0 2 0 24,
    v4Network 192 168 0 0 16, v4Network 198 18 0 0 15, v4Network 198 51 100 0 24, v4Network 203 0 113 0 24,
    v4Network 240 0 0 0 4, v4Network 255 255 255 255 32]

def privateNetworksExceptions : List (Network 32) := [v4Network 192 0 0 9 32, v4Network 192 0 0 10 32]

def reservedNetwork : Network 32 := v4Network 240 0 0 0 4

def isReserved (ip : BitVec 32) : Bool := reservedNetwork.contains ip

def isPrivate (ip : BitVec 32) : Bool := listed privateNetworks privateNetworksExceptions ip

def isGlobal (ip : BitVec 32) : Bool := !publicNetwork.contains ip && !isPrivate ip

def isMulticast (ip : BitVec 32) : Bool := multicastNetwork.contains ip

def isUnspecified (ip : BitVec 32) : Bool := ip == octets 0 0 0 0

def isLoopback (ip : BitVec 32) : Bool := loopbackNetwork.contains ip

def isLinkLocal (ip : BitVec 32) : Bool := linklocalNetwork.contains ip

end IPv4

namespace IPv6

def linklocalNetwork : Network 128 := v6Network [0xfe80] 10
def multicastNetwork : Network 128 := v6Network [0xff00] 8

def privateNetworks : List (Network 128) :=
  [v6Network [0, 0, 0, 0, 0, 0, 0, 1] 128, v6Network [] 128, v6Network [0, 0, 0, 0, 0, 0xffff] 96,
    v6Network [0x64, 0xff9b, 1] 48, v6Network [0x100] 64, v6Network [0x2001] 23, v6Network [0x2001, 0xdb8] 32,
    v6Network [0x2002] 16, v6Network [0xfc00] 7, v6Network [0xfe80] 10]

def privateNetworksExceptions : List (Network 128) :=
  [v6Network [0x2001, 1, 0, 0, 0, 0, 0, 1] 128, v6Network [0x2001, 1, 0, 0, 0, 0, 0, 2] 128,
    v6Network [0x2001, 3] 32, v6Network [0x2001, 4, 0x112] 48, v6Network [0x2001, 0x20] 28,
    v6Network [0x2001, 0x30] 28]

def reservedNetworks : List (Network 128) :=
  [v6Network [] 8, v6Network [0x100] 8, v6Network [0x200] 7, v6Network [0x400] 6, v6Network [0x800] 5,
    v6Network [0x1000] 4, v6Network [0x4000] 3, v6Network [0x6000] 3, v6Network [0x8000] 3, v6Network [0xa000] 3,
    v6Network [0xc000] 3, v6Network [0xe000] 4, v6Network [0xf000] 5, v6Network [0xf800] 6, v6Network [0xfe00] 9]

def ipv4Mapped (ip : BitVec 128) : Option (BitVec 32) :=
  if ip >>> 32 = 0xffff then some (ip.setWidth 32) else none

end IPv6

/-! ## properties of an address -/

inductive Address where
  | v4 (ip : BitVec 32)
  | v6 (ip : BitVec 128)
  deriving DecidableEq, Repr

namespace Address

/-- A property of both kinds of address.  With `mapped`, an IPv4-mapped address has the property
when the address in it has. -/
def property (mapped : Bool) (v4 : BitVec 32 → Bool) (v6 : BitVec 128 → Bool) : Address → Bool
  | .v4 ip => v4 ip
  | .v6 ip =>
      match IPv6.ipv4Mapped ip with
      | some ip4 => if mapped then v4 ip4 else v6 ip
      | none => v6 ip

/-- Of a mapped address, every release asks the address in it whether it is private. -/
def isPrivate : Address → Bool :=
  property true IPv4.isPrivate (listed IPv6.privateNetworks IPv6.privateNetworksExceptions)

section Release

/- Whether the other properties too are asked of the mapped address, as they are from CPython
3.12.6 on. -/
variable (mapped : Bool)

def isReserved : Address → Bool :=
  property mapped IPv4.isReserved fun ip => IPv6.reservedNetworks.any (·.contains ip)

def isGlobal : Address → Bool := property mapped IPv4.isGlobal fun ip => !isPrivate (.v6 ip)

def isMulticast : Address → Bool := property mapped IPv4.isMulticast IPv6.multicastNetwork.contains

def isUnspecified : Address → Bool := property mapped IPv4.isUnspecified (· == hextets [])

def isLoopback : Address → Bool := property mapped IPv4.isLoopback (· == hextets [0, 0, 0, 0, 0, 0, 0, 1])

def isLinkLocal : Address → Bool := property mapped IPv4.isLinkLocal IPv6.linklocalNetwork.contains

end Release

/-- The address that a mapped address stands for; any other stands for itself. -/
def unmapped : Address → Address
  | .v4 ip => .v4 ip
  | .v6 ip => ((IPv6.ipv4Mapped ip).map .v4).getD (.v6 ip)

end Address

/-- Mapped addresses are in `::ffff:0:0/96`. -/
theorem IPv6.contains_of_ipv4Mapped {ip : BitVec 128} (h : ipv4Mapped ip = some ip4) :
    (v6Network [0, 0, 0, 0, 0, 0xffff] 96).contains ip = true := by
  unfold ipv4Mapped at h
  split at h
  case isTrue hmapped =>
    rw [Network.contains_iff]
    calc ip &&& netmask 128 96
        = (ip >>> 32) <<< 32 := and_netmask 96 ip
      _ = hextets [0, 0, 0, 0, 0, 0xffff] := by rw [hmapped]; decide
  case isFalse => contradiction

/-- A mapped address is reserved where the mapping is not looked through. -/
theorem Address.isReserved_of_mapped {ip : BitVec 128} (h : IPv6.ipv4Mapped ip = some ip4) :
    isReserved false (.v6 ip) = true := by
  simp only [isReserved, property, h, Bool.false_eq_true, if_false, List.any_eq_true]
  refine ⟨v6Network [] 8, by simp [IPv6.reservedNetworks], ?_⟩
  exact Network.contains_of_supernetOf (by decide) (IPv6.contains_of_ipv4Mapped h)

/-! ## addresses of the internet -/

/-- The networks of IPv4 that hold no unicast address of the internet: loopback, the private
networks of RFC 1918, link-local, the shared address space, multicast, reserved, unspecified. -/
def IPv4.specialNetworks : List (Network 32) :=
  [v4Network 127 0 0 0 8, v4Network 10 0 0 0 8, v4Network 172 16 0 0 12, v4Network 192 168 0 0 16,
    v4Network 169 254 0 0 16, v4Network 100 64 0 0 10, v4Network 224 0 0 0 4, v4Network 240 0 0 0 4,
    v4Network 0 0 0 0 32]

def IPv4.GloballyRoutable (ip : BitVec 32) : Prop :=
  isGlobal ip = true ∧ ∀ net ∈ specialNetworks, net.contains ip = false

namespace IPv4

/-- An address that is not private is in no network below the private ones. -/
theorem contains_false_of_isPrivate {net : Network 32} {ip : BitVec 32}
    (hnet : ∃ super ∈ privateNetworks, super.supernetOf net = true)
    (hexceptions : privateNetworksExceptions.all (!net.overlaps ·) = true)
    (h : isPrivate ip = false) : net.contains ip = false := by
  by_contra hcontains
  rw [isPrivate, listed_of_contains hnet hexceptions (by simpa using hcontains)] at h
  contradiction

/-- To be unspecified is to be in `0.0.0.0/32`. -/
theorem isUnspecified_iff (ip : BitVec 32) : isUnspecified ip = (v4Network 0 0 0 0 32).contains ip := by
  have hmask : ip &&& netmask 32 32 = ip := by simpa using and_netmask 32 ip
  rw [isUnspecified, Network.contains, v4Network, hmask]

/-- An address is routable just when it is global and has none of the other properties. -/
theorem globallyRoutable_iff (ip : BitVec 32) :
    GloballyRoutable ip ↔
      isGlobal ip = true ∧ isLoopback ip = false ∧ isLinkLocal ip = false ∧ isMulticast ip = false ∧
        isReserved ip = false ∧ isUnspecified ip = false := by
  rw [isUnspecified_iff]
  constructor
  · intro ⟨hglobal, hspecial⟩
    simp only [specialNetworks, List.forall_mem_cons] at hspecial
    obtain ⟨hloopback, -, -, -, hlink, -, hmulticast, hreserved, hunspecified, -⟩ := hspecial
    exact ⟨hglobal, hloopback, hlink, hmulticast, hreserved, hunspecified⟩
  · intro ⟨hglobal, hloopback, hlink, hmulticast, hreserved, hunspecified⟩
    obtain ⟨hpublic, hprivate⟩ := Bool.and_eq_true_iff.mp hglobal
    rw [Bool.not_eq_true'] at hpublic hprivate
    constructor
    · exact hglobal
    · simp only [specialNetworks, List.forall_mem_cons]
      exact ⟨hloopback, contains_false_of_isPrivate (by decide) (by decide) hprivate,
        contains_false_of_isPrivate (by decide) (by decide) hprivate,
        contains_false_of_isPrivate (by decide) (by decide) hprivate, hlink, hpublic, hmulticast, hreserved,
        hunspecified, by simp⟩

/-- An address of `100.64.0.0/10` has none of the properties that are asked for. -/
theorem properties_of_shared {ip : BitVec 32} (h : publicNetwork.contains ip = true) :
    isPrivate ip = false ∧ isLoopback ip = false ∧ isLinkLocal ip = false ∧ isMulticast ip = false ∧
      isReserved ip = false ∧ isUnspecified ip = false := by
  rw [isUnspecified_iff]
  exact ⟨not_listed_of_contains (by decide) h, Network.not_contains_of_not_overlaps (by decide) h,
    Network.not_contains_of_not_overlaps (by decide) h, Network.not_contains_of_not_overlaps (by decide) h,
    Network.not_contains_of_not_overlaps (by decide) h, Network.not_contains_of_not_overlaps (by decide) h⟩

end IPv4

namespace Address

/-- A unicast address of the internet, or the mapped form of one. -/
def GloballyRoutable (ip : Address) : Prop :=
  match ip.unmapped with
  | .v4 ip => IPv4.GloballyRoutable ip
  | .v6 ip =>
      isPrivate (.v6 ip) = false ∧ isLoopback true (.v6 ip) = false ∧ isLinkLocal true (.v6 ip) = false ∧
        isMulticast true (.v6 ip) = false ∧ isReserved true (.v6 ip) = false ∧ isUnspecified true (.v6 ip) = false

/-- In the shared address space, or the mapped form of an address there. -/
def isShared (ip : Address) : Bool :=
  match ip.unmapped with
  | .v4 ip => IPv4.publicNetwork.contains ip
  | .v6 _ => false

end Address

/-! ## texts -/

/-- `int(text, base)` of digits. -/
def ofDigits (base : Nat) (digits : List Char) : Nat :=
  digits.foldl (fun n c =>
    base * n + if c.isDigit then c.toNat - '0'.toNat else c.toLower.toNat - 'a'.toNat + 10) 0

def parseOctet (octet : List Char) : Option Nat :=
  if octet = [] ∨ !octet.all Char.isDigit ∨ octet.length > 3 then none
  else if octet ≠ ['0'] ∧ octet.head? = some '0' then none
  else if ofDigits 10 octet > 255 then none
  else some (ofDigits 10 octet)

/-- `IPv4Address(text)` -/
def ipv4Address (text : List Char) : Option (BitVec 32) :=
  match (text.splitOn '.').mapM parseOctet with
  | some [a, b, c, d] => if '/' ∈ text then none else some (octets a b c d)
  | _ => none

/-- `to_bytes(4, 'big')` -/
def IPv4.toBytes (ip : BitVec 32) : List Nat :=
  [ip.toNat / 256 ^ 3 % 256, ip.toNat / 256 ^ 2 % 256, ip.toNat / 256 % 256, ip.toNat % 256]

/-- `_string_from_ip_int` -/
def IPv4.toText (ip : BitVec 32) : List Char :=
  ['.'].intercalate ((toBytes ip).map (Nat.toDigits 10))

/-- A number below 256 is read back from its digits. -/
theorem parseOctet_toDigits : ∀ n < 256, parseOctet (Nat.toDigits 10 n) = some n := by decide +kernel

theorem not_mem_toDigits {c : Char} (hc : c.isDigit = false) : c ∉ Nat.toDigits 10 n := by
  intro hmem
  rw [Nat.isDigit_of_mem_toDigits (by decide) (by decide) hmem] at hc
  contradiction

theorem mapM_parseOctet {ns : List Nat} (h : ∀ n ∈ ns, n < 256) :
    (ns.map (Nat.toDigits 10)).mapM parseOctet = some ns := by
  induction ns with
  | nil => rfl
  | cons n ns ih =>
      rw [List.forall_mem_cons] at h
      simp [parseOctet_toDigits n h.1, ih h.2]

/-- An address is put together from its four octets. -/
theorem octets_toBytes (ip : BitVec 32) :
    octets (ip.toNat / 256 ^ 3 % 256) (ip.toNat / 256 ^ 2 % 256) (ip.toNat / 256 % 256) (ip.toNat % 256) = ip := by
  apply BitVec.eq_of_toNat_eq
  have hlt := ip.isLt
  simp only [octets, BitVec.toNat_ofNat]
  omega

/-- An address is read back from its text. -/
theorem ipv4Address_toText (ip : BitVec 32) : ipv4Address (IPv4.toText ip) = some ip := by
  have hsplit : (IPv4.toText ip).splitOn '.' = (IPv4.toBytes ip).map (Nat.toDigits 10) := by
    apply List.splitOn_intercalate
    · simp [not_mem_toDigits]
    · simp [IPv4.toBytes]
  have hbytes : ∀ n ∈ IPv4.toBytes ip, n < 256 := by
    simp only [IPv4.toBytes, List.mem_cons, List.not_mem_nil, or_false]
    omega
  have hslash : '/' ∉ IPv4.toText ip := by
    simp [IPv4.toText, IPv4.toBytes, List.intercalate, List.intersperse, not_mem_toDigits]
  rw [ipv4Address, hsplit, mapM_parseOctet hbytes]
  simp only [IPv4.toBytes, hslash, if_false, octets_toBytes]

def isHexDigit (c : Char) : Bool := c.isDigit || ('a' ≤ c && c ≤ 'f') || ('A' ≤ c && c ≤ 'F')

/-- `_parse_hextet`; the empty text is no number. -/
def parseHextet (hextet : List Char) : Option Nat :=
  if !hextet.all isHexDigit ∨ hextet.length > 4 ∨ hextet = [] then none else some (ofDigits 16 hextet)

/-- The parts between the colons, an IPv4 address at the end as two hextets. -/
def ipv6Parts (text : List Char) : Option (List (List Char)) :=
  let parts := text.splitOn ':'
  let last := parts.getLastD []
  if parts.length < 3 then none
  else if '.' ∈ last then
    (ipv4Address last).map fun ip =>
      parts.dropLast ++ [Nat.toDigits 16 (ip.toNat / 65536), Nat.toDigits 16 (ip.toNat % 65536)]
  else some parts

/-- The number of parts before `::`, of zeros in its place, and of parts after it. -/
def ipv6Counts (parts : List (List Char)) : Option (Nat × Nat × Nat) :=
  match (List.range' 1 (parts.length - 2)).filter fun i => parts[i]? = some [] with
  | [] =>
      if parts.length ≠ 8 ∨ parts.head? = some [] ∨ parts.getLast? = some [] then none
      else some (parts.length, 0, 0)
  | [skip] =>
      let leading := decide (parts.head? = some [])
      let trailing := decide (parts.getLast? = some [])
      let hi := if leading then skip - 1 else skip
      let lo := parts.length - skip - 1 - if trailing then 1 else 0
      if leading ∧ hi ≠ 0 ∨ trailing ∧ lo ≠ 0 ∨ 8 < hi + lo + 1 then none else some (hi, 8 - (hi + lo), lo)
  | _ => none

/-- `_BaseV6._ip_int_from_string` -/
def ipv6Value (text : List Char) : Option (BitVec 128) := do
  let parts ← ipv6Parts text
  if parts.length > 9 then none
  let (hi, skipped, lo) ← ipv6Counts parts
  let first ← (parts.take hi).mapM parseHextet
  let last ← (parts.drop (parts.length - lo)).mapM parseHextet
  some (hextets (first ++ List.replicate skipped 0 ++ last))

/-- `IPv6Address(text)`; the scope of the address is not kept. -/
def ipv6Address (text : List Char) : Option (BitVec 128) :=
  let scope := (text.dropWhile (· ≠ '%')).tail
  if '/' ∈ text then none
  else if '%' ∈ text ∧ (scope = [] ∨ '%' ∈ scope) then none
  else ipv6Value (text.takeWhile (· ≠ '%'))

/-- `ip_address(text)` -/
def ipAddress (text : List Char) : Option Address :=
  ((ipv4Address text).map .v4).orElse fun _ => (ipv6Address text).map .v6

theorem ipAddress_toText (ip : BitVec 32) : ipAddress (IPv4.toText ip) = some (.v4 ip) := by
  simp [ipAddress, ipv4Address_toText]

end IpAddress
