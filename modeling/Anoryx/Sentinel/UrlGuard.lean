import Anoryx.IpAddress

/-!
# Anoryx.Sentinel.UrlGuard

The guard of outbound webhooks (`webhooks/url_guard.py`) from the resolved addresses on.

`_is_public_ip` classifies the text of an address: it takes exactly the texts of globally
routable addresses (`isPublicIp_iff`).  `_strict_guard` takes a host all of whose addresses pass.
-/

namespace Anoryx.Sentinel.UrlGuard

open IpAddress

/-- The checks of `_is_public_ip` on an address that is no mapped one. -/
def isPublicAddress (mapped : Bool) (ip : Address) : Bool :=
  if ip.isLoopback mapped then false
  else if ip.isPrivate then false
  else if ip.isLinkLocal mapped then false
  else if ip.isMulticast mapped then false
  else if ip.isUnspecified mapped then false
  else if ip.isReserved mapped then false
  else
    match ip with
    | .v4 _ => ip.isGlobal mapped
    | .v6 n => if n >>> 120 = 0xfc ∨ n >>> 120 = 0xfd then false else ip.isGlobal mapped

/-- `_is_public_ip`; of a mapped address, the text of the address in it is classified. -/
def isPublicIp (mapped : Bool) (addrStr : List Char) : Bool :=
  match ipAddress addrStr with
  | none => false
  | some (.v4 ip) => isPublicAddress mapped (.v4 ip)
  | some (.v6 ip) =>
      match IPv6.ipv4Mapped ip with
      | some ip4 => ((ipAddress (IPv4.toText ip4)).map (isPublicAddress mapped)).getD false
      | none => isPublicAddress mapped (.v6 ip)

variable {mapped : Bool} {text : List Char} {ip : BitVec 128}

theorem isPublicIp_eq {ip : Address} (h : ipAddress text = some ip) :
    isPublicIp mapped text = isPublicAddress mapped ip.unmapped := by
  cases ip with
  | v4 ip => simp [isPublicIp, h, Address.unmapped]
  | v6 ip => cases h' : IPv6.ipv4Mapped ip <;> simp [isPublicIp, h, h', Address.unmapped, ipAddress_toText]

theorem isPublicAddress_v4 (mapped : Bool) (ip : BitVec 32) :
    isPublicAddress mapped (.v4 ip) = true ↔ IPv4.GloballyRoutable ip := by
  have hprivate : IPv4.isGlobal ip = true → IPv4.isPrivate ip = false := by
    intro h
    simpa using (Bool.and_eq_true_iff.mp h).2
  rw [IPv4.globallyRoutable_iff]
  simp only [isPublicAddress, Address.isLoopback, Address.isPrivate, Address.isLinkLocal, Address.isMulticast,
    Address.isUnspecified, Address.isReserved, Address.isGlobal, Address.property]
  grind

theorem isPrivate_of_uniqueLocal (h : ip >>> 120 = 0xfc ∨ ip >>> 120 = 0xfd) :
    listed IPv6.privateNetworks IPv6.privateNetworksExceptions ip = true := by
  have hshift : ip >>> 121 = 0x7e := by
    rw [BitVec.shiftRight_add ip 120 1]
    rcases h with h | h <;> rw [h] <;> decide
  have hcontains : (v6Network [0xfc00] 7).contains ip = true := by
    rw [Network.contains_iff]
    calc ip &&& netmask 128 7
        = (ip >>> 121) <<< 121 := and_netmask 7 ip
      _ = hextets [0xfc00] := by rw [hshift]; decide
  exact listed_of_contains (by decide) (by decide) hcontains

theorem isPublicAddress_v6 (h : IPv6.ipv4Mapped ip = none) :
    isPublicAddress mapped (.v6 ip) = true ↔ (Address.v6 ip).GloballyRoutable := by
  have huniqueLocal : ip >>> 120 = 0xfc ∨ ip >>> 120 = 0xfd → (Address.v6 ip).isPrivate = true := by
    intro hlocal
    simpa [Address.isPrivate, Address.property, h] using isPrivate_of_uniqueLocal hlocal
  have hunmapped : (Address.v6 ip).unmapped = .v6 ip := by simp [Address.unmapped, h]
  simp only [isPublicAddress, Address.GloballyRoutable, hunmapped, Address.isLoopback, Address.isLinkLocal,
    Address.isMulticast, Address.isUnspecified, Address.isReserved, Address.isGlobal, Address.property, h]
  grind

/-- Public is what is globally routable. -/
theorem isPublicIp_iff {ip : Address} (h : ipAddress text = some ip) :
    isPublicIp mapped text = true ↔ ip.GloballyRoutable := by
  rw [isPublicIp_eq h]
  cases ip with
  | v4 ip => exact isPublicAddress_v4 mapped ip
  | v6 ip =>
      cases h' : IPv6.ipv4Mapped ip with
      | none =>
          have hunmapped : (Address.v6 ip).unmapped = .v6 ip := by simp [Address.unmapped, h']
          rw [hunmapped]
          exact isPublicAddress_v6 h'
      | some ip4 =>
          have hunmapped : (Address.v6 ip).unmapped = .v4 ip4 := by simp [Address.unmapped, h']
          rw [hunmapped, isPublicAddress_v4, Address.GloballyRoutable, hunmapped]

/-! ## the guard of a host -/

/-- `GuardResult`; the host is the caller's. -/
structure GuardResult where
  allowed : Bool
  reason : Option String
  pinnedIp : Option (List Char)

/-- `_strict_guard`, given what the resolver answers: the texts of the addresses, or that it
raised. -/
def strictGuard (mapped : Bool) (addrinfos : Option (List (List Char))) : GuardResult :=
  match addrinfos with
  | none => ⟨false, some "dns_resolve_failed", none⟩
  | some [] => ⟨false, some "no_public_ip_resolved", none⟩
  | some (ip :: ips) =>
      if (ip :: ips).all (isPublicIp mapped) then ⟨true, none, some ip⟩
      else ⟨false, some "private_ip_resolved", none⟩

theorem strictGuard_allowed_iff (mapped : Bool) (ips : List (List Char)) :
    (strictGuard mapped (some ips)).allowed = true ↔ ips ≠ [] ∧ ∀ ip ∈ ips, isPublicIp mapped ip = true := by
  cases ips with
  | nil => simp [strictGuard]
  | cons ip ips =>
      simp only [strictGuard]
      split
      case isTrue h => simpa [List.all_eq_true] using h
      case isFalse h => simpa [List.all_eq_true] using h

end Anoryx.Sentinel.UrlGuard
