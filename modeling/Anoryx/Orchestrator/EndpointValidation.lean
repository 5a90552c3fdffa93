import Anoryx.PyDecimal
import Anoryx.Raising
import Anoryx.Sentinel.UrlGuard
import Anoryx.UrlSplit

/-!
# Anoryx.Orchestrator.EndpointValidation

The guard of the registry's endpoints (`coordination/endpoint_validation.py`).

`validate_endpoint` reads an endpoint's URL, resolves its host and refuses it when one of the
addresses is blocked, unless the host is allowlisted.  `_is_blocked_ip` blocks an address by its
properties.  They leave out the shared address space, which is neither private nor global
(`isBlockedIp_eq_false_iff`): the endpoints that get through to it are those with an address there
and none that is blocked.
-/

namespace Anoryx.Orchestrator.EndpointValidation

open IpAddress UrlSplit
open Anoryx.Sentinel.UrlGuard (strictGuard strictGuard_allowed_iff isPublicIp_iff)

/-! ## refusals -/

structure EndpointValidationError where
  reason : String
  message : String
  deriving DecidableEq

/-- How `validate_endpoint` raises: for an endpoint that fails, or with what the resolver raises
besides `gaierror`. -/
inductive Failure where
  | invalid (error : EndpointValidationError)
  | resolver
  deriving DecidableEq

def refused (reason message : String) : Failure := .invalid ⟨reason, message⟩

/-! ## addresses -/

def isBlockedIp (mapped : Bool) (ip : Address) : Bool :=
  ip.isPrivate || ip.isLoopback mapped || ip.isLinkLocal mapped || ip.isMulticast mapped || ip.isReserved mapped ||
    ip.isUnspecified mapped

theorem isBlockedIp_v4 (mapped : Bool) (ip : BitVec 32) :
    isBlockedIp mapped (.v4 ip) = false ↔ IPv4.GloballyRoutable ip ∨ IPv4.publicNetwork.contains ip = true := by
  simp only [isBlockedIp, Address.isPrivate, Address.isLoopback, Address.isLinkLocal, Address.isMulticast,
    Address.isReserved, Address.isUnspecified, Address.property, Bool.or_eq_false_iff]
  cases hshared : IPv4.publicNetwork.contains ip with
  | true => simp [IPv4.properties_of_shared hshared]
  | false =>
      have hglobal : IPv4.isGlobal ip = !IPv4.isPrivate ip := by simp [IPv4.isGlobal, hshared]
      rw [IPv4.globallyRoutable_iff, hglobal]
      grind

theorem isBlockedIp_eq_false_iff (mapped : Bool) (ip : Address) :
    isBlockedIp mapped ip = false ↔
      (ip.GloballyRoutable ∨ ip.isShared = true) ∧ (mapped = false → ip.unmapped = ip) := by
  cases ip with
  | v4 ip => simp [isBlockedIp_v4, Address.GloballyRoutable, Address.isShared, Address.unmapped]
  | v6 ip =>
      cases hip : IPv6.ipv4Mapped ip with
      | none =>
          have hunmapped : (Address.v6 ip).unmapped = .v6 ip := by simp [Address.unmapped, hip]
          simp only [isBlockedIp, Address.GloballyRoutable, Address.isShared, hunmapped, Address.isPrivate,
            Address.isLoopback, Address.isLinkLocal, Address.isMulticast, Address.isReserved, Address.isUnspecified,
            Address.property, hip]
          grind
      | some ip4 =>
          have hunmapped : (Address.v6 ip).unmapped = .v4 ip4 := by simp [Address.unmapped, hip]
          cases mapped with
          | false => simp [isBlockedIp, Address.isReserved_of_mapped hip, hunmapped]
          | true =>
              have hsame : isBlockedIp true (.v6 ip) = isBlockedIp true (.v4 ip4) := by
                simp [isBlockedIp, Address.isPrivate, Address.isLoopback, Address.isLinkLocal, Address.isMulticast,
                  Address.isReserved, Address.isUnspecified, Address.property, hip]
              simp [hsame, isBlockedIp_v4, Address.GloballyRoutable, Address.isShared, hunmapped]

theorem not_globallyRoutable_of_isShared {ip : Address} (h : ip.isShared = true) : ¬ ip.GloballyRoutable := by
  rw [Address.isShared] at h
  rw [Address.GloballyRoutable]
  split at h
  case h_1 ip4 hip =>
    intro hroutable
    have hglobal := hroutable.1
    simp [IPv4.isGlobal, h] at hglobal
  case h_2 => contradiction

/-- What `getaddrinfo` does: it answers with the texts of addresses, or raises. -/
inductive Lookup where
  | infos (candidates : List (List Char))
  | gaierror
  | raises

def resolveIps (getaddrinfo : List Char → Lookup) (host : List Char) : Except Failure (List Address) :=
  match ipAddress host with
  | some ip => .ok [ip]
  | none =>
      match getaddrinfo host with
      | .raises => .error .resolver
      | .gaierror => .error (refused "dns_resolution_failed" "endpoint host could not be resolved")
      | .infos candidates =>
          match candidates.filterMap ipAddress with
          | [] => .error (refused "dns_resolution_failed" "endpoint host resolved to no usable addresses")
          | ips => .ok ips

/-! ## endpoints -/

/-- `str.strip` -/
def strip (text : List Char) : List Char :=
  ((text.dropWhile PyDecimal.isSpace).reverse.dropWhile PyDecimal.isSpace).reverse

def https : List Char := ['h', 't', 't', 'p', 's']

def http : List Char := ['h', 't', 't', 'p']

/-- What `validate_endpoint` reads of a URL. -/
structure Target where
  scheme : List Char
  host : List Char
  port : Option Nat

/-- `validate_endpoint` up to the port -/
def target (u : Unicode) (url : List Char) : Except Failure Target :=
  if strip url = [] then .error (refused "empty_endpoint" "endpoint is empty")
  else
    match urlsplit u (strip url) with
    | none => .error (refused "malformed_url" "endpoint is not a valid URL")
    | some parts =>
        let scheme := u.lower parts.scheme
        if scheme ≠ https ∧ scheme ≠ http then
          .error (refused "scheme_not_allowed" ("scheme '" ++ String.ofList scheme ++ "' is not allowed"))
        else if parts.username.getD [] ≠ [] ∨ parts.password.getD [] ≠ [] then
          .error (refused "embedded_credentials" "endpoint must not embed credentials")
        else if parts.fragment ≠ [] then
          .error (refused "fragment_not_allowed" "endpoint must not contain a fragment")
        else
          match parts.hostname u, parts.port with
          | none, _ => .error (refused "missing_host" "endpoint has no host")
          | some _, none => .error (refused "malformed_url" "endpoint has an invalid port")
          | some host, some port => .ok ⟨scheme, u.lower host, port⟩

/-- The host is on the list, or the host with its port is. -/
def Target.allowlisted (t : Target) (allowlist : List (List Char)) : Bool :=
  allowlist.contains t.host || t.port.any fun port => allowlist.contains (t.host ++ ':' :: Nat.toDigits 10 port)

def validateEndpoint (u : Unicode) (mapped : Bool) (getaddrinfo : List Char → Lookup) (url : List Char)
    (allowlist : List (List Char)) (allowHttp : Bool) : Except Failure (List Char) := do
  let t ← target u url
  if t.scheme = http ∧ ¬(allowHttp = true ∧ t.allowlisted allowlist = true) then
    throw (refused "http_not_allowed" "http requires an allowlisted host and ORCH_REGISTRY_ALLOW_HTTP")
  let ips ← resolveIps getaddrinfo t.host
  if ips.any fun ip => isBlockedIp mapped ip && !t.allowlisted allowlist then
    throw (refused "blocked_private_ip" "endpoint resolves to a blocked (private/loopback) address")
  return strip url

section Guard

variable {u : Unicode} {mapped : Bool} {getaddrinfo : List Char → Lookup} {url raw : List Char}
  {allowlist : List (List Char)} {allowHttp : Bool}

theorem validateEndpoint_eq_ok :
    validateEndpoint u mapped getaddrinfo url allowlist allowHttp = .ok raw ↔
      raw = strip url ∧ ∃ t ips, target u url = .ok t ∧ resolveIps getaddrinfo t.host = .ok ips ∧
        (t.scheme = http → allowHttp = true ∧ t.allowlisted allowlist = true) ∧
        (t.allowlisted allowlist = false → ∀ ip ∈ ips, isBlockedIp mapped ip = false) := by
  rw [validateEndpoint, Raising.bind_eq_ok]
  constructor
  · intro ⟨t, htarget, h⟩
    split at h
    case isTrue => contradiction
    case isFalse hhttp =>
      obtain ⟨ips, hips, h⟩ := Raising.bind_eq_ok.mp h
      split at h
      case isTrue => contradiction
      case isFalse hblocked =>
        refine ⟨(Except.ok.inj h).symm, t, ips, htarget, hips, ?_, ?_⟩
        · exact fun hscheme => not_not.mp fun hnot => hhttp ⟨hscheme, hnot⟩
        · intro hallow ip hip
          simp only [List.any_eq_true, not_exists, not_and, hallow, Bool.not_false, Bool.and_true] at hblocked
          simpa using hblocked ip hip
  · intro ⟨hraw, t, ips, htarget, hips, hhttp, hblocked⟩
    refine ⟨t, htarget, ?_⟩
    rw [if_neg fun hnot => hnot.2 (hhttp hnot.1)]
    refine Raising.bind_eq_ok.mpr ⟨ips, hips, ?_⟩
    rw [if_neg, hraw]
    · rfl
    · simp only [List.any_eq_true, Bool.and_eq_true, Bool.not_eq_true', not_exists, not_and]
      intro ip hip hblockedIp hallow
      rw [hblocked hallow ip hip] at hblockedIp
      contradiction

/-- What the guard is for.  Plain `http` is for allowlisted hosts where it is allowed.  All
addresses of a host that is not allowlisted are globally routable, and the guard of the webhooks
would take each, whatever its text. -/
def OnlyPublic (u : Unicode) (mapped mapped' : Bool) (getaddrinfo : List Char → Lookup) (url : List Char)
    (allowlist : List (List Char)) (allowHttp : Bool) : Prop :=
  ∀ raw, validateEndpoint u mapped getaddrinfo url allowlist allowHttp = .ok raw →
    ∃ t ips, target u url = .ok t ∧ resolveIps getaddrinfo t.host = .ok ips ∧
      (t.scheme = http → allowHttp = true ∧ t.allowlisted allowlist = true) ∧
      (t.allowlisted allowlist = false → ∀ ip ∈ ips, ip.GloballyRoutable ∧
        ∀ text, ipAddress text = some ip → (strictGuard mapped' (some [text])).allowed = true)

/-- Every address that resolves to the shared space comes with one that is blocked. -/
def SharedIsBlocked (mapped : Bool) (ips : List Address) : Prop :=
  (∃ ip ∈ ips, ip.isShared = true) → ∃ ip ∈ ips, isBlockedIp mapped ip = true

/-- The guard fails its purpose for the hosts in the shared address space, and for no other. -/
theorem onlyPublic_iff (u : Unicode) (mapped mapped' : Bool) (getaddrinfo : List Char → Lookup) (url : List Char)
    (allowlist : List (List Char)) (allowHttp : Bool) :
    OnlyPublic u mapped mapped' getaddrinfo url allowlist allowHttp ↔
      ∀ t ips, target u url = .ok t → resolveIps getaddrinfo t.host = .ok ips → t.scheme ≠ http →
        t.allowlisted allowlist = false → SharedIsBlocked mapped ips := by
  constructor
  · intro h t ips htarget hips hscheme hallow hshared
    by_contra hnone
    have hblocked : ∀ ip ∈ ips, isBlockedIp mapped ip = false := by
      intro ip hip
      by_contra hip'
      exact hnone ⟨ip, hip, by simpa using hip'⟩
    obtain ⟨t', ips', htarget', hips', -, hpublic⟩ :=
      h _ (validateEndpoint_eq_ok.mpr ⟨rfl, t, ips, htarget, hips, fun hhttp => absurd hhttp hscheme, fun _ => hblocked⟩)
    obtain rfl : t = t' := Except.ok.inj (htarget.symm.trans htarget')
    obtain rfl : ips = ips' := Except.ok.inj (hips.symm.trans hips')
    obtain ⟨ip, hip, hshared⟩ := hshared
    exact not_globallyRoutable_of_isShared hshared (hpublic hallow ip hip).1
  · intro h raw hok
    obtain ⟨-, t, ips, htarget, hips, hhttp, hblocked⟩ := validateEndpoint_eq_ok.mp hok
    refine ⟨t, ips, htarget, hips, hhttp, ?_⟩
    intro hallow ip hip
    have hscheme : t.scheme ≠ http := by
      intro hscheme
      rw [(hhttp hscheme).2] at hallow
      contradiction
    have hnotShared : ip.isShared ≠ true := by
      intro hshared
      obtain ⟨ip', hip', hblocked'⟩ := h t ips htarget hips hscheme hallow ⟨ip, hip, hshared⟩
      rw [hblocked hallow ip' hip'] at hblocked'
      contradiction
    have hroutable : ip.GloballyRoutable :=
      ((isBlockedIp_eq_false_iff mapped ip).mp (hblocked hallow ip hip)).1.resolve_right hnotShared
    constructor
    · exact hroutable
    · intro text htext
      rw [strictGuard_allowed_iff]
      simpa using (isPublicIp_iff htext).mpr hroutable

end Guard

/-! ## an endpoint in the shared space -/

/-- `https://relay.example` -/
def sampleUrl : List Char := https ++ [':', '/', '/', 'r', 'e', 'l', 'a', 'y', '.', 'e', 'x', 'a', 'm', 'p', 'l', 'e']

/-- Every host is at `100.64.0.1`. -/
def sampleLookup (_host : List Char) : Lookup := .infos [['1', '0', '0', '.', '6', '4', '.', '0', '.', '1']]

def sampleTarget : Target := ⟨https, sampleUrl.drop 8, none⟩

/-- The host's one address is in the shared space, and the endpoint passes. -/
theorem shared_endpoint_accepted :
    target Unicode.ascii sampleUrl = .ok sampleTarget ∧
      resolveIps sampleLookup sampleTarget.host = .ok [.v4 (octets 100 64 0 1)] ∧
      sampleTarget.allowlisted [] = false ∧
      validateEndpoint Unicode.ascii true sampleLookup sampleUrl [] false = .ok sampleUrl ∧
      ¬ OnlyPublic Unicode.ascii true true sampleLookup sampleUrl [] false := by
  have htarget : target Unicode.ascii sampleUrl = .ok sampleTarget := by rfl
  have hips : resolveIps sampleLookup sampleTarget.host = .ok [.v4 (octets 100 64 0 1)] := by rfl
  have hallow : sampleTarget.allowlisted [] = false := by decide
  have hblocked : isBlockedIp true (.v4 (octets 100 64 0 1)) = false := by decide
  have hraw : sampleUrl = strip sampleUrl := by decide
  have hok : validateEndpoint Unicode.ascii true sampleLookup sampleUrl [] false = .ok sampleUrl := by
    rw [validateEndpoint_eq_ok]
    refine ⟨hraw, sampleTarget, _, htarget, hips, fun hscheme => absurd hscheme (by decide), ?_⟩
    simp [hblocked]
  refine ⟨htarget, hips, hallow, hok, ?_⟩
  intro h
  obtain ⟨t, ips, htarget', hips', -, hpublic⟩ := h sampleUrl hok
  obtain rfl := Except.ok.inj (htarget.symm.trans htarget')
  obtain rfl := Except.ok.inj (hips.symm.trans hips')
  exact not_globallyRoutable_of_isShared (by decide) (hpublic hallow _ (List.mem_singleton_self _)).1

end Anoryx.Orchestrator.EndpointValidation
