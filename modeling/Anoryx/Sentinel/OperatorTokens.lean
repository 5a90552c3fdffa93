import Anoryx.Raising
import Anoryx.Base64
import Anoryx.PyInt
import Anoryx.PyText

/-!
# Anoryx.Sentinel.OperatorTokens

The operator-session tokens of the admin API (`admin/sso/session.py`): `mint` and `verify`.

A token is a payload, a point and the signature of the payload, both in the alphabet that is safe
in a URL.  `verify` reads back what `mint` wrote (`verify_mint`) and accepts nothing that was not
signed (`of_verify_eq_ok`).  It turns what the payload raises into its own error, but not what the
signature raises: a segment that is not ASCII is an error of Python's (`sessionTokens_iff`).

HMAC is a parameter, and so are `json.loads` and the conversions of values that are no text; of
`json.loads` it is used that it reads back what `mint` wrote.
-/

namespace Anoryx.Sentinel.OperatorTokens

open PyJson PyText Base64 Raising
open PyInt (Readable)

variable {F α : Type} [FloatFormat F]

/-! ## errors -/

inductive PyError where
  | key
  | type
  | value
  /-- a `ValueError` of `encode("ascii")` -/
  | unicodeEncode
  | overflow
  | recursion
  deriving DecidableEq, Repr

/-- `except (KeyError, TypeError, ValueError)` -/
def PyError.isCaught : PyError → Bool
  | .key | .type | .value | .unicodeEncode => true
  | .overflow | .recursion => false

inductive Raised where
  | operatorSession
  | python (e : PyError)
  deriving DecidableEq, Repr

def raising : Except PyError α → Except Raised α := Except.mapError .python

theorem raising_ok (a : α) : raising (.ok a : Except PyError α) = .ok a := rfl

theorem raising_error (e : PyError) : raising (.error e : Except PyError α) = .error (.python e) := rfl

/-- A guarded part: what it raises becomes an `OperatorSessionError`, if it is caught. -/
def guarded : Except PyError α → Except Raised α :=
  Except.mapError fun e => if e.isCaught then .operatorSession else .python e

theorem guarded_ok (a : α) : guarded (.ok a : Except PyError α) = .ok a := rfl

variable {x : Except PyError α} {e : PyError} {iat : Int}

theorem guarded_eq_ok {a : α} : guarded x = .ok a ↔ x = .ok a := by
  cases x <;> simp [guarded, Except.mapError]

theorem guarded_eq_python : guarded x = .error (.python e) ↔ x = .error e ∧ e.isCaught = false := by
  cases x with
  | ok a => simp [guarded, Except.mapError]
  | error e' =>
      simp only [guarded, Except.mapError, Except.error.injEq]
      split <;> grind

/-! ## libraries -/

/-- `hmac.new(secret, message, sha256).digest()` -/
structure Hmac where
  digest : Bytes → Bytes → Bytes
  length_digest : ∀ secret message, (digest secret message).length = 32

/-- A claim: a text, or an integer -/
inductive Claim where
  | str (s : String)
  | int (n : Int)

def Claim.value : Claim → Value F
  | .str s => .str s
  | .int n => .int n

def Claim.pyValue : Claim → PyValue F
  | .str s => .str (PyStr.ofString s)
  | .int n => .int n

def Claim.Readable : Claim → Prop
  | .str _ => True
  | .int n => PyInt.Readable n

/-- What is used of the interpreter.  `json.loads` reads back an object of texts and integers as
`json.dumps` wrote it, with `separators=(",", ":")`. -/
structure Interpreter (F : Type) [FloatFormat F] where
  loads : Bytes → Except PyError (PyValue F)
  /-- `int(x)` -/
  intOfFloat : F → Except PyError Int
  /-- `str(value)`, of a value that is no text -/
  str : PyValue F → Except PyError PyStr
  loads_dumps : ∀ claims : List (String × Claim), (claims.map Prod.fst).Nodup → (∀ c ∈ claims, c.2.Readable) →
    loads (utf8 (dumps ⟨true, false⟩ (.obj (claims.map fun c => (c.1, c.2.value)) : Value F))) =
      .ok (.obj (claims.map fun c => (PyStr.ofString c.1, c.2.pyValue)))

variable (hmac : Hmac) (interpreter : Interpreter F)

/-! ## segments -/

def b64urlEncode (raw : Bytes) : List CodePoint := asciiDecode (unpad (urlsafeEncode raw))

def b64urlDecode (segment : List CodePoint) : Except PyError Bytes :=
  match (asciiEncode segment).bind fun cs => urlsafeDecode (repad cs) with
  | some raw => .ok raw
  | none => .error .value

def sign (payloadB64 : List CodePoint) (secret : Bytes) : Except PyError (List CodePoint) :=
  match asciiEncode payloadB64 with
  | some message => .ok (b64urlEncode (hmac.digest secret message))
  | none => .error .unicodeEncode

/-- `hmac.compare_digest`, of two texts -/
def compareDigest (a b : List CodePoint) : Except PyError Bool :=
  if IsAscii a ∧ IsAscii b then .ok (a = b) else .error .type

/-! ## minting -/

/-- `ProvisionedPrincipal`; its texts come from the database. -/
structure ProvisionedPrincipal where
  tenantId : String
  adminUserId : String
  role : String
  deriving DecidableEq

def sessionTtlSeconds : Int := 30 * 60

/-- `payload`, with `sort_keys=True` -/
def claimsOf (principal : ProvisionedPrincipal) (iat : Int) (jti : String) : List (String × Claim) :=
  [("admin_user_id", .str principal.adminUserId), ("auth_method", .str "sso"), ("exp", .int (iat + sessionTtlSeconds)),
    ("iat", .int iat), ("jti", .str jti), ("role", .str principal.role), ("tenant_id", .str principal.tenantId)]

/-- `payload_b64` -/
def payloadSegment (F : Type) [FloatFormat F] (principal : ProvisionedPrincipal) (iat : Int) (jti : String) :
    List CodePoint :=
  b64urlEncode (utf8 (dumps ⟨true, false⟩
    (.obj ((claimsOf principal iat jti).map fun c => (c.1, c.2.value)) : Value F)))

/-- `mint`, at `int(now)` and with the hexadecimal digits of a UUID; `none` is the secret that is
not set. -/
def mint (F : Type) [FloatFormat F] (secret : Option Bytes) (principal : ProvisionedPrincipal) (iat : Int) (jti : String) :
    Except Raised PyStr :=
  match secret with
  | none => .error .operatorSession
  | some secret => do
      raiseIf (¬ (Readable iat ∧ Readable (iat + sessionTtlSeconds))) (.python .value)
      let payloadB64 := payloadSegment F principal iat jti
      let signature ← raising (sign hmac payloadB64 secret)
      pure ⟨payloadB64 ++ 0x2e :: signature⟩

/-! ## verifying -/

structure OperatorSession where
  tenantId : PyStr
  adminUserId : PyStr
  role : PyStr
  authMethod : String
  iat : Int
  exp : Int
  jti : PyStr
  deriving DecidableEq

/-- What is before and after the first point, if there is something. -/
def splitToken (token : PyStr) : Option (List CodePoint × List CodePoint) :=
  match token.points.dropWhile (· ≠ 0x2e) with
  | [] => none
  | _ :: providedSig =>
      if token.points.takeWhile (· ≠ 0x2e) = [] ∨ providedSig = [] then none
      else some (token.points.takeWhile (· ≠ 0x2e), providedSig)

/-- `payload[name]` -/
def claim (members : List (PyStr × PyValue F)) (name : String) : Except PyError (PyValue F) :=
  match pyItem (PyStr.ofString name) members with
  | some v => .ok v
  | none => .error .key

/-- `str(value)` -/
def pyStr : PyValue F → Except PyError PyStr
  | .str s => .ok s
  | v => interpreter.str v

/-- `int(value)` -/
def pyInt : PyValue F → Except PyError Int
  | .int n => .ok n
  | .bool b => .ok (if b then 1 else 0)
  | .float x => interpreter.intOfFloat x
  | .str s =>
      match PyInt.parse s with
      | some n => .ok n
      | none => .error .value
  | .null | .arr _ | .obj _ => .error .type

/-- The claims of a payload -/
def readClaims (members : List (PyStr × PyValue F)) : Except PyError OperatorSession := do
  let tenantId ← pyStr interpreter (← claim members "tenant_id")
  let adminUserId ← pyStr interpreter (← claim members "admin_user_id")
  let role ← pyStr interpreter (← claim members "role")
  let iat ← pyInt interpreter (← claim members "iat")
  let exp ← pyInt interpreter (← claim members "exp")
  let jti ← pyStr interpreter (← claim members "jti")
  pure ⟨tenantId, adminUserId, role, "sso", iat, exp, jti⟩

/-- `json.loads(_b64url_decode(payload_b64))` -/
def readPayload (payloadB64 : List CodePoint) : Except PyError (PyValue F) := do
  let raw ← b64urlDecode payloadB64
  interpreter.loads raw

/-- `payload.get("auth_method") == "sso"` -/
def isSso (members : List (PyStr × PyValue F)) : Bool :=
  match pyItem (PyStr.ofString "auth_method") members with
  | some (.str s) => s = PyStr.ofString "sso"
  | _ => false

/-- What `verify` does with a payload that is signed -/
def openPayload (payloadB64 : List CodePoint) (now : Int) : Except Raised OperatorSession := do
  match ← guarded (readPayload interpreter payloadB64) with
  | .obj members =>
      raiseIf (isSso members = false) .operatorSession
      let session ← guarded (readClaims interpreter members)
      raiseIf (session.exp ≤ session.iat) .operatorSession
      raiseIf (session.exp ≤ now) .operatorSession
      pure session
  | _ => .error .operatorSession

/-- The two segments of a token, after the split -/
def verifySegments (secret : Bytes) (payloadB64 providedSig : List CodePoint) (now : Int) :
    Except Raised OperatorSession := do
  let expectedSig ← raising (sign hmac payloadB64 secret)
  let same ← raising (compareDigest providedSig expectedSig)
  raiseIf (same = false) .operatorSession
  openPayload interpreter payloadB64 now

/-- `verify`, at `int(now)` -/
def verify (secret : Option Bytes) (token : PyStr) (now : Int) : Except Raised OperatorSession :=
  match secret, splitToken token with
  | some secret, some (payloadB64, providedSig) => verifySegments hmac interpreter secret payloadB64 providedSig now
  | _, _ => .error .operatorSession

variable {hmac interpreter} {secret : Bytes} {token : PyStr} {now : Int} {payloadB64 providedSig : List CodePoint}

/-! ## segments -/

theorem asciiEncode_b64urlEncode (raw : Bytes) : asciiEncode (b64urlEncode raw) = some (unpad (urlsafeEncode raw)) :=
  asciiEncode_asciiDecode fun c hc => ((unpad_urlsafeEncode raw).1 c hc).2.2

theorem isAscii_b64urlEncode (raw : Bytes) : IsAscii (b64urlEncode raw) :=
  isAscii_asciiDecode fun c hc => ((unpad_urlsafeEncode raw).1 c hc).2.2

theorem b64urlDecode_b64urlEncode (raw : Bytes) : b64urlDecode (b64urlEncode raw) = .ok raw := by
  rw [b64urlDecode, asciiEncode_b64urlEncode, Option.bind_some, decode_repad]

theorem b64urlEncode_ne_nil {raw : Bytes} (h : raw ≠ []) : b64urlEncode raw ≠ [] := by
  simpa [b64urlEncode, asciiDecode] using (unpad_urlsafeEncode raw).2.1 h

theorem point_not_mem_b64urlEncode (raw : Bytes) : (0x2e : CodePoint) ∉ b64urlEncode raw := by
  rw [b64urlEncode, asciiDecode, List.mem_map]
  rintro ⟨c, hc, hpoint⟩
  obtain ⟨-, hne, hlt⟩ := (unpad_urlsafeEncode raw).1 c hc
  have hc' : c.toNat < 0x80 := UInt8.lt_iff_toNat_lt.mp hlt
  have hval := congrArg Fin.val hpoint
  rw [Fin.val_ofNat, Nat.mod_eq_of_lt (by omega)] at hval
  exact hne (UInt8.toNat_inj.mp hval)

theorem splitToken_append (hpoint : (0x2e : CodePoint) ∉ payloadB64) (hpayload : payloadB64 ≠ [])
    (hsig : providedSig ≠ []) : splitToken ⟨payloadB64 ++ 0x2e :: providedSig⟩ = some (payloadB64, providedSig) := by
  have hall : ∀ p ∈ payloadB64, decide (p ≠ 0x2e) = true := fun p hp =>
    decide_eq_true fun h => hpoint (h ▸ hp)
  have htake : (payloadB64 ++ 0x2e :: providedSig).takeWhile (· ≠ 0x2e) = payloadB64 := by
    rw [List.takeWhile_append_of_pos hall]
    simp
  have hdrop : (payloadB64 ++ 0x2e :: providedSig).dropWhile (· ≠ 0x2e) = 0x2e :: providedSig := by
    rw [List.dropWhile_append_of_pos hall]
    simp
  rw [splitToken]
  simp only [hdrop, htake]
  rw [if_neg (by simp [hpayload, hsig])]

/-! ## what `verify` answers -/

theorem verify_some (hsplit : splitToken token = some (payloadB64, providedSig)) :
    verify hmac interpreter (some secret) token now =
      verifySegments hmac interpreter secret payloadB64 providedSig now := by
  simp only [verify, hsplit]

/-- With ASCII segments the signature is compared, and then the payload opened. -/
theorem verifySegments_eq {message : Bytes} (hpayload : asciiEncode payloadB64 = some message)
    (hsig : IsAscii providedSig) : verifySegments hmac interpreter secret payloadB64 providedSig now =
      if providedSig = b64urlEncode (hmac.digest secret message) then openPayload interpreter payloadB64 now
      else .error .operatorSession := by
  have hsign : sign hmac payloadB64 secret = .ok (b64urlEncode (hmac.digest secret message)) := by
    rw [sign, hpayload]
  have hcompare : compareDigest providedSig (b64urlEncode (hmac.digest secret message)) =
      .ok (decide (providedSig = b64urlEncode (hmac.digest secret message))) :=
    if_pos ⟨hsig, isAscii_b64urlEncode _⟩
  rw [verifySegments, hsign, raising_ok, ok_bind, hcompare, raising_ok, ok_bind]
  by_cases h : providedSig = b64urlEncode (hmac.digest secret message)
  · rw [if_pos h, raiseIf, if_neg (by simp [h]), ok_bind]
  · rw [if_neg h, raiseIf, if_pos (by simp [h]), error_bind]

theorem verifySegments_of_not_ascii (h : ¬ (IsAscii payloadB64 ∧ IsAscii providedSig)) :
    ∃ e, verifySegments hmac interpreter secret payloadB64 providedSig now = .error (.python e) := by
  by_cases hpayload : IsAscii payloadB64
  · obtain ⟨message, hmessage⟩ := Option.isSome_iff_exists.mp ((asciiEncode_isSome payloadB64).mpr hpayload)
    have hsig : ¬ IsAscii providedSig := fun hsig => h ⟨hpayload, hsig⟩
    have hcompare (expectedSig : List CodePoint) : compareDigest providedSig expectedSig = .error .type :=
      if_neg fun hboth => hsig hboth.1
    refine ⟨.type, ?_⟩
    simp only [verifySegments, sign, hmessage, raising_ok, ok_bind, hcompare, raising_error, error_bind]
  · refine ⟨.unicodeEncode, ?_⟩
    simp only [verifySegments, sign, asciiEncode_eq_none hpayload, raising_error, error_bind]

theorem of_verify_eq_ok {session : OperatorSession} (h : verify hmac interpreter (some secret) token now = .ok session) :
    ∃ payloadB64 message, splitToken token = some (payloadB64, b64urlEncode (hmac.digest secret message)) ∧
      asciiEncode payloadB64 = some message := by
  cases hsplit : splitToken token with
  | none => simp [verify, hsplit] at h
  | some segments =>
      obtain ⟨payloadB64, providedSig⟩ := segments
      by_cases hascii : IsAscii payloadB64 ∧ IsAscii providedSig
      · obtain ⟨message, hmessage⟩ := Option.isSome_iff_exists.mp ((asciiEncode_isSome payloadB64).mpr hascii.1)
        rw [verify_some hsplit, verifySegments_eq hmessage hascii.2] at h
        split at h
        · next hsig => exact ⟨payloadB64, message, by rw [hsig], hmessage⟩
        · contradiction
      · obtain ⟨e, he⟩ : ∃ e, verifySegments hmac interpreter secret payloadB64 providedSig now = .error (.python e) :=
          verifySegments_of_not_ascii hascii
        rw [verify_some hsplit, he] at h
        contradiction

/-! ## what `mint` wrote -/

theorem payloadSegment_facts (principal : ProvisionedPrincipal) (iat : Int) (jti : String) :
    payloadSegment F principal iat jti ≠ [] ∧ (0x2e : CodePoint) ∉ payloadSegment F principal iat jti := by
  refine ⟨b64urlEncode_ne_nil (utf8_ne_nil ?_), point_not_mem_b64urlEncode _⟩
  intro hempty
  have hlist := congrArg String.toList hempty
  simp [dumps, Value.tokens, Token.text] at hlist

theorem readPayload_payloadSegment (principal : ProvisionedPrincipal) (jti : String) (hiat : Readable iat)
    (hexp : Readable (iat + sessionTtlSeconds)) :
    readPayload interpreter (payloadSegment F principal iat jti) =
      .ok (.obj ((claimsOf principal iat jti).map fun c => (PyStr.ofString c.1, c.2.pyValue))) := by
  have hloads := interpreter.loads_dumps (claimsOf principal iat jti) (by simp [claimsOf])
    (by simp [claimsOf, Claim.Readable, hiat, hexp])
  rw [readPayload, payloadSegment, b64urlDecode_b64urlEncode]
  exact hloads

/-- The claims of a principal -/
def sessionOf (principal : ProvisionedPrincipal) (iat : Int) (jti : String) : OperatorSession where
  tenantId := PyStr.ofString principal.tenantId
  adminUserId := PyStr.ofString principal.adminUserId
  role := PyStr.ofString principal.role
  authMethod := "sso"
  iat := iat
  exp := iat + sessionTtlSeconds
  jti := PyStr.ofString jti

omit [FloatFormat F] in
theorem pyItem_claims (claims : List (String × Claim)) (name : String) :
    pyItem (PyStr.ofString name) (claims.map fun c => (PyStr.ofString c.1, (c.2.pyValue : PyValue F))) =
      (claims.find? fun c => c.1 = name).map fun c => c.2.pyValue := by
  simp [pyItem, List.find?_map, Function.comp_def]

theorem readClaims_claimsOf (principal : ProvisionedPrincipal) (iat : Int) (jti : String) :
    readClaims interpreter ((claimsOf principal iat jti).map fun c => (PyStr.ofString c.1, c.2.pyValue)) =
      .ok (sessionOf principal iat jti) := by
  simp only [readClaims, claim, pyItem_claims, claimsOf]
  simp [Claim.pyValue, pyStr, pyInt, ok_bind, sessionOf, pure, Except.pure]

omit [FloatFormat F] in
theorem isSso_claimsOf (principal : ProvisionedPrincipal) (iat : Int) (jti : String) :
    isSso ((claimsOf principal iat jti).map fun c => (PyStr.ofString c.1, (c.2.pyValue : PyValue F))) = true := by
  simp only [isSso, pyItem_claims, claimsOf]
  simp [Claim.pyValue]

theorem openPayload_payloadSegment (principal : ProvisionedPrincipal) (jti : String) (hiat : Readable iat)
    (hexp : Readable (iat + sessionTtlSeconds)) :
    openPayload interpreter (payloadSegment F principal iat jti) now =
      if now < iat + sessionTtlSeconds then .ok (sessionOf principal iat jti) else .error .operatorSession := by
  have hwindow : ¬ iat + sessionTtlSeconds ≤ iat := by
    rw [sessionTtlSeconds]
    omega
  rw [openPayload, readPayload_payloadSegment principal jti hiat hexp, guarded_ok, ok_bind]
  simp only [isSso_claimsOf, readClaims_claimsOf, guarded_ok, ok_bind, raiseIf, sessionOf, hwindow, Bool.true_eq_false,
    if_false]
  by_cases hlate : now < iat + sessionTtlSeconds
  · rw [if_neg (by omega), if_pos hlate, ok_bind]
    rfl
  · rw [if_pos (by omega), if_neg hlate, error_bind]

variable (hmac interpreter) in
/-- A minted token is accepted until it expires. -/
theorem verify_mint (principal : ProvisionedPrincipal) (jti : String) (hiat : Readable iat)
    (hexp : Readable (iat + sessionTtlSeconds)) :
    ∃ fresh, mint hmac F (some secret) principal iat jti = .ok fresh ∧
      verify hmac interpreter (some secret) fresh now =
        if now < iat + sessionTtlSeconds then .ok (sessionOf principal iat jti) else .error .operatorSession := by
  obtain ⟨hne, hpoint⟩ := payloadSegment_facts (F := F) principal iat jti
  obtain ⟨message, hmessage⟩ : ∃ message, asciiEncode (payloadSegment F principal iat jti) = some message :=
    ⟨_, asciiEncode_b64urlEncode _⟩
  have hdigest : b64urlEncode (hmac.digest secret message) ≠ [] := by
    apply b64urlEncode_ne_nil
    intro hnil
    have hlength := hmac.length_digest secret message
    rw [hnil] at hlength
    exact absurd hlength (by decide)
  have hsign : sign hmac (payloadSegment F principal iat jti) secret = .ok (b64urlEncode (hmac.digest secret message)) := by
    rw [sign, hmessage]
  have hmint : mint hmac F (some secret) principal iat jti =
      .ok ⟨payloadSegment F principal iat jti ++ 0x2e :: b64urlEncode (hmac.digest secret message)⟩ := by
    have hraise : raiseIf (¬ (Readable iat ∧ Readable (iat + sessionTtlSeconds))) (Raised.python .value) = .ok () :=
      if_neg (not_not.mpr ⟨hiat, hexp⟩)
    simp only [mint]
    rw [hraise, ok_bind, hsign, raising_ok, ok_bind]
    rfl
  refine ⟨_, hmint, ?_⟩
  rw [verify_some (splitToken_append hpoint hne hdigest), verifySegments_eq hmessage (isAscii_b64urlEncode _), if_pos rfl,
    openPayload_payloadSegment principal jti hiat hexp]

/-! ## what is raised -/

/-- `verify` returns, or raises its own error. -/
def Answers (x : Except Raised OperatorSession) : Prop := ∀ e, x ≠ .error (.python e)

variable (interpreter) in
/-- What a payload raises while it is read is caught. -/
def Quiet (payloadB64 : List CodePoint) : Prop :=
  (∀ e, readPayload interpreter payloadB64 = .error e → e.isCaught) ∧
    ∀ members, readPayload interpreter payloadB64 = .ok (.obj members) → isSso members →
      ∀ e, readClaims interpreter members = .error e → e.isCaught

theorem openPayload_eq_python : openPayload interpreter payloadB64 now = .error (.python e) ↔
    e.isCaught = false ∧ (readPayload interpreter payloadB64 = .error e ∨
      ∃ members, readPayload interpreter payloadB64 = .ok (.obj members) ∧ isSso members = true ∧
        readClaims interpreter members = .error e) := by
  rw [openPayload, bind_eq_error, guarded_eq_python]
  constructor
  · rintro (⟨hread, hcaught⟩ | ⟨v, hread, h⟩)
    · exact ⟨hcaught, Or.inl hread⟩
    · rw [guarded_eq_ok] at hread
      cases v with
      | obj members =>
          simp only [bind_eq_error, raiseIf_eq_error, guarded_eq_python, guarded_eq_ok] at h
          obtain ⟨-, h⟩ | ⟨_, hsso, ⟨hclaims, hcaught⟩ | ⟨session, -, ⟨-, h⟩ | ⟨_, -, ⟨-, h⟩ | ⟨_, -, h⟩⟩⟩⟩ := h
          · contradiction
          · rw [raiseIf_eq_ok, Bool.not_eq_false] at hsso
            exact ⟨hcaught, Or.inr ⟨members, hread, hsso, hclaims⟩⟩
          all_goals contradiction
      | _ => simp at h
  · rintro ⟨hcaught, hread | ⟨members, hread, hsso, hclaims⟩⟩
    · exact Or.inl ⟨hread, hcaught⟩
    · refine Or.inr ⟨.obj members, guarded_eq_ok.mpr hread, ?_⟩
      simp only [bind_eq_error, guarded_eq_python]
      exact Or.inr ⟨(), raiseIf_eq_ok.mpr (by simp [hsso]), Or.inl ⟨hclaims, hcaught⟩⟩

theorem answers_openPayload_iff : Answers (openPayload interpreter payloadB64 now) ↔ Quiet interpreter payloadB64 := by
  constructor
  · intro h
    refine ⟨?_, ?_⟩
    · intro e hread
      by_contra hcaught
      exact h e (openPayload_eq_python.mpr ⟨by simpa using hcaught, Or.inl hread⟩)
    · intro members hread hsso e hclaims
      by_contra hcaught
      exact h e (openPayload_eq_python.mpr ⟨by simpa using hcaught, Or.inr ⟨members, hread, hsso, hclaims⟩⟩)
  · rintro ⟨hread, hclaims⟩ e he
    obtain ⟨hcaught, hread' | ⟨members, hread', hsso, hclaims'⟩⟩ := openPayload_eq_python.mp he
    · simp [hread e hread'] at hcaught
    · simp [hclaims members hread' hsso e hclaims'] at hcaught

variable (hmac interpreter) in
/-- A token with two segments has them in ASCII, and if it is signed its payload is quiet. -/
def Clean (secret : Bytes) (token : PyStr) : Prop :=
  ∀ payloadB64 providedSig, splitToken token = some (payloadB64, providedSig) →
    IsAscii payloadB64 ∧ IsAscii providedSig ∧
      (sign hmac payloadB64 secret = .ok providedSig → Quiet interpreter payloadB64)

/-- A token gets an answer just when it is clean. -/
theorem answers_verify_iff : Answers (verify hmac interpreter (some secret) token now) ↔
    Clean hmac interpreter secret token := by
  cases hsplit : splitToken token with
  | none => simp [Answers, Clean, verify, hsplit]
  | some segments =>
      obtain ⟨payloadB64, providedSig⟩ := segments
      have hclean : Clean hmac interpreter secret token ↔ IsAscii payloadB64 ∧ IsAscii providedSig ∧
          (sign hmac payloadB64 secret = .ok providedSig → Quiet interpreter payloadB64) := by
        rw [Clean, hsplit]
        constructor
        · exact fun h => h payloadB64 providedSig rfl
        · rintro h _ _ hsegments
          obtain ⟨rfl, rfl⟩ := Prod.mk.inj (Option.some.inj hsegments)
          exact h
      rw [hclean, verify_some hsplit]
      by_cases hascii : IsAscii payloadB64 ∧ IsAscii providedSig
      · obtain ⟨message, hmessage⟩ := Option.isSome_iff_exists.mp ((asciiEncode_isSome payloadB64).mpr hascii.1)
        have hsign : sign hmac payloadB64 secret = .ok (b64urlEncode (hmac.digest secret message)) := by
          rw [sign, hmessage]
        rw [verifySegments_eq hmessage hascii.2, hsign, Except.ok.injEq]
        by_cases hsig : providedSig = b64urlEncode (hmac.digest secret message)
        · rw [if_pos hsig, answers_openPayload_iff]
          exact ⟨fun h => ⟨hascii.1, hascii.2, fun _ => h⟩, fun h => h.2.2 hsig.symm⟩
        · rw [if_neg hsig]
          exact ⟨fun _ => ⟨hascii.1, hascii.2, fun h => absurd h.symm hsig⟩, fun _ e he => by simp at he⟩
      · obtain ⟨e, he⟩ : ∃ e, verifySegments hmac interpreter secret payloadB64 providedSig now = .error (.python e) :=
          verifySegments_of_not_ascii hascii
        exact ⟨fun h => absurd he (h e), fun h => absurd ⟨h.1, h.2.1⟩ hascii⟩

/-! ## the law of the tokens -/

variable (hmac) in
/-- Of the messages only what `mint` has signed has the signature that the token presents. -/
def Unforged (F : Type) [FloatFormat F] (secret : Bytes) (minted : List (ProvisionedPrincipal × Int × String))
    (token : PyStr) : Prop :=
  ∀ payloadB64 providedSig message, splitToken token = some (payloadB64, providedSig) →
    providedSig = b64urlEncode (hmac.digest secret message) →
      ∃ m ∈ minted, asciiEncode (payloadSegment F m.1 m.2.1 m.2.2) = some message

variable (hmac interpreter) in
/-- What is asked of `mint` and `verify`, of a principal and of a token that is presented -/
structure SessionTokens (secret : Bytes) (principal : ProvisionedPrincipal) (iat : Int) (jti : String)
    (minted : List (ProvisionedPrincipal × Int × String)) (token : PyStr) (now : Int) : Prop where
  roundTrip : ∃ fresh, mint hmac F (some secret) principal iat jti = .ok fresh ∧
    (verify hmac interpreter (some secret) fresh now = .ok (sessionOf principal iat jti) ↔ now < iat + sessionTtlSeconds)
  answers : Answers (verify hmac interpreter (some secret) token now)
  authentic : Unforged hmac F secret minted token → ∀ session,
    verify hmac interpreter (some secret) token now = .ok session →
      ∃ m ∈ minted, ∃ providedSig, splitToken token = some (payloadSegment F m.1 m.2.1 m.2.2, providedSig)

/-- The law holds exactly of times that JSON can be read with and of clean tokens. -/
theorem sessionTokens_iff (hmac : Hmac) (interpreter : Interpreter F) (secret : Bytes) (principal : ProvisionedPrincipal)
    (iat : Int) (jti : String) (minted : List (ProvisionedPrincipal × Int × String)) (token : PyStr) (now : Int) :
    SessionTokens hmac interpreter secret principal iat jti minted token now ↔
      Readable iat ∧ Readable (iat + sessionTtlSeconds) ∧ Clean hmac interpreter secret token := by
  constructor
  · rintro ⟨⟨fresh, hmint, -⟩, hanswers, -⟩
    rw [answers_verify_iff] at hanswers
    simp only [mint] at hmint
    obtain ⟨hraise, -⟩ := check_bind_eq_ok.mp hmint
    obtain ⟨hiat, hexp⟩ := not_not.mp (raiseIf_eq_ok.mp hraise)
    exact ⟨hiat, hexp, hanswers⟩
  · rintro ⟨hiat, hexp, hclean⟩
    refine ⟨?_, answers_verify_iff.mpr hclean, ?_⟩
    · obtain ⟨fresh, hmint, hverify⟩ := verify_mint hmac interpreter principal jti hiat hexp
      refine ⟨fresh, hmint, ?_⟩
      rw [hverify]
      split <;> simp [*]
    · intro hunforged session hok
      obtain ⟨payloadB64, message, hsplit, hmessage⟩ := of_verify_eq_ok hok
      obtain ⟨m, hm, hsegment⟩ := hunforged payloadB64 _ message hsplit rfl
      exact ⟨m, hm, _, by rw [asciiEncode_injective hsegment hmessage]; exact hsplit⟩

/-! ## a token that is read back -/

/-- The members of an object without others in it -/
def flat (members : List (String × Value Empty)) : List (PyStr × PyValue Empty) :=
  members.map fun m => (PyStr.ofString m.1, match m.2 with
    | .str s => .str (PyStr.ofString s)
    | .int n => .int n
    | .bool b => .bool b
    | _ => .null)

def sampleInterpreter : Interpreter Empty where
  loads raw :=
    match (String.fromUTF8? ⟨raw.toArray⟩).bind PyJson.loads with
    | some (.obj members) => .ok (.obj (flat members))
    | _ => .error .value
  intOfFloat x := x.elim
  str _ := .error .recursion
  loads_dumps claims hkeys _ := by
    have hdistinct : (Value.obj (claims.map fun c => (c.1, c.2.value)) : Value Empty).Distinct := by
      refine ⟨by simpa [Function.comp_def] using hkeys, distinctMembers_iff.mpr ?_⟩
      rw [List.forall_mem_map]
      rintro ⟨name, claim⟩ -
      cases claim <;> trivial
    simp only [fromUTF8?_utf8, Option.bind_some, PyJson.loads_dumps _ hdistinct, flat, List.map_map, Function.comp_def]
    congr 3
    funext c
    cases c.2 <;> rfl

def samplePrincipal : ProvisionedPrincipal := ⟨"acme", "u1", "admin"⟩

def sampleJti : String := "00000000000040008000000000000001"

/-- The segment of its payload, at 1767225600 -/
def sampleSegment : Bytes :=
  utf8 ("eyJhZG1pbl91c2VyX2lkIjoidTEiLCJhdXRoX21ldGhvZCI6InNzbyIsImV4cCI6MTc2NzIyNzQwMCwiaWF0IjoxNz" ++
    "Y3MjI1NjAwLCJqdGkiOiIwMDAwMDAwMDAwMDA0MDAwODAwMDAwMDAwMDAwMDAwMSIsInJvbGUiOiJhZG1pbiIsInRl" ++
    "bmFudF9pZCI6ImFjbWUifQ")

/-- The HMAC of the segment under the secret `k` -/
def sampleDigest : Bytes :=
  [101, 172, 27, 147, 103, 176, 7, 94, 121, 183, 148, 40, 92, 198, 202, 212, 180, 217, 137, 50, 137, 218, 119, 142, 18,
    245, 42, 125, 118, 157, 144, 237]

def sampleHmac : Hmac where
  digest secret message := if secret = [0x6b] ∧ message = sampleSegment then sampleDigest else List.replicate 32 0
  length_digest _ _ := by split <;> simp [sampleDigest]

theorem digest_sampleSegment : sampleHmac.digest [0x6b] sampleSegment = sampleDigest := by simp [sampleHmac]

def sampleToken : PyStr :=
  ⟨payloadSegment Empty samplePrincipal 1767225600 sampleJti ++ 0x2e :: b64urlEncode sampleDigest⟩

theorem asciiEncode_sampleSegment :
    asciiEncode (payloadSegment Empty samplePrincipal 1767225600 sampleJti) = some sampleSegment :=
  (asciiEncode_b64urlEncode _).trans (congrArg some (by decide +kernel))

theorem splitToken_sampleToken : splitToken sampleToken =
    some (payloadSegment Empty samplePrincipal 1767225600 sampleJti, b64urlEncode sampleDigest) := by
  obtain ⟨hne, hpoint⟩ := payloadSegment_facts (F := Empty) samplePrincipal 1767225600 sampleJti
  exact splitToken_append hpoint hne (b64urlEncode_ne_nil (List.cons_ne_nil _ _))

theorem mint_sample :
    mint sampleHmac Empty (some [0x6b]) samplePrincipal 1767225600 sampleJti = .ok sampleToken := by
  have hsign : sign sampleHmac (payloadSegment Empty samplePrincipal 1767225600 sampleJti) [0x6b] =
      .ok (b64urlEncode sampleDigest) := by
    simp only [sign, asciiEncode_sampleSegment, digest_sampleSegment]
  have hraise : raiseIf (¬ (Readable 1767225600 ∧ Readable (1767225600 + sessionTtlSeconds))) (Raised.python .value) =
      .ok () := if_neg (not_not.mpr ⟨by decide, by decide⟩)
  simp only [mint]
  rw [hraise, ok_bind, hsign, raising_ok, ok_bind]
  rfl

theorem clean_sampleToken : Clean sampleHmac sampleInterpreter [0x6b] sampleToken := by
  intro payloadB64 providedSig hsplit
  rw [splitToken_sampleToken] at hsplit
  obtain ⟨rfl, rfl⟩ := Prod.mk.inj (Option.some.inj hsplit)
  have hread : readPayload sampleInterpreter (payloadSegment Empty samplePrincipal 1767225600 sampleJti) = _ :=
    readPayload_payloadSegment samplePrincipal sampleJti (by decide) (by decide)
  refine ⟨isAscii_b64urlEncode _, isAscii_b64urlEncode _, fun _ => ⟨fun e he => ?_, fun members hmembers _ e he => ?_⟩⟩
  · exact absurd (hread.symm.trans he) (by simp)
  · obtain rfl := PyValue.obj.inj (Except.ok.inj (hread.symm.trans hmembers))
    exact absurd ((readClaims_claimsOf _ _ _).symm.trans he) (by simp)

theorem unforged_sampleToken :
    Unforged sampleHmac Empty [0x6b] [(samplePrincipal, 1767225600, sampleJti)] sampleToken := by
  intro payloadB64 providedSig message hsplit hsig
  rw [splitToken_sampleToken] at hsplit
  obtain ⟨-, rfl⟩ := Prod.mk.inj (Option.some.inj hsplit)
  have hdigest : sampleDigest = sampleHmac.digest [0x6b] message := by
    have h := congrArg b64urlDecode hsig
    rwa [b64urlDecode_b64urlEncode, b64urlDecode_b64urlEncode, Except.ok.injEq] at h
  refine ⟨_, List.mem_singleton_self _, ?_⟩
  by_cases hmessage : message = sampleSegment
  · rw [hmessage]
    exact asciiEncode_sampleSegment
  · have hzeros : sampleHmac.digest [0x6b] message = List.replicate 32 0 := if_neg fun h => hmessage h.2
    exact absurd (hdigest.trans hzeros) (by decide)

/-- The token that was minted is verified a minute later, and it is the one that was signed. -/
theorem sessionTokens_iff_sample :
    verify sampleHmac sampleInterpreter (some [0x6b]) sampleToken 1767225660 =
      .ok (sessionOf samplePrincipal 1767225600 sampleJti) ∧
    ∃ m ∈ [(samplePrincipal, (1767225600 : Int), sampleJti)], ∃ providedSig,
      splitToken sampleToken = some (payloadSegment Empty m.1 m.2.1 m.2.2, providedSig) := by
  have hlaw := (sessionTokens_iff sampleHmac sampleInterpreter [0x6b] samplePrincipal 1767225600 sampleJti
    [(samplePrincipal, 1767225600, sampleJti)] sampleToken 1767225660).mpr ⟨by decide, by decide, clean_sampleToken⟩
  obtain ⟨fresh, hmint, hverify⟩ := hlaw.roundTrip
  rw [mint_sample] at hmint
  obtain rfl := Except.ok.inj hmint
  have hok := hverify.mpr (by decide)
  exact ⟨hok, hlaw.authentic unforged_sampleToken _ hok⟩

/-! ## a token that is not ASCII -/

/-- `é.a` -/
def accentedToken : PyStr := ⟨[0xe9] ++ 0x2e :: [0x61]⟩

theorem accentedToken_raises : ¬ ∀ (hmac : Hmac) (interpreter : Interpreter Empty) secret principal iat jti minted token now,
    SessionTokens hmac interpreter secret principal iat jti minted token now := by
  intro h
  have hlaw := h sampleHmac sampleInterpreter [0x6b] ⟨"t", "u", "admin"⟩ 0 "j" [] accentedToken 0
  have hsplit : splitToken accentedToken = some ([0xe9], [0x61]) :=
    splitToken_append (by simp) (List.cons_ne_nil _ _) (List.cons_ne_nil _ _)
  have hascii : ¬ (IsAscii [0xe9] ∧ IsAscii [0x61]) := by simp [IsAscii]
  obtain ⟨e, he⟩ : ∃ e, verifySegments sampleHmac sampleInterpreter [0x6b] [0xe9] [0x61] 0 = .error (.python e) :=
    verifySegments_of_not_ascii hascii
  exact hlaw.answers e ((verify_some hsplit).trans he)

end Anoryx.Sentinel.OperatorTokens
