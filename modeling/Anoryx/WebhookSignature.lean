import Anoryx.PyInt

/-!
# Anoryx.WebhookSignature

The signature of a webhook delivery, as Sentinel writes it (`orchestration/webhooks/signer.py`,
`sign_body`) and the Orchestrator checks it (`hmac_verify.py`, `verify_ingest_signature`).

What is signed is the timestamp, a point and the body; the timestamp that the Orchestrator signs
anew is the integer that it has read, so that the many texts of an integer are one.  The clock is
compared with that integer as a float, and an integer beyond the floats raises
(`signatureProtocol_iff`).

`hmac` and the clock are parameters.  The difference of a clock reading and a timestamp is taken
exactly: it is rounded only where it is more than half the reading.
-/

namespace Anoryx.WebhookSignature

open PyInt

open PyJson (PyStr intText)

/-! ## bytes -/

abbrev Bytes := List UInt8

/-- `encode("utf-8")` -/
def utf8 (cs : List Char) : Bytes := cs.flatMap String.utf8EncodeChar

def lowerHexdigits : List Char :=
  ['0', '1', '2', '3', '4', '5', '6', '7', '8', '9', 'a', 'b', 'c', 'd', 'e', 'f']

/-- `hmac.new(secret, message, hashlib.sha256).hexdigest()` -/
structure Hmac where
  hexdigest : Bytes → Bytes → List Char
  length_hexdigest : ∀ secret message, (hexdigest secret message).length = 64
  mem_hexdigest : ∀ secret message, ∀ c ∈ hexdigest secret message, c ∈ lowerHexdigits

/-! ## the clock -/

/-- A mantissa and an exponent. -/
def ldexp (m e : Nat) : Nat := m * 2 ^ e

/-- The largest float. -/
def maxFloat : Nat := ldexp (2 ^ 53 - 1) 971

/-- A reading of `time.time()`. -/
structure Clock where
  seconds : ℚ
  finite : |seconds| ≤ maxFloat

/-- From here on an integer has no float: it is nearer to `2 ^ 1024`, or as near. -/
def floatOverflow : Nat := ldexp (2 ^ 54 - 1) 970

/-- `abs(now - ts)`; `none` is the `OverflowError`. -/
def elapsed (now : Clock) (ts : Int) : Option ℚ :=
  if ts.natAbs < floatOverflow then some |now.seconds - ts| else none

/-- `int(x)`, towards zero. -/
def truncate (x : ℚ) : Int := x.num.tdiv x.den

def sigPrefix : String := "sha256="

/-! ## signing -/

structure SignedHeaders where
  xSentinelTimestamp : PyStr
  xSentinelSignature : PyStr

variable (hmac : Hmac) (secret : Bytes)

/-- `sign_body`; a body with a surrogate that stands alone is not signed. -/
def signBody (clock : Clock) (body : PyStr) : Option SignedHeaders :=
  body.encode.map fun body =>
    let ts := truncate clock.seconds
    let signedPayload := utf8 (intText ts ++ '.' :: body.toList)
    let digest := hmac.hexdigest secret signedPayload
    ⟨str ts, .ofString (sigPrefix ++ String.ofList digest)⟩

/-! ## verifying -/

inductive HmacOutcome
  | ok
  | unauthenticated
  | rejected
deriving DecidableEq

structure HmacResult where
  outcome : HmacOutcome
  code : String
deriving DecidableEq

/-- What `verify_ingest_signature` can raise. -/
inductive Raised
  | overflowError
deriving DecidableEq

def sigHexLen : Nat := 64

def hexdigits : List Nat := (lowerHexdigits ++ ['A', 'B', 'C', 'D', 'E', 'F']).map Char.toNat

/-- What stands behind the prefix. -/
def afterPrefix (header : PyStr) : Option (List Nat) :=
  (header.points.map Fin.val).dropPrefix? (sigPrefix.toList.map Char.toNat)

/-- What is signed: the integer that was read, a point and the raw body. -/
def signedPayload (ts : Int) (rawBody : Bytes) : Bytes := utf8 (intText ts ++ ['.']) ++ rawBody

/-- The replay window and the compare, of headers that have their shape. -/
def verifySigned (rawBody : Bytes) (providedHex : List Nat) (ts toleranceSeconds : Int) (now : Clock) :
    Except Raised HmacResult :=
  match elapsed now ts with
  | none => .error .overflowError
  | some distance =>
      if (toleranceSeconds : ℚ) < distance then .ok ⟨.rejected, "timestamp_out_of_window"⟩
      else if (hmac.hexdigest secret (signedPayload ts rawBody)).map Char.toNat ≠ providedHex then
        .ok ⟨.rejected, "signature_invalid"⟩
      else .ok ⟨.ok, "ok"⟩

def verifyIngestSignature (rawBody : Bytes) (signatureHeader timestampHeader : Option PyStr) (toleranceSeconds : Int)
    (now : Clock) : Except Raised HmacResult :=
  match signatureHeader.bind afterPrefix with
  | none => .ok ⟨.unauthenticated, "signature_missing"⟩
  | some providedHex =>
      match timestampHeader.filter fun header => header.points ≠ [] with
      | none => .ok ⟨.unauthenticated, "timestamp_missing"⟩
      | some header =>
          match parse header with
          | none => .ok ⟨.unauthenticated, "timestamp_malformed"⟩
          | some ts =>
              if providedHex = [] then .ok ⟨.unauthenticated, "signature_missing"⟩
              else if providedHex.length ≠ sigHexLen ∨ ¬ providedHex.all (· ∈ hexdigits) then
                .ok ⟨.unauthenticated, "signature_malformed"⟩
              else
                verifySigned hmac secret rawBody providedHex ts toleranceSeconds now

/-! ## what the verifier answers -/

/-- A digest in hexadecimal digits of either case. -/
def WellFormedHex (providedHex : List Nat) : Prop :=
  providedHex.length = sigHexLen ∧ ∀ p ∈ providedHex, p ∈ hexdigits

/-- The headers have the shape of a signature, and the timestamp is an integer beyond the floats. -/
def TimestampOverflows (signatureHeader timestampHeader : Option PyStr) : Prop :=
  ∃ providedHex ts, signatureHeader.bind afterPrefix = some providedHex ∧ WellFormedHex providedHex ∧
    timestampHeader.bind parse = some ts ∧ floatOverflow ≤ ts.natAbs

variable {providedHex : List Nat} {ts ts' : Int} {e : Raised} {cs ds : List Char} {n k zeros : Nat}

section Verify

variable {rawBody : Bytes} {signatureHeader timestampHeader : Option PyStr} {toleranceSeconds : Int} {now : Clock}

theorem parse_eq_none_of_empty {header : PyStr} (h : header.points = []) : parse header = none := by
  rw [parse, h]
  rfl

theorem bind_parse_filter (timestampHeader : Option PyStr) :
    (timestampHeader.filter fun header => header.points ≠ []).bind parse = timestampHeader.bind parse := by
  cases timestampHeader with
  | none => rfl
  | some header =>
      by_cases h : header.points = []
      · simp [Option.filter, h, parse_eq_none_of_empty h]
      · simp [Option.filter, h]

theorem not_malformed_iff :
    ¬ (providedHex.length ≠ sigHexLen ∨ ¬ providedHex.all (· ∈ hexdigits)) ↔ WellFormedHex providedHex := by
  simp [WellFormedHex]

theorem Hmac.wellFormedHex (message : Bytes) : WellFormedHex ((hmac.hexdigest secret message).map Char.toNat) := by
  constructor
  · rw [List.length_map, hmac.length_hexdigest]
    rfl
  · intro p hp
    obtain ⟨c, hc, rfl⟩ := List.mem_map.mp hp
    exact List.mem_map_of_mem (List.mem_append_left _ (hmac.mem_hexdigest secret message c hc))

theorem WellFormedHex.ne_nil (h : WellFormedHex providedHex) : providedHex ≠ [] := by
  rintro rfl
  exact absurd h.1 (by decide)

theorem verify_of_wellFormed (hsignature : signatureHeader.bind afterPrefix = some providedHex)
    (hhex : WellFormedHex providedHex) (htimestamp : timestampHeader.bind parse = some ts) :
    verifyIngestSignature hmac secret rawBody signatureHeader timestampHeader toleranceSeconds now =
      verifySigned hmac secret rawBody providedHex ts toleranceSeconds now := by
  rw [← bind_parse_filter] at htimestamp
  obtain ⟨header, hheader, hparse⟩ := Option.bind_eq_some_iff.mp htimestamp
  simp only [verifyIngestSignature, hsignature, hheader, hparse, if_neg hhex.ne_nil, if_neg (not_malformed_iff.mpr hhex)]

/-- A malformed header is answered with a code, and nothing is raised. -/
theorem verify_of_malformed
    (h : ¬ ∃ providedHex ts, signatureHeader.bind afterPrefix = some providedHex ∧ WellFormedHex providedHex ∧
      timestampHeader.bind parse = some ts) :
    ∃ code, verifyIngestSignature hmac secret rawBody signatureHeader timestampHeader toleranceSeconds now =
      .ok ⟨.unauthenticated, code⟩ := by
  unfold verifyIngestSignature
  cases hsignature : signatureHeader.bind afterPrefix with
  | none => exact ⟨"signature_missing", rfl⟩
  | some providedHex =>
      cases hheader : timestampHeader.filter fun header => header.points ≠ [] with
      | none => exact ⟨"timestamp_missing", rfl⟩
      | some header =>
          cases hparse : parse header with
          | none => exact ⟨"timestamp_malformed", by simp [hparse]⟩
          | some ts =>
              have htimestamp : timestampHeader.bind parse = some ts := by
                rw [← bind_parse_filter, hheader]
                exact hparse
              simp only [hparse]
              split_ifs with hempty hmalformed
              · exact ⟨"signature_missing", rfl⟩
              · exact ⟨"signature_malformed", rfl⟩
              · exact absurd ⟨providedHex, ts, hsignature, not_malformed_iff.mp hmalformed, htimestamp⟩ h

theorem verifySigned_eq_error :
    verifySigned hmac secret rawBody providedHex ts toleranceSeconds now = .error e ↔ floatOverflow ≤ ts.natAbs := by
  unfold verifySigned elapsed
  by_cases h : ts.natAbs < floatOverflow
  · rw [if_pos h]
    simp only
    split_ifs <;> simp [h]
  · rw [if_neg h]
    cases e
    simp [not_lt.mp h]

theorem verifySigned_eq_ok :
    verifySigned hmac secret rawBody providedHex ts toleranceSeconds now = .ok ⟨.ok, "ok"⟩ ↔
      ts.natAbs < floatOverflow ∧ |now.seconds - ts| ≤ toleranceSeconds ∧
        (hmac.hexdigest secret (signedPayload ts rawBody)).map Char.toNat = providedHex := by
  unfold verifySigned elapsed
  by_cases h : ts.natAbs < floatOverflow
  · rw [if_pos h]
    simp only
    split_ifs with hlate hdigest
    · simp [hlate]
    · simp [hdigest]
    · simp [h, not_lt.mp hlate, not_not.mp hdigest]
  · rw [if_neg h]
    simp [h]

/-- **What raises.** -/
theorem verify_eq_error :
    verifyIngestSignature hmac secret rawBody signatureHeader timestampHeader toleranceSeconds now = .error e ↔
      TimestampOverflows signatureHeader timestampHeader := by
  by_cases h : ∃ providedHex ts, signatureHeader.bind afterPrefix = some providedHex ∧ WellFormedHex providedHex ∧
      timestampHeader.bind parse = some ts
  · obtain ⟨providedHex, ts, hsignature, hhex, htimestamp⟩ := h
    rw [verify_of_wellFormed hmac secret hsignature hhex htimestamp, verifySigned_eq_error]
    simp [TimestampOverflows, hsignature, hhex, htimestamp]
  · obtain ⟨code, hcode⟩ : ∃ code, verifyIngestSignature hmac secret rawBody signatureHeader timestampHeader
        toleranceSeconds now = .ok ⟨.unauthenticated, code⟩ := verify_of_malformed hmac secret h
    rw [hcode]
    constructor
    · intro hraised
      cases hraised
    · rintro ⟨providedHex, ts, hsignature, hhex, htimestamp, -⟩
      exact absurd ⟨providedHex, ts, hsignature, hhex, htimestamp⟩ h

/-- **What is accepted.** -/
theorem verify_eq_ok :
    verifyIngestSignature hmac secret rawBody signatureHeader timestampHeader toleranceSeconds now =
        .ok ⟨.ok, "ok"⟩ ↔
      ∃ ts, signatureHeader.bind afterPrefix =
          some ((hmac.hexdigest secret (signedPayload ts rawBody)).map Char.toNat) ∧
        timestampHeader.bind parse = some ts ∧ ts.natAbs < floatOverflow ∧
        |now.seconds - ts| ≤ toleranceSeconds := by
  constructor
  · intro hok
    by_cases h : ∃ providedHex ts, signatureHeader.bind afterPrefix = some providedHex ∧ WellFormedHex providedHex ∧
        timestampHeader.bind parse = some ts
    · obtain ⟨providedHex, ts, hsignature, hhex, htimestamp⟩ := h
      rw [verify_of_wellFormed hmac secret hsignature hhex htimestamp, verifySigned_eq_ok] at hok
      obtain ⟨hfinite, hwindow, hdigest⟩ := hok
      exact ⟨ts, hdigest ▸ hsignature, htimestamp, hfinite, hwindow⟩
    · obtain ⟨code, hcode⟩ := verify_of_malformed hmac secret h
      rw [hcode] at hok
      cases hok
  · rintro ⟨ts, hsignature, htimestamp, hfinite, hwindow⟩
    rw [verify_of_wellFormed hmac secret hsignature (hmac.wellFormedHex secret _) htimestamp, verifySigned_eq_ok]
    exact ⟨hfinite, hwindow, rfl⟩

/-! ## what is signed -/

theorem utf8_ascii (h : ∀ c ∈ cs, c.toNat ≤ 127) : utf8 cs = cs.map fun c => c.val.toUInt8 := by
  induction cs with
  | nil => rfl
  | cons c cs ih =>
      have hc : c.utf8Size = 1 := by
        rw [Char.utf8Size_eq_one_iff, UInt32.le_iff_toNat_le]
        exact h c List.mem_cons_self
      have hcs := ih fun d hd => h d (List.mem_cons_of_mem c hd)
      rw [utf8] at hcs ⊢
      rw [List.flatMap_cons, String.utf8EncodeChar_eq_singleton hc, hcs, List.map_cons]
      rfl

theorem byte_inj {c d : Char} (hc : c.toNat ≤ 127) (hd : d.toNat ≤ 127) (h : c.val.toUInt8 = d.val.toUInt8) : c = d := by
  have hbytes := congrArg UInt8.toNat h
  rw [UInt32.toNat_toUInt8, UInt32.toNat_toUInt8] at hbytes
  have hcodes : c.toNat = d.toNat := by
    rw [← Char.toNat_val, ← Char.toNat_val] at *
    omega
  exact Char.toNat_inj.mp hcodes

theorem map_byte_inj (hcs : ∀ c ∈ cs, c.toNat ≤ 127) (hds : ∀ d ∈ ds, d.toNat ≤ 127)
    (h : (cs.map fun c => c.val.toUInt8) = ds.map fun d => d.val.toUInt8) : cs = ds := by
  induction cs generalizing ds with
  | nil => simpa [eq_comm] using h
  | cons c cs ih =>
      cases ds with
      | nil => simp at h
      | cons d ds =>
          obtain ⟨hbyte, hrest⟩ := List.cons.inj h
          rw [byte_inj (hcs c List.mem_cons_self) (hds d List.mem_cons_self) hbyte,
            ih (fun e he => hcs e (List.mem_cons_of_mem c he)) (fun e he => hds e (List.mem_cons_of_mem d he)) hrest]

theorem mem_intText {n : Int} {c : Char} (h : c ∈ intText n) : c.isDigit = true ∨ c = '-' := by
  cases n with
  | ofNat n => exact .inl (isDigit_toDigits n c h)
  | negSucc n =>
      rw [intText, List.mem_cons] at h
      exact h.elim .inr fun h => .inl (isDigit_toDigits (n + 1) c h)

theorem ascii_intText (n : Int) : ∀ c ∈ intText n, c.toNat ≤ 127 ∧ c ≠ '.' := by
  intro c hc
  obtain hdigit | rfl := mem_intText hc
  · have hcode := toNat_of_isDigit hdigit
    constructor
    · omega
    · rintro rfl
      contradiction
  · decide

theorem utf8_intText (n : Int) : utf8 (intText n) = (intText n).map fun c => c.val.toUInt8 :=
  utf8_ascii fun c hc => (ascii_intText n c hc).1

theorem point_not_mem (n : Int) : (0x2e : UInt8) ∉ utf8 (intText n) := by
  rw [utf8_intText, List.mem_map]
  rintro ⟨c, hc, hbyte⟩
  obtain ⟨hascii, hne⟩ := ascii_intText n c hc
  exact hne (byte_inj hascii (by decide) hbyte)

theorem signedPayload_eq (ts : Int) (rawBody : Bytes) :
    signedPayload ts rawBody = utf8 (intText ts) ++ 0x2e :: rawBody := by
  have hpoint : utf8 ['.'] = [0x2e] := by decide
  have happend : utf8 (intText ts ++ ['.']) = utf8 (intText ts) ++ utf8 ['.'] := List.flatMap_append
  rw [signedPayload, happend, hpoint, List.append_assoc]
  rfl

theorem signedPayload_inj {rawBody rawBody' : Bytes} (h : signedPayload ts rawBody = signedPayload ts' rawBody') :
    ts = ts' ∧ rawBody = rawBody' := by
  rw [signedPayload_eq, signedPayload_eq] at h
  obtain ⟨htext, hbody⟩ := append_cons_inj (point_not_mem ts) (point_not_mem ts') h
  rw [utf8_intText, utf8_intText] at htext
  have hchars := map_byte_inj (fun c hc => (ascii_intText ts c hc).1) (fun c hc => (ascii_intText ts' c hc).1) htext
  have hts := congrArg PyJson.intOfText hchars
  rw [PyJson.intOfText_intText, PyJson.intOfText_intText] at hts
  exact ⟨hts, hbody⟩

theorem signedPayload_utf8 (ts : Int) (cs : List Char) :
    signedPayload ts (utf8 cs) = utf8 (intText ts ++ '.' :: cs) := by
  simp [signedPayload, utf8]

theorem le_ldexp (m e : Nat) : m ≤ ldexp m e := Nat.le_mul_of_pos_right m (Nat.two_pow_pos e)

theorem ldexp_succ_lt {m e : Nat} (h : m * 2 < n) : ldexp m (e + 1) < ldexp n e := by
  rw [ldexp, ldexp, Nat.pow_succ', ← Nat.mul_assoc]
  exact Nat.mul_lt_mul_of_pos_right h (Nat.two_pow_pos e)

theorem ldexp_le {m d e : Nat} (hm : m ≤ 2 ^ d) (hk : d + e ≤ 3 * k) : ldexp m e ≤ 10 ^ k :=
  calc ldexp m e ≤ 2 ^ d * 2 ^ e := Nat.mul_le_mul_right (2 ^ e) hm
    _ = 2 ^ (d + e) := (Nat.pow_add 2 d e).symm
    _ ≤ 2 ^ (3 * k) := Nat.pow_le_pow_right (by decide) hk
    _ = (2 ^ 3) ^ k := Nat.pow_mul 2 3 k
    _ ≤ 10 ^ k := Nat.pow_le_pow_left (by decide) k

theorem maxFloat_lt : maxFloat < floatOverflow := ldexp_succ_lt (by decide)

theorem floatOverflow_le (hk : 1024 ≤ 3 * k) : floatOverflow ≤ 10 ^ k :=
  ldexp_le (d := 54) (by decide) hk

theorem lt_maxStrDigits (h : n < floatOverflow) : n < 10 ^ maxStrDigits :=
  h.trans_le (floatOverflow_le (by decide))

theorem lt_floatOverflow (h : n < 2 ^ 54 - 1) : n < floatOverflow := h.trans_le (le_ldexp (2 ^ 54 - 1) 970)

theorem natAbs_truncate_lt (clock : Clock) : (truncate clock.seconds).natAbs < floatOverflow := by
  have hfloor : ((truncate clock.seconds).natAbs : ℚ) ≤ |clock.seconds| := by
    rw [truncate, Int.natAbs_tdiv, Int.natAbs_natCast]
    calc ((clock.seconds.num.natAbs / clock.seconds.den : Nat) : ℚ)
        ≤ (clock.seconds.num.natAbs : ℚ) / clock.seconds.den := Nat.cast_div_le
      _ = |clock.seconds| := by
        conv_rhs => rw [← Rat.num_div_den clock.seconds, abs_div, Nat.abs_cast]
        rw [Nat.cast_natAbs, Int.cast_abs]
  have hmax : (truncate clock.seconds).natAbs ≤ maxFloat := by exact_mod_cast hfloor.trans clock.finite
  exact hmax.trans_lt maxFloat_lt

theorem afterPrefix_ofString (digest : List Char) :
    afterPrefix (.ofString (sigPrefix ++ String.ofList digest)) = some (digest.map Char.toNat) := by
  rw [afterPrefix, PyStr.points_ofString, String.toList_append, @String.toList_ofList digest, List.map_append]
  exact List.dropPrefix?_append_of_beq (digest.map Char.toNat) (beq_self_eq_true _)

/-- What is signed within the window is accepted. -/
theorem verify_signBody {clock : Clock} {body : PyStr} {text : String} {headers : SignedHeaders}
    (hbody : body.encode = some text) (hsign : signBody hmac secret clock body = some headers)
    (hwindow : |now.seconds - truncate clock.seconds| ≤ toleranceSeconds) :
    verifyIngestSignature hmac secret (utf8 text.toList) (some headers.xSentinelSignature)
      (some headers.xSentinelTimestamp) toleranceSeconds now = .ok ⟨.ok, "ok"⟩ := by
  rw [signBody, hbody] at hsign
  cases hsign
  have hfinite := natAbs_truncate_lt clock
  have hparse : parse (str (truncate clock.seconds)) = some (truncate clock.seconds) :=
    parse_str (lt_maxStrDigits hfinite)
  refine (verify_eq_ok hmac secret).mpr ⟨truncate clock.seconds, ?_, hparse, hfinite, hwindow⟩
  rw [Option.bind_some, afterPrefix_ofString, signedPayload_utf8]

end Verify

/-! ## the protocol -/

/-- Of the messages only what the key holders have signed has the tag that a header presents. -/
def Unforged (signed : List (Int × Bytes)) (signatureHeader : Option PyStr) : Prop :=
  ∀ message, signatureHeader.bind afterPrefix = some ((hmac.hexdigest secret message).map Char.toNat) →
    ∃ p ∈ signed, message = signedPayload p.1 p.2

/-- What is asked of the verifier, on a delivery and on every signed one. -/
structure SignatureProtocol (signed : List (Int × Bytes)) (rawBody : Bytes) (signatureHeader timestampHeader : Option PyStr)
    (toleranceSeconds : Int) (now : Clock) : Prop where
  /-- it returns -/
  returns : ∃ result,
    verifyIngestSignature hmac secret rawBody signatureHeader timestampHeader toleranceSeconds now = .ok result
  /-- what it accepts was signed, body and timestamp, and is fresh -/
  signed : verifyIngestSignature hmac secret rawBody signatureHeader timestampHeader toleranceSeconds now =
      .ok ⟨.ok, "ok"⟩ →
    ∃ ts, timestampHeader.bind parse = some ts ∧ (ts, rawBody) ∈ signed ∧ |now.seconds - ts| ≤ toleranceSeconds
  /-- one timestamp and one body are in a signed payload -/
  injective : ∀ ts ts' body body', signedPayload ts body = signedPayload ts' body' → ts = ts' ∧ body = body'
  /-- it accepts what Sentinel signs -/
  accepts : ∀ clock body text headers, body.encode = some text → signBody hmac secret clock body = some headers →
    |now.seconds - truncate clock.seconds| ≤ toleranceSeconds →
      verifyIngestSignature hmac secret (utf8 text.toList) (some headers.xSentinelSignature)
        (some headers.xSentinelTimestamp) toleranceSeconds now = .ok ⟨.ok, "ok"⟩

/-- **The signature protocol**: it holds on every delivery but those whose headers have the shape of
a signature and whose timestamp is an integer beyond the floats; on these the verifier raises. -/
theorem signatureProtocol_iff (signed : List (Int × Bytes)) (rawBody : Bytes)
    (signatureHeader timestampHeader : Option PyStr) (toleranceSeconds : Int) (now : Clock)
    (hunforged : Unforged hmac secret signed signatureHeader) :
    SignatureProtocol hmac secret signed rawBody signatureHeader timestampHeader toleranceSeconds now ↔
      ¬ TimestampOverflows signatureHeader timestampHeader := by
  constructor
  · rintro ⟨⟨result, hresult⟩, -, -⟩ hoverflows
    rw [(verify_eq_error hmac secret (e := .overflowError)).mpr hoverflows] at hresult
    cases hresult
  · intro hno
    constructor
    · cases hresult : verifyIngestSignature hmac secret rawBody signatureHeader timestampHeader toleranceSeconds now with
      | ok result => exact ⟨result, rfl⟩
      | error e => exact absurd ((verify_eq_error hmac secret).mp hresult) hno
    · intro hok
      obtain ⟨ts, hsignature, htimestamp, -, hwindow⟩ := (verify_eq_ok hmac secret).mp hok
      obtain ⟨⟨ts', rawBody'⟩, hmem, hpayload⟩ := hunforged _ hsignature
      obtain ⟨rfl, rfl⟩ := signedPayload_inj hpayload
      exact ⟨ts, htimestamp, hmem, hwindow⟩
    · intro ts ts' body body' hpayload
      exact signedPayload_inj hpayload
    · intro clock body text headers hbody hsign hwindow
      exact verify_signBody hmac secret hbody hsign hwindow

/-! ## a signed delivery -/

def sampleSecret : Bytes := utf8 ['s', 'e', 'c', 'r', 'e', 't']

def sampleBody : Bytes := utf8 ['{', '}']

/-- The digest of `1700000000.{}` under the secret. -/
def sampleDigest : List Char :=
  ['b', '8', '5', '6', '9', 'b', '7', '8', '7', '9', '9', 'f', 'f', '9', 'e', '3',
   'c', 'b', 'f', 'f', '0', 'f', 'c', '2', 'd', '6', '3', 'a', '3', '3', 'a', '2',
   'b', '5', '7', 'f', '3', '2', '8', '2', 'a', 'b', 'd', '0', '7', 'c', '3', '7',
   'a', 'e', '5', 'e', '8', 'e', '7', 'd', '7', '9', 'a', '5', 'f', '1', '6', '3']

def sampleHmac : Hmac where
  hexdigest secret message :=
    if secret = sampleSecret ∧ message = signedPayload 1700000000 sampleBody then sampleDigest
    else List.replicate 64 '0'
  length_hexdigest secret message := by split <;> rfl
  mem_hexdigest secret message c hc := by
    split at hc
    · have hall : ∀ c ∈ sampleDigest, c ∈ lowerHexdigits := by simp [sampleDigest, lowerHexdigits]
      exact hall c hc
    · rw [List.eq_of_mem_replicate hc]
      decide

/-- A clock that shows whole seconds. -/
def Clock.ofSeconds (n : Nat) (h : n < 2 ^ 53) : Clock where
  seconds := n
  finite := by
    have hle : n ≤ maxFloat := (Nat.le_sub_one_of_lt h).trans (le_ldexp (2 ^ 53 - 1) 971)
    rw [Nat.abs_cast]
    exact_mod_cast hle

def sampleSignature : PyStr := .ofString (sigPrefix ++ String.ofList sampleDigest)

theorem parse_sampleTimestamp : parse (str 1700000000) = some 1700000000 :=
  parse_str (lt_maxStrDigits (lt_floatOverflow (by decide)))

theorem unforged_sample : Unforged sampleHmac sampleSecret [(1700000000, sampleBody)] (some sampleSignature) := by
  intro message htag
  refine ⟨(1700000000, sampleBody), List.mem_cons_self, by_contra fun hne => ?_⟩
  have hdigest : sampleHmac.hexdigest sampleSecret message = List.replicate 64 '0' := if_neg fun h => hne h.2
  rw [sampleSignature, Option.bind_some, afterPrefix_ofString, hdigest] at htag
  exact absurd htag (by decide +kernel)

theorem signatureProtocol_sample :
    SignatureProtocol sampleHmac sampleSecret [(1700000000, sampleBody)] sampleBody (some sampleSignature)
      (some (str 1700000000)) 300 (Clock.ofSeconds 1700000060 (by decide)) := by
  refine (signatureProtocol_iff sampleHmac sampleSecret [(1700000000, sampleBody)] sampleBody (some sampleSignature)
    (some (str 1700000000)) 300 (Clock.ofSeconds 1700000060 (by decide)) unforged_sample).mpr ?_
  rintro ⟨providedHex, ts, -, -, htimestamp, hoverflows⟩
  rw [Option.bind_some, parse_sampleTimestamp] at htimestamp
  cases htimestamp
  exact absurd hoverflows (not_le.mpr (lt_floatOverflow (by decide)))

def powerOfTen (zeros : Nat) : Int := 10 ^ zeros

theorem natAbs_powerOfTen (zeros : Nat) : (powerOfTen zeros).natAbs = 10 ^ zeros := Int.natAbs_pow 10 zeros

theorem parse_powerOfTen (h : zeros < maxStrDigits) :
    parse (str (powerOfTen zeros)) = some (powerOfTen zeros) := by
  refine parse_str ?_
  rw [natAbs_powerOfTen]
  exact Nat.pow_lt_pow_right (by decide) h

theorem timestampOverflows_powerOfTen (zeros : Nat) (hlarge : 1024 ≤ 3 * zeros) (h : zeros < maxStrDigits) :
    TimestampOverflows (some (.ofString (sigPrefix ++ String.ofList (List.replicate 64 '0'))))
      (some (str (powerOfTen zeros))) := by
  refine ⟨(List.replicate 64 '0').map Char.toNat, powerOfTen zeros, afterPrefix_ofString _, ⟨rfl, ?_⟩,
    parse_powerOfTen h, ?_⟩
  · intro p hp
    rw [List.map_replicate] at hp
    rw [List.eq_of_mem_replicate hp]
    decide
  · rw [natAbs_powerOfTen]
    exact floatOverflow_le hlarge

/-- A delivery whose timestamp is a one and four hundred zeros. -/
theorem verify_raises : ¬ ∀ (hmac : Hmac) (secret rawBody : Bytes) (signatureHeader timestampHeader : Option PyStr)
    (toleranceSeconds : Int) (now : Clock), ∃ result,
      verifyIngestSignature hmac secret rawBody signatureHeader timestampHeader toleranceSeconds now = .ok result := by
  intro h
  obtain ⟨result, hresult⟩ := h sampleHmac sampleSecret sampleBody
    (some (.ofString (sigPrefix ++ String.ofList (List.replicate 64 '0')))) (some (str (powerOfTen 400))) 300
    (Clock.ofSeconds 1700000060 (by decide))
  rw [(verify_eq_error sampleHmac sampleSecret (e := .overflowError)).mpr
    (timestampOverflows_powerOfTen 400 (by decide) (by decide))] at hresult
  cases hresult

end Anoryx.WebhookSignature
