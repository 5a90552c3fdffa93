import Anoryx.ReadCommitted.RelyGuarantee
import Anoryx.Sentinel.Luhn
import Anoryx.Sentinel.ZkEnvelope

/-!
# Anoryx.Sentinel.TokenVault

Tokens in the place of personal data (`tokenization/`): `tokenize` stores a value encrypted under a random
token of its format, `detokenize` reads it back.

Rows never change, and of calls that draw one token together the unique constraint lets one through:
a token stands for one value of its tenant for ever (`vault_keeps`).

AES-GCM and the draws are parameters.  A refusal by the foreign key is an abort, which may come at any
time.
-/

namespace Anoryx.Sentinel.TokenVault

open ReadCommitted PyText Table
open Luhn (Digits generateCard)
open Base64 (Bytes)

/-! ## tokens -/

/-- What is raised: the errors of the module, those of Python, and of the INSERT. -/
inductive TokenError
  | vaultKey
  | unsupportedFormat
  | tokenNotFound
  | malformed
  | tooShort
  | authenticationFailed
  | value
  | unicodeDecode
  | uniqueViolation
  | tokenTooLong
  | noUniqueToken

/-- The random digits, and the bytes of `token_hex`, of one attempt. -/
structure Draw where
  randint : Nat → Fin 10
  hex : Nat → Fin 16

variable (D : Digits)

/-- `_random_digits`, after those that were drawn before -/
def randomDigits (draw : Draw) (start n : Nat) : List Char :=
  (List.range' start n).map fun i => Nat.digitChar (draw.randint i)

/-- `original.replace(…, "")` -/
def without (cs original : List Char) : List Char := original.filter (· ∉ cs)

/-- `str.isdigit` -/
def isDigits (s : List Char) : Bool := s ≠ [] && s.all D.isDigit

def generateSurrogate (draw : Draw) (tokenType : String) (original : List Char) : Except TokenError (List Char) :=
  match tokenType with
  | "card" =>
      let stripped := without [' ', '-'] original
      if isDigits D stripped ∧ stripped.length = 16 then
        (generateCard D (randomDigits draw 0 15)).elim (.error .value) .ok
      else .error .unsupportedFormat
  | "ssn" =>
      let stripped := without ['-'] original
      if isDigits D stripped ∧ stripped.length = 9 then
        .ok (randomDigits draw 0 3 ++ '-' :: randomDigits draw 3 2 ++ '-' :: randomDigits draw 5 4)
      else .error .unsupportedFormat
  | "digits" =>
      let stripped := without [' ', '-'] original
      if isDigits D stripped then .ok (randomDigits draw 0 stripped.length) else .error .unsupportedFormat
  | "generic" => .ok (['t', 'o', 'k', '_'] ++ (List.range 24).map fun i => Nat.digitChar (draw.hex i))
  | _ => .error .unsupportedFormat

/-! ## ciphertexts -/

/-- AES-GCM, with a tag of 16 bytes -/
structure VaultCipher extends ZkSdk.AesGcm where
  tag : ∀ key nonce data aad, 16 ≤ (encrypt key nonce data aad).length

variable (gcm : VaultCipher) (key : Option Bytes)

def tenantAad (tenantId : String) : Option Bytes := some (utf8 ("tenant:" ++ tenantId))

/-- `encrypt`, with the key that `_load_key` finds -/
def encrypt (nonce : ZkSdk.Nonce) (plaintext : String) (aad : Option Bytes) : Except TokenError PyJson.PyStr :=
  match key with
  | none => .error .vaultKey
  | some key => .ok (ZkSdk.b64e (nonce.val ++ gcm.encrypt key nonce.val (utf8 plaintext) aad))

def decrypt (blobB64 : PyJson.PyStr) (aad : Option Bytes) : Except TokenError String := do
  let key ← key.elim (.error .vaultKey) .ok
  let blob ← (ZkSdk.b64d blobB64).elim (.error .malformed) .ok
  if blob.length < ZkSdk.nonceBytes + 16 then .error .tooShort
  else match gcm.decrypt key (blob.take ZkSdk.nonceBytes) (blob.drop ZkSdk.nonceBytes) aad with
    | .error .invalidTag => .error .authenticationFailed
    | .error .value => .error .value
    | .ok raw => (String.fromUTF8? ⟨raw.toArray⟩).elim (.error .unicodeDecode) .ok

/-! ## the vault -/

/-- A row of `tenant_token_vault`, under its tenant and its token. -/
structure VaultRow where
  tokenType : String
  ciphertextB64 : PyJson.PyStr
  /-- the transaction that inserted it -/
  xmin : Txn

abbrev VaultDb := Table (String × List Char) VaultRow

instance : Database VaultDb where
  commit t d := d.commit t
  rollback t d := d.rollback t

/-- A call of `tokenize`, with what it draws. -/
structure TokenizeCall where
  tenantId : String
  value : String
  tokenType : String
  nonce : ZkSdk.Nonce
  draws : Fin 5 → Draw

/-- The attempts of `tokenize`, one for each draw. -/
def attempts (call : TokenizeCall) (ciphertextB64 : PyJson.PyStr) : List Draw → Prog VaultDb TokenError (List Char)
  | [] => .raise .noUniqueToken
  | draw :: draws => do
      let token ← .ofExcept (generateSurrogate D draw call.tokenType call.value.toList)
      let tokenExists ← .query fun t (d : VaultDb) => (d.visible t (call.tenantId, token)).isSome
      if tokenExists then attempts call ciphertextB64 draws
      else do
        .ofExcept (if 128 < token.length then .error .tokenTooLong else .ok ())
        .inserting .uniqueViolation fun t (d : VaultDb) =>
          d.insertOrIgnore t (call.tenantId, token) ⟨call.tokenType, ciphertextB64, t⟩
        pure token

def tokenize (call : TokenizeCall) : Prog VaultDb TokenError (List Char) := do
  let ciphertextB64 ← .ofExcept (encrypt gcm key call.nonce call.value (tenantAad call.tenantId))
  attempts D call ciphertextB64 (List.ofFn call.draws)

def detokenize (tenantId : String) (token : List Char) : Prog VaultDb TokenError String := do
  let row ← .query fun t (d : VaultDb) => d.visible t (tenantId, token)
  .ofExcept (row.elim (.error .tokenNotFound) fun row => decrypt gcm key row.ciphertextB64 (tenantAad tenantId))

/-! ## what a run keeps -/

/-- The row is that of the call. -/
def Sealed (call : TokenizeCall) (row : VaultRow) : Prop :=
  encrypt gcm key call.nonce call.value (tenantAad call.tenantId) = .ok row.ciphertextB64

/-- The row of the token is there, and it is that of the call. -/
def Found (t : Txn) (rows : String × List Char → Option VaultRow) (call : TokenizeCall) (token : List Char) : Prop :=
  ∃ row, rows (call.tenantId, token) = some row ∧ row.xmin = t ∧ Sealed gcm key call row

/-- Every row, also one in flight, is that of a call of its tenant. -/
structure VaultInv (asked : TokenizeCall → Prop) (d : VaultDb) : Prop where
  insertOnly : d.InsertOnly
  asked : ∀ k row, d.HasVersion k row → ∃ call, asked call ∧ call.tenantId = k.1 ∧ Sealed gcm key call row

def vaultLogic (asked : TokenizeCall → Prop) : Logic VaultDb TokenizeCall (List Char) where
  inv := VaultInv gcm key asked
  rely u d d' := Frame u d d' ∧ Grows d d'
  fresh _ _ := True
  post t call token d := Found gcm key t (d.visible t) call token
  ensures t call token d := Found gcm key t d.committed call token
  undone _ _ := True
  admits := asked

variable {D gcm key} {asked : TokenizeCall → Prop} {d : VaultDb} {t : Txn}

theorem decrypt_of_sealed {call : TokenizeCall} {row : VaultRow} (h : Sealed gcm key call row) :
    decrypt gcm key row.ciphertextB64 (tenantAad call.tenantId) = .ok call.value := by
  unfold Sealed encrypt at h
  split at h
  case h_1 => contradiction
  case h_2 key =>
    have hnonce : call.nonce.val.length = ZkSdk.nonceBytes := call.nonce.property
    have htag := gcm.tag key call.nonce.val (utf8 call.value) (tenantAad call.tenantId)
    rw [← Except.ok.inj h, decrypt, ZkSdk.b64d_b64e]
    show (if _ then _ else _) = _
    rw [if_neg (by rw [List.length_append]; omega), List.take_left' hnonce, List.drop_left' hnonce,
      gcm.decrypt_encrypt _ _ _ _ call.nonce.taken]
    simp only [fromUTF8?_utf8, Option.elim_some]

theorem wp_attempts {call : TokenizeCall} {ciphertextB64 : PyJson.PyStr} {draws : List Draw} (hasked : asked call)
    (hsealed : encrypt gcm key call.nonce call.value (tenantAad call.tenantId) = .ok ciphertextB64) :
    (vaultLogic gcm key asked).wp t ((vaultLogic gcm key asked).post t call) (attempts D call ciphertextB64 draws) d := by
  induction draws generalizing d with
  | nil => trivial
  | cons draw draws ih =>
      refine Logic.wp_ofExcept_bind fun token _ => Logic.wp_query_bind (fun u d => ⟨.refl u _, .refl _⟩) fun _ _ _ => ?_
      split
      case isTrue => exact ih
      case isFalse =>
        refine Logic.wp_ofExcept_bind fun _ _ => Logic.wp_inserting_bind fun d₁ hi _ b d₂ hins _ => ?_
        refine ⟨⟨⟨hi.insertOnly.insertOrIgnore hins, fun k row hrow => ?_⟩, fun u hu => ⟨frame_insertOrIgnore hins hu,
          fun k v hk => (congrFun (committed_insertOrIgnore hins) k).trans hk⟩⟩, fun hb d₃ hi₃ hr => ?_⟩
        · rcases insertOrIgnore_cases hins with ⟨-, rfl, -⟩ | ⟨-, rfl, -⟩
          · exact hi.asked k row hrow
          · rcases hrow.of_write with hrow | ⟨rfl, rfl⟩
            · exact hi.asked k row hrow
            · exact ⟨call, hasked, rfl, hsealed⟩
        · rcases insertOrIgnore_cases hins with ⟨hno, -⟩ | ⟨-, rfl, -⟩
          · exact absurd (hno.symm.trans hb) Bool.false_ne_true
          · exact ⟨_, hr.1.visible_of_grows hr.2 hi₃.insertOnly (visible_write_self ..), rfl, hsealed⟩

/-- Every call keeps the rows sealed. -/
theorem vault_sound : (vaultLogic gcm key asked).Sound (tokenize D gcm key) where
  refl t _ := ⟨.refl t _, .refl _⟩
  trans h h' := ⟨h.1.trans h'.1, h.2.trans h'.2⟩
  fresh_rely _ _ _ := trivial
  ensures_rely _ hr h := h.imp fun _ hrow => ⟨hr.2 _ _ hrow.1, hrow.2⟩
  undone_rely _ _ _ := trivial
  body hasked _ _ := Logic.wp_ofExcept_bind fun _ => wp_attempts hasked
  commit {t _ _ _} hi h :=
    ⟨⟨⟨hi.insertOnly.commit t, fun k row hrow => hi.asked k row hrow.of_commit⟩,
      fun _ hu => ⟨frame_commit _ hu, hi.insertOnly.grows_commit t⟩⟩, h⟩
  rollback hi :=
    ⟨⟨⟨hi.insertOnly.rollback _, fun k row hrow => hi.asked k row hrow.of_rollback⟩,
      fun _ hu => ⟨frame_rollback _ hu, fun _ _ h => h⟩⟩, trivial⟩

/-- **The vault**: in every run, a token that was answered is read back as its value from then on, by its
tenant; what a tenant reads is a value that it has asked a token for; and no token is answered twice. -/
theorem vault_keeps (as : List (Action TokenizeCall)) (s : Sys VaultDb TokenError TokenizeCall (List Char))
    (h : run (tokenize D gcm key) (Sys.start .empty) as = some s) :
    (∀ t call token u, s.procs t = .committed call token →
      (detokenize gcm key call.tenantId token).eval u s.db = some (.ok call.value, s.db)) ∧
    (∀ u tenantId token value d, (detokenize gcm key tenantId token).eval u s.db = some (.ok value, d) →
      ∃ t call, .begin t call ∈ as ∧ call.tenantId = tenantId ∧ call.value = value) ∧
    ∀ t t' call call' token, s.procs t = .committed call token → s.procs t' = .committed call' token →
      call.tenantId = call'.tenantId → t = t' := by
  have hstart : (vaultLogic gcm key fun call => ∃ t, .begin t call ∈ as).Ok
      (Sys.start .empty : Sys VaultDb TokenError TokenizeCall (List Char)) := by
    refine ⟨⟨insertOnly_empty, ?_⟩, fun _ => trivial⟩
    rintro k row (hrow | ⟨t, hrow⟩) <;> contradiction
  have hok := vault_sound.run hstart (Logic.everyStep_of_admits (fun t _ hmem => ⟨t, hmem⟩) fun _ _ _ => trivial) h
  have hfound : ∀ {t call token}, s.procs t = .committed call token → Found gcm key t s.db.committed call token := by
    intro t call token ht
    have hproc := hok.procs t
    rw [ht] at hproc
    exact hproc
  refine ⟨fun t call token u ht => ?_, fun u tenantId token value _ heval => ?_, fun t t' call call' token ht ht' hten => ?_⟩
  · obtain ⟨row, hrow, -, hsealed⟩ := hfound ht
    have hvisible : s.db.visible u (call.tenantId, token) = some row := by
      refine (visible_of_no_inflight fun v hv => ?_).trans hrow
      rw [hok.inv.insertOnly _ u v hv] at hrow
      contradiction
    rw [detokenize, Prog.eval_query_bind, hvisible, Option.elim_some, decrypt_of_sealed hsealed, Prog.eval_ofExcept]
  · rw [detokenize, Prog.eval_query_bind, Prog.eval_ofExcept] at heval
    cases hrow : s.db.visible u (tenantId, token) with
    | none =>
        rw [hrow] at heval
        cases heval
    | some row =>
        obtain ⟨call, ⟨t, hmem⟩, rfl, hsealed⟩ := hok.inv.asked _ _ (.of_visible hrow)
        rw [hrow, Option.elim_some, decrypt_of_sealed hsealed] at heval
        exact ⟨t, call, hmem, rfl, Except.ok.inj (Prod.mk.inj (Option.some.inj heval)).1⟩
  · obtain ⟨row, hrow, hxmin, -⟩ := hfound ht
    obtain ⟨row', hrow', hxmin', -⟩ := hfound ht'
    rw [← hten, hrow] at hrow'
    rw [← hxmin, ← hxmin', Option.some.inj hrow']

/-! ## a value and its two tokens -/

def sampleDigits : Digits where
  isDigit := Char.isDigit
  int c := if c.isDigit then some (c.toNat - '0'.toNat) else none
  isDigit_ascii _ h := h
  int_ascii _ h := if_pos h

/-- `42`, encrypted for `acme` under a key and a nonce of zeros -/
def sampleText : Bytes := [250, 149, 83, 92, 78, 64, 21, 150, 8, 163, 168, 100, 246, 138, 42, 184, 198, 210]

theorem sampleText_head : sampleText.head? ≠ some 0 := by decide

def sampleCipher : VaultCipher where
  toAesGcm := ZkSdk.knownCipher (utf8 "42") sampleText sampleText_head
  tag _ _ data _ := by
    simp only [ZkSdk.knownCipher]
    split <;> simp [sampleText]

/-- A call that draws `99` first, and then `00`. -/
def sampleCall : TokenizeCall :=
  ⟨"acme", "42", "digits", ⟨List.replicate 12 0, List.length_replicate⟩,
    fun i => ⟨fun _ => if i.val = 0 then .last 9 else (Fin.last 9).rev, fun _ => .last 15⟩⟩

/-- Two calls look for `99` before either is inserted, and the second is refused; asked again, it sees the token
and draws another. -/
def sampleRun : List (Action TokenizeCall) :=
  [.begin 1 sampleCall, .begin 2 sampleCall, .exec 1, .exec 2, .exec 1, .commit 1, .exec 2, .abort 2,
    .begin 3 sampleCall, .exec 3, .exec 3, .exec 3, .commit 3]

theorem vault_keeps_sample :
    ∃ s, run (tokenize sampleDigits sampleCipher (some (List.replicate 32 0))) (Sys.start .empty) sampleRun = some s ∧
      s.procs 1 = .committed sampleCall ['9', '9'] ∧ s.procs 2 = .aborted ∧
      s.procs 3 = .committed sampleCall ['0', '0'] ∧
      (detokenize sampleCipher (some (List.replicate 32 0)) "acme" ['9', '9']).eval 4 s.db = some (.ok "42", s.db) ∧
      (detokenize sampleCipher (some (List.replicate 32 0)) "acme" ['0', '0']).eval 4 s.db = some (.ok "42", s.db) := by
  refine ⟨_, rfl, rfl, rfl, rfl, ?_, ?_⟩
  · exact (vault_keeps (D := sampleDigits) sampleRun _ rfl).1 1 sampleCall ['9', '9'] 4 rfl
  · exact (vault_keeps (D := sampleDigits) sampleRun _ rfl).1 3 sampleCall ['0', '0'] 4 rfl

end Anoryx.Sentinel.TokenVault
