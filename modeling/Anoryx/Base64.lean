import Mathlib.Data.List.DropRight

/-!
# Anoryx.Base64

`base64.b64encode` and `b64decode`, and the alphabet that is safe in a URL.

The decoder is lenient as Python's is: it passes over what is not of the alphabet, and stops at a
pad that completes a group.  It reads back what the encoder writes (`decode_encode`), also without
its padding when that is put back by the length (`decode_repad`).
-/

namespace Base64

abbrev Bytes := List UInt8

/-- `=` -/
def pad : UInt8 := 0x3d

/-- `A` to `Z`, `a` to `z`, `0` to `9`, `+` and `/` -/
def digit (n : Nat) : UInt8 :=
  if n < 26 then UInt8.ofNat (0x41 + n)
  else if n < 52 then UInt8.ofNat (0x61 + (n - 26))
  else if n < 62 then UInt8.ofNat (0x30 + (n - 52))
  else if n = 62 then 0x2b
  else 0x2f

def value (c : UInt8) : Option Nat :=
  if 0x41 ≤ c ∧ c ≤ 0x5a then some (c.toNat - 0x41)
  else if 0x61 ≤ c ∧ c ≤ 0x7a then some (c.toNat - 0x61 + 26)
  else if 0x30 ≤ c ∧ c ≤ 0x39 then some (c.toNat - 0x30 + 52)
  else if c = 0x2b then some 62
  else if c = 0x2f then some 63
  else none

/-- `b64encode` -/
def encode : Bytes → Bytes
  | [] => []
  | [a] => [digit (a.toNat / 4), digit (a.toNat % 4 * 16), pad, pad]
  | [a, b] => [digit (a.toNat / 4), digit (a.toNat % 4 * 16 + b.toNat / 16), digit (b.toNat % 16 * 4), pad]
  | a :: b :: c :: rest =>
      digit (a.toNat / 4) :: digit (a.toNat % 4 * 16 + b.toNat / 16) :: digit (b.toNat % 16 * 4 + c.toNat / 64) ::
        digit (c.toNat % 64) :: encode rest

/-- Where the decoder stands: the place in a group of four, the bits that are left over, and the
pads since the last digit; `none` is the `binascii.Error`. -/
def decodeFrom (quad left pads : Nat) : Bytes → Option Bytes
  | [] => if quad = 0 then some [] else none
  | c :: cs =>
      if c = pad then
        if 2 ≤ quad ∧ 4 ≤ quad + (pads + 1) then some []
        else decodeFrom quad left (if 2 ≤ quad then pads + 1 else pads) cs
      else
        match value c with
        | none => decodeFrom quad left pads cs
        | some v =>
            match quad with
            | 0 => decodeFrom 1 v 0 cs
            | 1 => (decodeFrom 2 (v % 16) 0 cs).map (UInt8.ofNat (left * 4 + v / 16) :: ·)
            | 2 => (decodeFrom 3 (v % 4) 0 cs).map (UInt8.ofNat (left * 16 + v / 4) :: ·)
            | _ => (decodeFrom 0 0 0 cs).map (UInt8.ofNat (left * 64 + v) :: ·)

/-- `b64decode` -/
def decode (cs : Bytes) : Option Bytes := decodeFrom 0 0 0 cs

/-! ## reading back -/

theorem digit_facts : ∀ n < 64, value (digit n) = some n ∧ digit n ≠ pad := by
  decide

theorem value_digit {n : Nat} (h : n < 64) : value (digit n) = some n := (digit_facts n h).1

theorem digit_ne_pad {n : Nat} (h : n < 64) : digit n ≠ pad := (digit_facts n h).2

theorem decodeFrom_digit {quad left pads n : Nat} (h : n < 64) (cs : Bytes) :
    decodeFrom quad left pads (digit n :: cs) =
      match quad with
      | 0 => decodeFrom 1 n 0 cs
      | 1 => (decodeFrom 2 (n % 16) 0 cs).map (UInt8.ofNat (left * 4 + n / 16) :: ·)
      | 2 => (decodeFrom 3 (n % 4) 0 cs).map (UInt8.ofNat (left * 16 + n / 4) :: ·)
      | _ => (decodeFrom 0 0 0 cs).map (UInt8.ofNat (left * 64 + n) :: ·) := by
  rw [decodeFrom, if_neg (digit_ne_pad h), value_digit h]

theorem ofNat_eq {n : Nat} {a : UInt8} (h : n = a.toNat) : UInt8.ofNat n = a := by
  rw [h, UInt8.ofNat_toNat]

/-- What is encoded is decoded. -/
theorem decode_encode (bs : Bytes) : decode (encode bs) = some bs := by
  unfold decode
  fun_induction encode bs with
  | case1 => rfl
  | case2 a =>
      have ha := a.toNat_lt
      simp only [decodeFrom_digit (show a.toNat / 4 < 64 by omega), decodeFrom_digit (show a.toNat % 4 * 16 < 64 by omega)]
      rw [ofNat_eq (a := a) (by omega)]
      rfl
  | case3 a b =>
      have ha := a.toNat_lt
      have hb := b.toNat_lt
      simp only [decodeFrom_digit (show a.toNat / 4 < 64 by omega),
        decodeFrom_digit (show a.toNat % 4 * 16 + b.toNat / 16 < 64 by omega),
        decodeFrom_digit (show b.toNat % 16 * 4 < 64 by omega)]
      rw [ofNat_eq (a := a) (by omega), ofNat_eq (a := b) (by omega)]
      rfl
  | case4 a b c rest ih =>
      have ha := a.toNat_lt
      have hb := b.toNat_lt
      have hc := c.toNat_lt
      simp only [decodeFrom_digit (show a.toNat / 4 < 64 by omega),
        decodeFrom_digit (show a.toNat % 4 * 16 + b.toNat / 16 < 64 by omega),
        decodeFrom_digit (show b.toNat % 16 * 4 + c.toNat / 64 < 64 by omega),
        decodeFrom_digit (show c.toNat % 64 < 64 by omega), ih]
      rw [ofNat_eq (a := a) (by omega), ofNat_eq (a := b) (by omega), ofNat_eq (a := c) (by omega)]
      rfl

/-! ## padding -/

/-- The encoding is a body of digits and up to two pads. -/
theorem encode_eq (bs : Bytes) :
    ∃ body k, encode bs = body ++ List.replicate k pad ∧ (∀ c ∈ body, ∃ n < 64, c = digit n) ∧
      (body.length + k) % 4 = 0 ∧ k < 3 ∧ (bs ≠ [] → body ≠ []) := by
  fun_induction encode bs with
  | case1 => exact ⟨[], 0, by simp⟩
  | case2 a =>
      have ha := a.toNat_lt
      refine ⟨[_, _], 2, rfl, ?_, by simp, by omega, by simp⟩
      simp only [List.forall_mem_cons]
      exact ⟨⟨_, by omega, rfl⟩, ⟨_, by omega, rfl⟩, by simp⟩
  | case3 a b =>
      have ha := a.toNat_lt
      have hb := b.toNat_lt
      refine ⟨[_, _, _], 1, rfl, ?_, by simp, by omega, by simp⟩
      simp only [List.forall_mem_cons]
      exact ⟨⟨_, by omega, rfl⟩, ⟨_, by omega, rfl⟩, ⟨_, by omega, rfl⟩, by simp⟩
  | case4 a b c rest ih =>
      have ha := a.toNat_lt
      have hb := b.toNat_lt
      have hc := c.toNat_lt
      obtain ⟨body, k, hencode, hbody, hlength, hk, -⟩ := ih
      refine ⟨_ :: _ :: _ :: _ :: body, k, by rw [hencode]; rfl, ?_, ?_, hk, by simp⟩
      · simp only [List.forall_mem_cons]
        exact ⟨⟨_, by omega, rfl⟩, ⟨_, by omega, rfl⟩, ⟨_, by omega, rfl⟩, ⟨_, by omega, rfl⟩, hbody⟩
      · simp only [List.length_cons]
        omega

theorem digit_lt : ∀ n < 64, digit n < 0x80 := by
  decide

theorem lt_of_mem_encode {bs : Bytes} {c : UInt8} (h : c ∈ encode bs) : c < 0x80 := by
  obtain ⟨body, k, hencode, hbody, -⟩ := encode_eq bs
  rw [hencode, List.mem_append, List.mem_replicate] at h
  rcases h with hc | ⟨-, rfl⟩
  · obtain ⟨n, hn, rfl⟩ := hbody c hc
    exact digit_lt n hn
  · decide

/-! ## the alphabet of URLs -/

def toUrlsafe (c : UInt8) : UInt8 := if c = 0x2b then 0x2d else if c = 0x2f then 0x5f else c

def ofUrlsafe (c : UInt8) : UInt8 := if c = 0x2d then 0x2b else if c = 0x5f then 0x2f else c

/-- `urlsafe_b64encode` -/
def urlsafeEncode (bs : Bytes) : Bytes := (encode bs).map toUrlsafe

/-- `urlsafe_b64decode` -/
def urlsafeDecode (cs : Bytes) : Option Bytes := decode (cs.map ofUrlsafe)

/-- `rstrip(b"=")` -/
def unpad (cs : Bytes) : Bytes := cs.rdropWhile (· = pad)

/-- `"=" * (-len(segment) % 4)` behind it -/
def repad (cs : Bytes) : Bytes := cs ++ List.replicate ((4 - cs.length % 4) % 4) pad

/-- What is written without padding: no pad, no point, and nothing but ASCII -/
def IsSafe (c : UInt8) : Prop := c ≠ pad ∧ c ≠ 0x2e ∧ c < 0x80

instance (c : UInt8) : Decidable (IsSafe c) := inferInstanceAs (Decidable (_ ∧ _))

theorem urlsafe_facts : ∀ n < 64, IsSafe (toUrlsafe (digit n)) ∧ ofUrlsafe (toUrlsafe (digit n)) = digit n := by
  decide

theorem urlsafe_pad : toUrlsafe pad = pad ∧ ofUrlsafe pad = pad := by decide

theorem rdropWhile_append_replicate {cs : Bytes} (h : ∀ c ∈ cs, c ≠ pad) (k : Nat) :
    unpad (cs ++ List.replicate k pad) = cs := by
  unfold unpad
  induction k with
  | zero =>
      rw [List.replicate_zero, List.append_nil, List.rdropWhile_eq_self_iff]
      intro hne
      simpa using h _ (List.getLast_mem hne)
  | succ k ih => rw [List.replicate_succ', ← List.append_assoc, List.rdropWhile_concat_pos _ _ _ (by simp), ih]

/-- The pads can be taken off and put back. -/
theorem unpad_urlsafeEncode (bs : Bytes) :
    (∀ c ∈ unpad (urlsafeEncode bs), IsSafe c) ∧ (bs ≠ [] → unpad (urlsafeEncode bs) ≠ []) ∧
      repad (unpad (urlsafeEncode bs)) = urlsafeEncode bs := by
  obtain ⟨body, k, hencode, hbody, hlength, hk, hne⟩ := encode_eq bs
  have hsafe : ∀ c ∈ body.map toUrlsafe, IsSafe c := by
    rw [List.forall_mem_map]
    intro c hc
    obtain ⟨n, hn, rfl⟩ := hbody c hc
    exact (urlsafe_facts n hn).1
  have hsplit : urlsafeEncode bs = body.map toUrlsafe ++ List.replicate k pad := by
    rw [urlsafeEncode, hencode, List.map_append, List.map_replicate, urlsafe_pad.1]
  have hunpad : unpad (urlsafeEncode bs) = body.map toUrlsafe := by
    rw [hsplit]
    exact rdropWhile_append_replicate (fun c hc => (hsafe c hc).1) k
  refine ⟨hunpad ▸ hsafe, fun hbs => ?_, ?_⟩
  · rw [hunpad]
    simpa using hne hbs
  · have hk' : (4 - body.length % 4) % 4 = k := by omega
    rw [hunpad, repad, List.length_map, hk', hsplit]

theorem urlsafeDecode_urlsafeEncode (bs : Bytes) : urlsafeDecode (urlsafeEncode bs) = some bs := by
  obtain ⟨body, k, hencode, hbody, -⟩ := encode_eq bs
  have hbody' : body.map (ofUrlsafe ∘ toUrlsafe) = body := by
    conv_rhs => rw [← List.map_id body]
    apply List.map_congr_left
    intro c hc
    obtain ⟨n, hn, rfl⟩ := hbody c hc
    exact (urlsafe_facts n hn).2
  have hback : (urlsafeEncode bs).map ofUrlsafe = encode bs := by
    rw [urlsafeEncode, hencode, List.map_map, List.map_append, List.map_replicate, Function.comp_apply, urlsafe_pad.1,
      urlsafe_pad.2, hbody']
  rw [urlsafeDecode, hback, decode_encode]

theorem decode_repad (bs : Bytes) : urlsafeDecode (repad (unpad (urlsafeEncode bs))) = some bs := by
  rw [(unpad_urlsafeEncode bs).2.2, urlsafeDecode_urlsafeEncode]

end Base64
