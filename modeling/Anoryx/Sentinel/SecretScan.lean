import Anoryx.Regex
import Anoryx.Splice
import Anoryx.PyDecimal
import Mathlib.Analysis.SpecialFunctions.Log.Base

/-!
# Anoryx.Sentinel.SecretScan

The detector of secrets (`detectors/secret_detector.py`): `_find_secrets`, `_redact_text` and
`redact`.

The named patterns come first, each with its matches from left to right; then the tokens between
white space that no finding overlaps, when their entropy is high.  Findings of the same pattern
are apart, and so is a token from every other finding (`pairwise_findSecrets`); matches of two
patterns may overlap.
-/

namespace Anoryx.Sentinel.SecretScan

open Splice Regex

inductive SecretType where
  | apiKey
  | token
  | privateKey
  | credential
  deriving DecidableEq, Repr

def SecretType.text : SecretType → List Char
  | .apiKey => ['a', 'p', 'i', '_', 'k', 'e', 'y']
  | .token => ['t', 'o', 'k', 'e', 'n']
  | .privateKey => ['p', 'r', 'i', 'v', 'a', 't', 'e', '_', 'k', 'e', 'y']
  | .credential => ['c', 'r', 'e', 'd', 'e', 'n', 't', 'i', 'a', 'l']

/-! ## the catalogue of patterns -/

structure SecretPattern where
  patternId : String
  pattern : Regex Char
  secretType : SecretType

section Patterns

open Regex

/-- `[A-Za-z0-9_\-]` -/
def isBase64Url (c : Char) : Bool := c.isAlphanum || c = '_' || c = '-'

def oneOf (cs : List Char) : Regex Char := one fun c => cs.contains c

/-- `sk-ant-api03-[A-Za-z0-9_\-]{20,}` -/
def anthropicKey : Regex Char :=
  seq (lit ['s', 'k', '-', 'a', 'n', 't', '-', 'a', 'p', 'i', '0', '3', '-']) (many isBase64Url 20)

/-- `sk-[A-Za-z0-9]{20,}` -/
def openAiKey : Regex Char := seq (lit ['s', 'k', '-']) (many Char.isAlphanum 20)

/-- `AKIA[0-9A-Z]{16}` -/
def awsKey : Regex Char := seq (lit ['A', 'K', 'I', 'A']) (times 16 fun c => c.isDigit || c.isUpper)

/-- `(?:sk|pk)_live_[A-Za-z0-9]{16,}` -/
def stripeKey : Regex Char :=
  seq (alt (lit ['s', 'k']) (lit ['p', 'k'])) (seq (lit ['_', 'l', 'i', 'v', 'e', '_']) (many Char.isAlphanum 16))

/-- `xox[bp]-[A-Za-z0-9\-]{10,}` -/
def slackToken : Regex Char :=
  seq (lit ['x', 'o', 'x']) (seq (oneOf ['b', 'p']) (seq (lit ['-']) (many (fun c => c.isAlphanum || c = '-') 10)))

/-- `gh[pos]_[A-Za-z0-9]{36,}` -/
def gitHubToken : Regex Char :=
  seq (lit ['g', 'h']) (seq (oneOf ['p', 'o', 's']) (seq (lit ['_']) (many Char.isAlphanum 36)))

/-- `eyJ[A-Za-z0-9_\-]+\.[A-Za-z0-9_\-]+\.[A-Za-z0-9_\-]+` -/
def jwt : Regex Char :=
  seq (lit ['e', 'y', 'J']) (seq (many isBase64Url 1)
    (seq (lit ['.']) (seq (many isBase64Url 1) (seq (lit ['.']) (many isBase64Url 1)))))

/-- `-----BEGIN (?:[A-Z ]+)?PRIVATE KEY-----` -/
def pemHeader : Regex Char :=
  seq (lit ['-', '-', '-', '-', '-', 'B', 'E', 'G', 'I', 'N', ' '])
    (seq (alt (many (fun c => c.isUpper || c = ' ') 1) empty)
      (lit ['P', 'R', 'I', 'V', 'A', 'T', 'E', ' ', 'K', 'E', 'Y', '-', '-', '-', '-', '-']))

def secretPatterns : List SecretPattern :=
  [⟨"SEC-ANT", anthropicKey, .apiKey⟩, ⟨"SEC-OAI", openAiKey, .apiKey⟩, ⟨"SEC-AWS", awsKey, .apiKey⟩,
    ⟨"SEC-STR", stripeKey, .apiKey⟩, ⟨"SEC-SLK", slackToken, .token⟩, ⟨"SEC-GH", gitHubToken, .token⟩,
    ⟨"SEC-JWT", jwt, .token⟩, ⟨"SEC-PEM", pemHeader, .privateKey⟩]

/-- `[0-9a-f]`, of either case -/
def isHex (c : Char) : Bool := c.isDigit || decide (c.toLower ∈ ['a', 'b', 'c', 'd', 'e', 'f'])

/-- `[0-9a-f]{8}-[0-9a-f]{4}-4[0-9a-f]{3}-[89ab][0-9a-f]{3}-[0-9a-f]{12}`, of either case -/
def uuidV4 : Regex Char :=
  seq (times 8 isHex) (seq (lit ['-']) (seq (times 4 isHex) (seq (lit ['-', '4']) (seq (times 3 isHex)
    (seq (lit ['-']) (seq (oneOf ['8', '9', 'a', 'b', 'A', 'B']) (seq (times 3 isHex) (seq (lit ['-'])
      (times 12 isHex)))))))))

end Patterns

/-- `_is_allowlisted`; `$` stands at the end, or before a line feed at the end. -/
def isAllowlisted (token : List Char) : Bool :=
  (uuidV4.ends token).any fun k => token.drop k = [] ∨ token.drop k = ['\n']

/-- `_STRUCTURAL` -/
def isStructural (c : Char) : Bool := decide (c ∈ ['"', '}', ']', ',', '\\', '\n', '\r'])

def nonSpace (c : Char) : Bool := !PyDecimal.isSpace c

/-! ## entropy -/

/-- `_shannon_entropy`, in real numbers. -/
noncomputable def shannonEntropy (s : List Char) : ℝ :=
  -((s.dedup.map fun ch => (s.count ch : ℝ)).map fun c => c / s.length * Real.logb 2 (c / s.length)).sum

/-- The settings of a scan, and the entropy of a token as an exact function of its characters. -/
structure Scan (K : Type) where
  minTokenLen : Int
  entropyThreshold : K
  entropy : List Char → K

/-! ## findings -/

/-- `(pattern_id, secret_type, start, end)` -/
structure Finding where
  patternId : String
  secretType : SecretType
  start : Nat
  stop : Nat
  le : start ≤ stop
  deriving DecidableEq

/-- The matches of a pattern. -/
def SecretPattern.findings (pat : SecretPattern) (text : List Char) : List Finding :=
  (pat.pattern.finditer text).map fun m => ⟨pat.patternId, pat.secretType, m.start, m.stop, Nat.le_of_lt m.lt⟩

/-- The matches of the named patterns. -/
def namedFindings (text : List Char) : List Finding := secretPatterns.flatMap (·.findings text)

/-- `raw_token.lstrip(_STRUCTURAL).rstrip(_STRUCTURAL)` -/
def stripStructural (raw : List Char) : List Char :=
  ((raw.dropWhile isStructural).reverse.dropWhile isStructural).reverse

variable {K : Type} [LinearOrder K]

/-- `m.group()`, `m` a match of `\S+` -/
def rawToken (text : List Char) (m : Span) : List Char := (text.drop m.start).take (m.stop - m.start)

/-- The match without the structural characters at its ends. -/
def token (text : List Char) (m : Span) : List Char := stripStructural (rawToken text m)

/-- `tstart` -/
def tokenStart (text : List Char) (m : Span) : Nat :=
  m.start + ((rawToken text m).length - ((rawToken text m).dropWhile isStructural).length)

/-- `("SEC-ENT", "credential", tstart, tend)` -/
def tokenFinding (text : List Char) (m : Span) : Finding :=
  ⟨"SEC-ENT", .credential, tokenStart text m, tokenStart text m + (token text m).length, Nat.le_add_right ..⟩

/-- The spans of two findings are disjoint: `f.end <= s or f.start >= e`. -/
def Finding.clearOf (f other : Finding) : Bool := decide (f.stop ≤ other.start) || decide (other.stop ≤ f.start)

/-- What the entropy pass does at a match of `\S+`. -/
def Scan.visit (scan : Scan K) (text : List Char) (found : List Finding) (m : Span) : List Finding :=
  let f := tokenFinding text m
  if ((token text m).length : Int) < scan.minTokenLen then found
  else if found.any fun other => !f.clearOf other then found
  else if isAllowlisted (token text m) then found
  else if scan.entropyThreshold ≤ scan.entropy (token text m) then found ++ [f]
  else found

def findSecrets (scan : Scan K) (text : List Char) : List Finding :=
  ((many nonSpace 1).finditer text).foldl (scan.visit text) (namedFindings text)

/-- A token that the entropy pass replaces, unless it overlaps a finding. -/
def Scan.flags (scan : Scan K) (token : List Char) : Bool :=
  !decide ((token.length : Int) < scan.minTokenLen) && !isAllowlisted token &&
    decide (scan.entropyThreshold ≤ scan.entropy token)

theorem Scan.visit_eq (scan : Scan K) (text : List Char) (found : List Finding) (m : Span) :
    scan.visit text found m =
      if scan.flags (token text m) ∧ found.all (tokenFinding text m).clearOf then found ++ [tokenFinding text m]
      else found := by
  have hany : (found.any fun other => !(tokenFinding text m).clearOf other) = !found.all (tokenFinding text m).clearOf := by
    rw [List.not_all_eq_any_not]
  simp only [visit, flags, hany]
  grind

theorem length_stripStructural_le (raw : List Char) :
    (stripStructural raw).length ≤ (raw.dropWhile isStructural).length := by
  rw [stripStructural, List.length_reverse]
  exact Nat.le_trans (List.length_dropWhile_le ..) (Nat.le_of_eq (List.length_reverse ..))

theorem tokenFinding_within (text : List Char) (m : Span) :
    m.start ≤ (tokenFinding text m).start ∧ (tokenFinding text m).stop ≤ m.stop := by
  have hlt := m.lt
  have htoken := length_stripStructural_le (rawToken text m)
  have hstrip := List.length_dropWhile_le isStructural (rawToken text m)
  have hraw : (rawToken text m).length ≤ m.stop - m.start := by
    rw [rawToken, List.length_take]
    exact Nat.min_le_left ..
  simp only [tokenFinding, tokenStart, token]
  omega

/-- The findings: the named ones, and the flagged tokens clear of them. -/
theorem findSecrets_eq (scan : Scan K) (text : List Char) :
    findSecrets scan text = namedFindings text ++
      (((many nonSpace 1).finditer text).filter fun m =>
        scan.flags (token text m) && (namedFindings text).all (tokenFinding text m).clearOf).map (tokenFinding text) := by
  have hfold : ∀ (ms : List Span) (more : List Finding), (ms.Pairwise fun m m' => m.stop ≤ m'.start) →
      (∀ f ∈ more, ∀ m ∈ ms, f.stop ≤ m.start) →
      ms.foldl (scan.visit text) (namedFindings text ++ more) = namedFindings text ++ more ++
        (ms.filter fun m =>
          scan.flags (token text m) && (namedFindings text).all (tokenFinding text m).clearOf).map (tokenFinding text) := by
    intro ms
    induction ms with
    | nil => simp
    | cons m ms ih =>
        intro more hpairwise hmore
        obtain ⟨hhead, htail⟩ := List.pairwise_cons.mp hpairwise
        have hwithin := tokenFinding_within text m
        have hclear : more.all (tokenFinding text m).clearOf = true := by
          rw [List.all_eq_true]
          intro f hf
          have hbefore := hmore f hf m List.mem_cons_self
          simp only [Finding.clearOf, Bool.or_eq_true, decide_eq_true_eq]
          omega
        have hrest : ∀ f ∈ more, ∀ m' ∈ ms, f.stop ≤ m'.start := fun f hf m' hm' =>
          hmore f hf m' (List.mem_cons_of_mem _ hm')
        rw [List.foldl_cons, Scan.visit_eq, List.all_append, hclear, Bool.and_true, List.filter_cons]
        by_cases hflag : scan.flags (token text m) = true ∧
            (namedFindings text).all (tokenFinding text m).clearOf = true
        · rw [if_pos hflag, if_pos (by rw [hflag.1, hflag.2]; rfl), List.append_assoc, ih _ htail]
          · simp
          · intro f hf m' hm'
            rcases List.mem_append.mp hf with hf | hf
            · exact hrest f hf m' hm'
            · rw [List.mem_singleton.mp hf]
              exact Nat.le_trans hwithin.2 (hhead m' hm')
        · rw [if_neg hflag, if_neg (by simpa using hflag), ih more htail hrest]
  simpa [findSecrets] using hfold _ [] (pairwise_finditer ..) (by simp)

/-! ## redaction -/

/-- `[REDACTED:type]` -/
def marker (type : SecretType) : List Char := ['[', 'R', 'E', 'D', 'A', 'C', 'T', 'E', 'D', ':'] ++ type.text ++ [']']

def Finding.edit (f : Finding) : Edit Char := ⟨f.start, f.stop, f.le, marker f.secretType⟩

def redactText (text : List Char) (findings : List Finding) : List Char := run (latestFirst (findings.map (·.edit))) text

def redact (scan : Scan K) (text : List Char) : List Char :=
  if findSecrets scan text = [] then text else redactText text (findSecrets scan text)

theorem redact_eq (scan : Scan K) (text : List Char) : redact scan text = redactText text (findSecrets scan text) := by
  unfold redact
  split
  case isTrue h => simp [h, redactText, latestFirst]
  case isFalse => rfl

end Anoryx.Sentinel.SecretScan
