import Anoryx.Splice.Joined
import Anoryx.Sentinel.RedactionStable
import Anoryx.Sentinel.MaskedContent

/-!
# Anoryx.Sentinel.SecretInbound

`SecretInboundHook`, which scans the contents of the user's messages joined with line feeds.

A line feed is in no match of a named pattern and in no word, so the hook finds exactly what it
would find in one of the messages alone (`blocks_iff`); a secret that is cut by the end of a
message is not found.
-/

namespace Anoryx.Sentinel.SecretInbound

open Splice SecretScan RedactionStable Gateway PyJson

variable {K : Type} [LinearOrder K] {scan : Scan K}

/-! ## the hook -/

inductive Action where
  | pass
  | mask
  | block
  deriving DecidableEq, Repr

/-- The event of a finding, without its envelope. -/
structure SecretLeaked where
  eventType : String
  secretType : SecretType
  direction : String
  actionTaken : String
  deriving DecidableEq, Repr

structure DetectorResult where
  action : Action
  event : Option SecretLeaked
  deriving DecidableEq, Repr

/-- The characters of a content.  The request model lets no surrogate in (`strField`). -/
def characters (content : PyStr) : List Char := content.points.map fun p => (scalar p).getD '\uFFFD'

/-- `SecretInboundHook.inspect`, of the context's `original_user_content`. -/
def inspect (scan : Scan K) (originalUserContent : PyStr) : DetectorResult :=
  let scanText := characters originalUserContent
  if scanText = [] then ⟨.pass, none⟩
  else match findSecrets scan scanText with
    | [] => ⟨.pass, none⟩
    | finding :: _ => ⟨.block, some ⟨"secret_leaked", finding.secretType, "inbound", "blocked"⟩⟩

def userContents (messages : List Gateway.ChatMessage) : List (List Char) :=
  (userMessages messages).map fun m => characters m.content

/-- The hook blocks the request, by what `build_hook_context` took from its messages. -/
def Blocks (scan : Scan K) (messages : List Gateway.ChatMessage) : Prop :=
  (inspect scan (originalUserContent messages)).action = .block

/-! ## what a scan finds -/

/-- A match of a named pattern is in the text. -/
def Named (text : List Char) : Prop := ∃ pat ∈ secretPatterns, Found pat.pattern text

/-- A word of the text, less what is structural at its ends, is long, no UUID and of high entropy. -/
def Flagged (scan : Scan K) (text : List Char) : Prop :=
  ∃ w, WordOf nonSpace w text ∧ scan.flags (stripStructural w)

theorem findSecrets_eq_nil_iff {text : List Char} :
    findSecrets scan text = [] ↔ ¬ Named text ∧ ¬ Flagged scan text := by
  constructor
  · intro h
    refine ⟨?_, ?_⟩
    · rintro ⟨pat, hpat, w, hw, hmatch⟩
      have hnamed : namedFindings text = [] := (List.append_eq_nil_iff.mp (findSecrets_eq scan text ▸ h)).1
      have hpattern : pat.pattern.finditer text = [] :=
        List.map_eq_nil_iff.mp (List.flatMap_eq_nil_iff.mp hnamed pat hpat)
      exact (Regex.finditer_eq_nil_iff (secretPatterns_facts pat hpat).1).mp hpattern w hw hmatch
    · rintro ⟨w, ⟨x, y, htext, hword⟩, hflags⟩
      rw [flags_of_findSecrets_eq_nil h htext hword] at hflags
      contradiction
  · rintro ⟨hnamed, hflagged⟩
    apply findSecrets_eq_nil_of_words
    · exact namedFindings_eq_nil fun pat hpat w hw hmatch => hnamed ⟨pat, hpat, w, hw, hmatch⟩
    · intro x w y htext hword
      exact Bool.eq_false_iff.mpr fun hflags => hflagged ⟨w, ⟨x, y, htext, hword⟩, hflags⟩

theorem inspect_blocks_iff {content : PyStr} :
    (inspect scan content).action = .block ↔ Named (characters content) ∨ Flagged scan (characters content) := by
  have hfound : findSecrets scan (characters content) = [] ↔ _ := findSecrets_eq_nil_iff
  rw [← not_or] at hfound
  rw [← not_iff_not, ← hfound, inspect]
  split
  case isTrue hempty => simp [hempty, findSecrets, namedFindings, secretPatterns, SecretPattern.findings, Regex.finditer,
    Regex.finditerFrom]
  case isFalse => split <;> simp_all

/-! ## cut texts -/

theorem secretPatterns_lineFeed : ∀ pat ∈ secretPatterns, pat.pattern.chars '\n' = false := by
  decide +kernel

theorem characters_originalUserContent (messages : List Gateway.ChatMessage) :
    characters (originalUserContent messages) = ['\n'].intercalate (userContents messages) := by
  have hfeed : (scalar 0x0a).getD '\uFFFD' = '\n' := by decide
  rw [characters, originalUserContent, map_joined, hfeed, List.map_map]
  rfl

/-- The hook blocks a request exactly for what is in one message of it alone. -/
theorem blocks_iff (messages : List Gateway.ChatMessage) :
    Blocks scan messages ↔ ∃ content ∈ userContents messages, Named content ∨ Flagged scan content := by
  have hnamed : Named (['\n'].intercalate (userContents messages)) ↔ ∃ content ∈ userContents messages, Named content := by
    have hpattern : ∀ pat ∈ secretPatterns, (Found pat.pattern (['\n'].intercalate (userContents messages)) ↔
        ∃ content ∈ userContents messages, Found pat.pattern content) := fun pat hpat =>
      found_joined_iff (secretPatterns_facts pat hpat).1 (secretPatterns_lineFeed pat hpat)
    unfold Named
    grind
  have hflagged : Flagged scan (['\n'].intercalate (userContents messages)) ↔
      ∃ content ∈ userContents messages, Flagged scan content := by
    have hspace : nonSpace '\n' = false := by decide
    simp only [Flagged, wordOf_joined_iff hspace]
    grind
  rw [Blocks, inspect_blocks_iff, characters_originalUserContent, hnamed, hflagged]
  grind

def keyParts : List PyStr := [PyStr.ofString "AKIA", PyStr.ofString "IOSFODNN7EXAMPLE"]

/-- A key of which the first four characters are a message of their own. -/
theorem cut_key_passes : ¬ ∀ (v : PyValue Nat) body text, CreateChatCompletionRequest.validate v = some body →
    (userContents body.messages).flatten = text → Named text → Blocks defaultScan body.messages := by
  intro h
  have hvalid : CreateChatCompletionRequest.validate (Gateway.sampleMessages keyParts) =
      some (Gateway.sampleRequest keyParts) := by
    apply validate_sampleMessages (by decide) (by decide)
    simp only [keyParts, List.forall_mem_cons, PyStr.encode_ofString, Option.isSome_some, PyStr.length_ofString, true_and]
    decide
  have hkey : 20 ∈ awsKey.ends (userContents (Gateway.sampleRequest keyParts).messages).flatten := by decide +kernel
  have hnamed : Named (userContents (Gateway.sampleRequest keyParts).messages).flatten :=
    ⟨⟨"SEC-AWS", awsKey, .apiKey⟩, by simp [secretPatterns], _, (List.take_prefix ..).isInfix, (Regex.mem_ends.mp hkey).2⟩
  have hblocks := h _ _ _ hvalid rfl hnamed
  have hpass : inspect defaultScan (originalUserContent (Gateway.sampleRequest keyParts).messages) = ⟨.pass, none⟩ := by
    decide +kernel
  rw [Blocks, hpass] at hblocks
  contradiction

end Anoryx.Sentinel.SecretInbound
