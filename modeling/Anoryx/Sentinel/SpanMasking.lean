import Anoryx.Sentinel.PiiMasking
import Anoryx.Sentinel.SecretScan

/-!
# Anoryx.Sentinel.SpanMasking

What masking leaves of a text: `_apply_pii_masks` and `_redact_text` make the replacements with
the offsets of the original text, the latest start first.

A replacement leaves the offsets before its start as they are.  Where findings overlap, the text
between an end and what was at it has moved, by as much as the marks inside are longer or shorter
than what they replace; the outer replacement then leaves covered text behind, or takes text out
that no finding covers (`sound_iff`).
-/

namespace Anoryx.Sentinel.SpanMasking

open Splice PiiMasking SecretScan

/-- Of the text, `out` keeps the characters that no edit covers, once and in order, and no others. -/
def Sound (edits : List (Edit Char)) (text out : List Char) : Prop :=
  Redacts (latestFirst edits) text out (covered edits)

variable {edits : List (Edit Char)} {text xs : List Char}

theorem sound_run_iff :
    Sound edits text (run (latestFirst edits) text) ↔
      ∀ p < text.length, cut (latestFirst edits) p = covered edits p := by
  rw [Sound, redacts_run_iff, ← exact_iff, Exact]

/-- Masking and tokenizing, and the redaction of secrets, are sound exactly when each replacement,
where those before it have moved the text, takes out what findings cover. -/
theorem sound_iff (text : List Char) :
    (∀ (results : List RecognizerResult) (action : Action), action ≠ .block →
      (Sound (results.map (·.edit action)) text (applyPiiMasks text results action) ↔
        ∀ p < text.length,
          cut (latestFirst (results.map (·.edit action))) p = covered (results.map (·.edit action)) p)) ∧
    ∀ (K : Type) [LinearOrder K] (scan : Scan K),
      (Sound ((findSecrets scan text).map (·.edit)) text (redactText text (findSecrets scan text)) ↔
        ∀ p < text.length,
          cut (latestFirst ((findSecrets scan text).map (·.edit))) p =
            covered ((findSecrets scan text).map (·.edit)) p) := by
  constructor
  · intro results action haction
    rw [applyPiiMasks, if_neg haction]
    exact sound_run_iff
  · intro K _ scan
    exact sound_run_iff

/-- An account number, and within it digits that look like a telephone number. -/
def accountText : List Char :=
  ['G', 'B', '8', '2', ' ', 'W', 'E', 'S', 'T', ' ', '1', '2', '3', '4', ' ', '5', '6', '9', '8', ' ', '7', '6', '5', '4',
    ' ', '3', '2']

def accountResults : List RecognizerResult :=
  [⟨['I', 'B', 'A', 'N', '_', 'C', 'O', 'D', 'E'], 0, 27, 1, by decide⟩, ⟨phoneNumber, 10, 24, 3 / 4, by decide⟩]

/-- A token with the name of a key as its second segment. -/
def jwtText : List Char :=
  ['e', 'y', 'J', 'a', '.', 'A', 'K', 'I', 'A', '0', '1', '2', '3', '4', '5', '6', '7', '8', '9', 'A', 'B', 'C', 'D', 'E',
    'F', '.', 'b', ' ', 't', 'a', 'i', 'l']

/-- A place, and behind it the telephone number. -/
def apartResults : List RecognizerResult :=
  [⟨['L', 'O', 'C', 'A', 'T', 'I', 'O', 'N'], 0, 9, 1, by decide⟩, ⟨phoneNumber, 10, 24, 3 / 4, by decide⟩]

/-- Two findings that are apart are masked as they should be. -/
theorem sound_account :
    Sound (apartResults.map (·.edit .mask)) accountText (applyPiiMasks accountText apartResults .mask) :=
  ((sound_iff accountText).1 apartResults .mask (by decide)).mpr (by decide +kernel)

/-- The mark of the telephone number is longer than it, and the end of the account number stays;
the mark of the key is shorter, and the text after the token goes. -/
theorem nested_findings_unsound :
    (¬ let kept := aboveThreshold ⟨.mask, 17 / 20, 50000⟩ accountResults
      Sound (kept.map (·.edit .mask)) accountText (applyPiiMasks accountText kept .mask)) ∧
    ¬ let scan : Scan ℝ := ⟨20, 9 / 2, shannonEntropy⟩
      Sound ((findSecrets scan jwtText).map (·.edit)) jwtText (redactText jwtText (findSecrets scan jwtText)) := by
  constructor
  · intro h
    have hcut := sound_run_iff.mp h 24 (by decide)
    revert hcut
    decide +kernel
  · intro h
    have hcut := sound_run_iff.mp h 28 (by decide)
    revert hcut
    decide +kernel

/-! ## the hook -/

theorem aboveThreshold_eq_nil {settings : Settings} {results : List RecognizerResult} :
    aboveThreshold settings results = [] ↔ ∀ r ∈ results, r.score < threshold settings r.entityType := by
  simp [aboveThreshold, List.eq_nil_iff_forall_not_mem]

theorem sound_append (ys : List Char) (h : edits.Pairwise Disjoint) (hstop : ∀ e ∈ edits, e.stop ≤ xs.length) :
    Sound edits (xs ++ ys) (run (latestFirst edits) xs ++ ys) := by
  rw [← run_append (apart_latestFirst h) fun e he => hstop e (mem_latestFirst.mp he), sound_run_iff]
  exact exact_iff.mp (exact_of_disjoint h _)

/-- **What the hook lets through**: the content when no finding reaches its threshold, and else,
unless it blocks, what it inspects masked, and the rest. -/
theorem inspect_redacts (settings : Settings) (analyze : List Char → List RecognizerResult) (content : List Char) :
    let inspected := content.take settings.maxPiiInspectChars
    let rest := content.drop settings.maxPiiInspectChars
    let edits := (aboveThreshold settings (analyze inspected)).map (·.edit settings.piiAction)
    (inspect settings (some analyze) content = some .passed ↔
      content = [] ∨ ∀ r ∈ analyze inspected, r.score < threshold settings r.entityType) ∧
    ∀ event payload, inspect settings (some analyze) content = some ⟨.mask, event, payload⟩ →
      ∃ masked, payload = some (masked ++ rest) ∧
        (Sound edits inspected masked ↔ ∀ p < inspected.length, cut (latestFirst edits) p = covered edits p) ∧
        (edits.Pairwise Disjoint → (∀ e ∈ edits, e.stop ≤ inspected.length) → Sound edits content (masked ++ rest)) := by
  dsimp only
  rw [← aboveThreshold_eq_nil, inspect]
  by_cases hcontent : content = []
  · simp [hcontent, DetectorResult.passed]
  · rw [if_neg hcontent, Option.map_some]
    cases aboveThreshold settings (analyze (content.take settings.maxPiiInspectChars)) with
    | nil => simp [DetectorResult.passed]
    | cons primary others =>
        dsimp only
        by_cases hblock : settings.piiAction = .block
        · simp [hblock, hcontent, DetectorResult.passed]
        · rw [if_neg hblock, applyPiiMasks, if_neg hblock]
          refine ⟨by simp [hcontent, DetectorResult.passed], fun event payload hmask => ?_⟩
          simp only [Option.some.injEq, DetectorResult.mk.injEq, true_and] at hmask
          obtain ⟨-, rfl⟩ := hmask
          refine ⟨_, rfl, sound_run_iff, fun hapart hstop => ?_⟩
          have hsound := sound_append (content.drop settings.maxPiiInspectChars) hapart hstop
          rwa [List.take_append_drop] at hsound

end Anoryx.Sentinel.SpanMasking
