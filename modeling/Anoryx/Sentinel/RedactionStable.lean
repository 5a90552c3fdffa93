import Anoryx.Sentinel.SecretScan
import Anoryx.Splice.Words

/-!
# Anoryx.Sentinel.RedactionStable

Redacting a text twice.

When the matches of the named patterns are apart, so are the findings, and the redacted text has
no match of a named pattern: a match would lie in a marker, or in the text that no finding covers.
Its words without a marker are words of the text that the scan did not flag.  What remains are the
words that markers and the text next to them make together, and the scan may flag those
(`stable_iff`).
-/

namespace Anoryx.Sentinel.RedactionStable

open Splice SecretScan Regex

variable {K : Type} [LinearOrder K]

/-- The matches of the named patterns do not overlap. -/
def NamedApart (text : List Char) : Prop := (namedFindings text).Pairwise fun f f' => f.clearOf f'

instance (text : List Char) : Decidable (NamedApart text) := inferInstanceAs (Decidable (List.Pairwise _ _))

/-- The redaction of the text is its own redaction, and no part of it is of a named pattern. -/
def Stable (scan : Scan K) (text : List Char) : Prop :=
  redact scan (redact scan text) = redact scan text ∧
    ∀ pat ∈ secretPatterns, ∀ w, w <:+: redact scan text → ¬ pat.pattern.Matches w

/-- The replacements of the findings, the latest first. -/
def edits (scan : Scan K) (text : List Char) : List (Edit Char) := latestFirst ((findSecrets scan text).map (·.edit))

/-- Take each finding as one symbol that is not white space: no word with a finding in it, the
markers written for its findings, is a token that the entropy pass flags. -/
def JoinsQuiet (scan : Scan K) (text : List Char) : Prop :=
  ∀ x w y, symbols (edits scan text) text = x ++ w ++ y → IsWord (ofClass nonSpace) x w y →
    (∃ s ∈ w, s.isRight) → scan.flags (stripStructural (w.flatMap expand)) = false

/-! ## findings apart -/

variable {text : List Char}

variable {f : Finding} {pat : SecretPattern} {w x y : List Char} {m : Span}

theorem of_mem_namedFindings (h : f ∈ namedFindings text) :
    ∃ pat ∈ secretPatterns, ∃ m ∈ pat.pattern.finditer text, f.start = m.start ∧ f.stop = m.stop := by
  obtain ⟨pat, hpat, hf⟩ := List.mem_flatMap.mp h
  obtain ⟨m, hm, rfl⟩ := List.mem_map.mp hf
  exact ⟨pat, hpat, m, hm, rfl, rfl⟩

variable {scan : Scan K}

theorem mem_findSecrets :
    f ∈ findSecrets scan text ↔ f ∈ namedFindings text ∨
      ∃ m ∈ (many nonSpace 1).finditer text,
        scan.flags (token text m) ∧ (∀ g ∈ namedFindings text, (tokenFinding text m).clearOf g) ∧
          f = tokenFinding text m := by
  simp only [findSecrets_eq, List.mem_append, List.mem_map, List.mem_filter, Bool.and_eq_true, List.all_eq_true]
  grind

theorem pairwise_findSecrets (h : NamedApart text) :
    ((findSecrets scan text).map (·.edit)).Pairwise Splice.Disjoint := by
  have hnamed : ∀ f ∈ namedFindings text, f.start < f.stop := by
    intro f hf
    obtain ⟨pat, -, m, -, hstart, hstop⟩ := of_mem_namedFindings hf
    rw [hstart, hstop]
    exact m.lt
  rw [List.pairwise_map, findSecrets_eq, List.pairwise_append, List.pairwise_map]
  refine ⟨?_, ?_, ?_⟩
  · apply h.imp_of_mem
    intro f f' hf hf' hclear
    have hlt := hnamed f hf
    simp only [Finding.clearOf, Bool.or_eq_true, decide_eq_true_eq] at hclear
    simp only [Splice.Disjoint, Finding.edit]
    omega
  · apply (pairwise_finditer_many nonSpace text).filter _ |>.imp
    intro m m' hlt
    have hm := tokenFinding_within text m
    have hm' := tokenFinding_within text m'
    have hle := (tokenFinding text m).le
    simp only [Splice.Disjoint, Finding.edit]
    omega
  · intro f hf g hg
    obtain ⟨m, hm, rfl⟩ := List.mem_map.mp hg
    have hlt := hnamed f hf
    have hclear := List.all_eq_true.mp (Bool.and_eq_true_iff.mp (List.mem_filter.mp hm).2).2 f hf
    simp only [Finding.clearOf, Bool.or_eq_true, decide_eq_true_eq] at hclear
    simp only [Splice.Disjoint, Finding.edit]
    omega

theorem apart_edits (h : NamedApart text) : Apart (edits scan text) :=
  apart_latestFirst (pairwise_findSecrets h)

theorem mem_edits {e : Edit Char} :
    e ∈ edits scan text ↔ ∃ f ∈ findSecrets scan text, f.edit = e := by
  rw [edits, mem_latestFirst, List.mem_map]

theorem within_edits (scan : Scan K) (text : List Char) : Within (edits scan text) text := by
  intro e he
  obtain ⟨f, hf, rfl⟩ := mem_edits.mp he
  rcases mem_findSecrets.mp hf with hnamed | ⟨m, hm, -, -, rfl⟩
  · obtain ⟨pat, -, m, hm, -, hstop⟩ := of_mem_namedFindings hnamed
    exact hstop.trans_le (stop_le_of_mem_finditer hm)
  · exact Nat.le_trans (tokenFinding_within text m).2 (stop_le_of_mem_finditer hm)

theorem redact_eq_run (scan : Scan K) (text : List Char) : redact scan text = run (edits scan text) text :=
  redact_eq scan text

/-! ## no named match -/

theorem secretPatterns_facts :
    ∀ pat ∈ secretPatterns, 0 < pat.pattern.minWidth ∧ pat.pattern.chars '[' = false ∧ pat.pattern.chars ']' = false ∧
      ∀ type ∈ [SecretType.apiKey, .token, .privateKey, .credential], pat.pattern.finditer (marker type) = [] := by
  decide +kernel

theorem finditer_marker (h : pat ∈ secretPatterns) (type : SecretType) : pat.pattern.finditer (marker type) = [] := by
  apply (secretPatterns_facts pat h).2.2.2
  cases type <;> simp

/-- No pattern matches inside a redacted text whose markers stand apart. -/
theorem not_matches_redact (h : NamedApart text) (hpat : pat ∈ secretPatterns) (hw : w <:+: redact scan text) :
    ¬ pat.pattern.Matches w := by
  intro hmatch
  obtain ⟨hwidth, hopen, hclose, -⟩ := secretPatterns_facts pat hpat
  obtain ⟨X, Y, hsplit⟩ := hw
  rw [redact_eq_run] at hsplit
  have hends : ∀ e ∈ edits scan text, ∃ l mid r, e.text = l :: mid ++ [r] ∧ l ∉ w ∧ r ∉ w := by
    intro e he
    obtain ⟨f, -, rfl⟩ := mem_edits.mp he
    refine ⟨'[', _, ']', rfl, ?_, ?_⟩
    · exact fun hmem => by simp [hmatch.chars _ hmem] at hopen
    · exact fun hmem => by simp [hmatch.chars _ hmem] at hclose
  rcases infix_text_or_clear (apart_edits h) (within_edits scan text) hends hsplit.symm with
    ⟨e, he, hinfix⟩ | ⟨x, y, htext, hclear⟩
  · obtain ⟨f, -, rfl⟩ := mem_edits.mp he
    exact (finditer_eq_nil_iff hwidth).mp (finditer_marker hpat f.secretType) w hinfix hmatch
  · -- the pattern finds a match there, and its finding is replaced
    have hpos := hmatch.minWidth_le
    have hmem : w.length ∈ pat.pattern.ends (text.drop x.length) := by
      rw [mem_ends, htext, List.append_assoc, List.drop_left, List.take_left]
      exact ⟨by simp, hmatch⟩
    obtain ⟨m, hm, hle, hlt⟩ := exists_mem_finditer hwidth hmem
    have hfinding : (⟨pat.patternId, pat.secretType, m.start, m.stop, Nat.le_of_lt m.lt⟩ : Finding) ∈
        findSecrets scan text :=
      mem_findSecrets.mpr (Or.inl (List.mem_flatMap.mpr ⟨pat, hpat, List.mem_map_of_mem hm⟩))
    have haway := hclear _ (mem_edits.mpr ⟨_, hfinding, rfl⟩)
    simp only [Finding.edit] at haway
    omega

/-! ## words -/

theorem exists_mem_of_isWord {text : List Char} (htext : text = x ++ w ++ y) (h : IsWord nonSpace x w y) :
    ∃ m ∈ (many nonSpace 1).finditer text,
      m.start = x.length ∧ m.stop = x.length + w.length ∧ token text m = stripStructural w := by
  have hpos := List.length_pos_iff.mpr h.ne_nil
  refine ⟨⟨x.length, x.length + w.length, by omega⟩, ?_, rfl, rfl, ?_⟩
  · exact mem_finditer_many_iff.mpr ⟨x, w, y, htext, h, rfl, rfl⟩
  · rw [token, rawToken, htext, List.append_assoc, List.drop_left, Nat.add_sub_cancel_left, List.take_left]

theorem exists_isWord_of_mem (h : m ∈ (many nonSpace 1).finditer text) :
    ∃ x w y, text = x ++ w ++ y ∧ IsWord nonSpace x w y ∧ m.start = x.length ∧ m.stop = x.length + w.length ∧
      rawToken text m = w := by
  obtain ⟨x, w, y, htext, hword, hstart, hstop⟩ := mem_finditer_many_iff.mp h
  refine ⟨x, w, y, htext, hword, hstart, hstop, ?_⟩
  rw [rawToken, htext, hstart, hstop, List.append_assoc, List.drop_left, Nat.add_sub_cancel_left, List.take_left]

theorem marker_nonSpace (type : SecretType) : marker type ≠ [] ∧ ∀ c ∈ marker type, nonSpace c = true := by
  cases type <;> simp [marker, SecretType.text, nonSpace, PyDecimal.isSpace]

theorem marks_edits (scan : Scan K) (text : List Char) : Marks nonSpace (edits scan text) := by
  intro e he
  obtain ⟨f, -, rfl⟩ := mem_edits.mp he
  exact marker_nonSpace f.secretType

/-! ## a text that is its own redaction -/

theorem stripStructural_spec (raw : List Char) :
    ∃ a b, raw = a ++ stripStructural raw ++ b ∧ a.length = raw.length - (raw.dropWhile isStructural).length ∧
      (∀ c ∈ a, isStructural c = true) ∧ (∀ c, (stripStructural raw).getLast? = some c → isStructural c = false) ∧
      (stripStructural raw = [] → b = []) := by
  have hsplit := List.takeWhile_append_dropWhile (p := isStructural) (l := raw)
  have hstrip := List.takeWhile_append_dropWhile (p := isStructural) (l := (raw.dropWhile isStructural).reverse)
  refine ⟨raw.takeWhile isStructural, ((raw.dropWhile isStructural).reverse.takeWhile isStructural).reverse,
    ?_, ?_, fun c hc => List.mem_takeWhile_imp hc, ?_, ?_⟩
  · rw [stripStructural, List.append_assoc, ← List.reverse_append, hstrip, List.reverse_reverse, hsplit]
  · have hlength := congrArg List.length hsplit
    rw [List.length_append] at hlength
    omega
  · intro c hc
    rw [stripStructural, List.getLast?_reverse] at hc
    have hnot := List.head?_dropWhile_not isStructural (raw.dropWhile isStructural).reverse
    rwa [hc] at hnot
  · intro hnil
    rw [stripStructural, List.reverse_eq_nil_iff, List.dropWhile_eq_nil_iff] at hnil
    -- all of what is left is structural, but its first character is not
    cases hdrop : raw.dropWhile isStructural with
    | nil => rfl
    | cons c cs =>
        have hnot := List.head?_dropWhile_not isStructural raw
        rw [hdrop] at hnot hnil
        have hc : isStructural c = false := hnot
        have hmem := hnil c (by simp)
        rw [hc] at hmem
        contradiction

theorem take_tokenFinding_ne (hm : m ∈ (many nonSpace 1).finditer text) (P : List Char) :
    text.take (tokenFinding text m).stop ≠ P ++ ['l', ']'] := by
  intro hend
  obtain ⟨x, w, y, htext, hword, hstart, -, hraw⟩ := exists_isWord_of_mem hm
  obtain ⟨a, b, hw, hlength, ha, hlast, hb⟩ := stripStructural_spec w
  have htake : text.take (tokenFinding text m).stop = x ++ a ++ stripStructural w := by
    have hstop : (tokenFinding text m).stop = (x ++ a ++ stripStructural w).length := by
      simp only [tokenFinding, tokenStart, token, hraw, hstart, List.length_append, hlength]
    have hparts : text = (x ++ a ++ stripStructural w) ++ (b ++ y) := by
      rw [htext]
      conv_lhs => rw [hw]
      simp only [List.append_assoc]
    rw [hstop]
    conv_lhs => rw [hparts]
    exact List.take_left
  rw [htake] at hend
  rcases List.eq_nil_or_concat (stripStructural w) with hnil | ⟨t, c, hc⟩
  · rw [hnil, List.append_nil] at hend
    rw [hnil, hb hnil, List.append_nil, List.append_nil] at hw
    subst hw
    rcases List.eq_nil_or_concat w with rfl | ⟨w, d, rfl⟩
    · exact hword.ne_nil rfl
    · rw [List.concat_eq_append, ← List.append_assoc, List.append_cons P] at hend
      obtain ⟨hend, -⟩ := List.append_inj' hend rfl
      rcases List.eq_nil_or_concat w with rfl | ⟨w, d', rfl⟩
      · rw [List.append_nil] at hend
        have hleft := hword.left 'l' (by rw [hend, List.getLast?_concat])
        simp [nonSpace, PyDecimal.isSpace] at hleft
      · rw [List.concat_eq_append, ← List.append_assoc] at hend
        obtain ⟨-, hd'⟩ := List.append_inj' hend rfl
        have hstructural := ha d' (by simp)
        rw [List.singleton_inj.mp hd'] at hstructural
        simp [isStructural] at hstructural
  · have hstructural := hlast c (by rw [hc, List.concat_eq_append, List.getLast?_concat])
    rw [hc, List.concat_eq_append, ← List.append_assoc, List.append_cons P] at hend
    obtain ⟨-, hclose⟩ := List.append_inj' hend rfl
    rw [List.singleton_inj.mp hclose] at hstructural
    simp [isStructural] at hstructural

theorem findSecrets_eq_nil (hnamed : namedFindings text = [])
    (h : redact scan text = text) : findSecrets scan text = [] := by
  by_contra hne
  have happart : Apart (edits scan text) := apart_edits (by rw [NamedApart, hnamed]; exact List.Pairwise.nil)
  obtain ⟨e, rest, hedits⟩ : ∃ e rest, edits scan text = e :: rest := by
    apply List.exists_cons_of_ne_nil
    obtain ⟨f, hf⟩ := List.exists_mem_of_ne_nil _ hne
    exact List.ne_nil_of_mem (mem_edits.mpr ⟨f, hf, rfl⟩)
  have he : e ∈ edits scan text := hedits ▸ List.mem_cons_self
  have hstop := within_edits scan text e he
  rw [redact_eq_run, hedits] at h
  rw [hedits] at happart
  rw [happart.run_cons hstop] at h
  conv_rhs at h => rw [← List.take_append_drop e.stop text]
  have hend := List.append_cancel_right h
  obtain ⟨f, hf, rfl⟩ := mem_edits.mp he
  rw [mem_findSecrets, hnamed] at hf
  obtain ⟨m, hm, -, -, rfl⟩ := hf.resolve_left (by simp)
  apply take_tokenFinding_ne hm
    (run rest (text.take (tokenFinding text m).start) ++ ['[', 'R', 'E', 'D', 'A', 'C', 'T', 'E', 'D', ':', 'c', 'r', 'e', 'd',
      'e', 'n', 't', 'i', 'a'])
  rw [List.append_assoc]
  exact hend.symm

/-! ## stability -/

theorem findSecrets_eq_nil_of_words (hnamed : namedFindings text = [])
    (h : ∀ x w y, text = x ++ w ++ y → IsWord nonSpace x w y → scan.flags (stripStructural w) = false) :
    findSecrets scan text = [] := by
  rw [List.eq_nil_iff_forall_not_mem]
  intro f hf
  rw [mem_findSecrets, hnamed] at hf
  obtain ⟨m, hm, hflags, -, -⟩ := hf.resolve_left (by simp)
  obtain ⟨x, w, y, htext, hword, -, -, hraw⟩ := exists_isWord_of_mem hm
  rw [token, hraw, h x w y htext hword] at hflags
  contradiction

theorem flags_of_findSecrets_eq_nil {text : List Char} (h : findSecrets scan text = []) (htext : text = x ++ w ++ y)
    (hword : IsWord nonSpace x w y) : scan.flags (stripStructural w) = false := by
  obtain ⟨m, hm, -, -, htoken⟩ := exists_mem_of_isWord htext hword
  by_contra hflags
  rw [Bool.not_eq_false, ← htoken] at hflags
  have hnamed : namedFindings text = [] := by
    rw [findSecrets_eq, List.append_eq_nil_iff] at h
    exact h.1
  have hfound : tokenFinding text m ∈ findSecrets scan text :=
    mem_findSecrets.mpr (Or.inr ⟨m, hm, hflags, by simp [hnamed], rfl⟩)
  rw [h] at hfound
  contradiction

theorem namedFindings_eq_nil
    (h : ∀ pat ∈ secretPatterns, ∀ w, w <:+: text → ¬ pat.pattern.Matches w) : namedFindings text = [] := by
  rw [namedFindings, List.flatMap_eq_nil_iff]
  intro pat hpat
  rw [SecretPattern.findings, List.map_eq_nil_iff]
  exact (finditer_eq_nil_iff (secretPatterns_facts pat hpat).1).mpr (h pat hpat)

theorem flags_of_clear {text : List Char} (htext : text = x ++ w ++ y) (hword : IsWord nonSpace x w y)
    (hclear : ∀ e ∈ edits scan text, x.length + w.length < e.start ∨ e.stop < x.length) :
    scan.flags (stripStructural w) = false := by
  obtain ⟨m, hm, hstart, hstop, htoken⟩ := exists_mem_of_isWord htext hword
  have hwithin := tokenFinding_within text m
  have hle := (tokenFinding text m).le
  have haway : ∀ f ∈ findSecrets scan text, x.length + w.length < f.start ∨ f.stop < x.length :=
    fun f hf => hclear _ (mem_edits.mpr ⟨f, hf, rfl⟩)
  by_contra hflags
  rw [Bool.not_eq_false, ← htoken] at hflags
  have hfound : tokenFinding text m ∈ findSecrets scan text := by
    refine mem_findSecrets.mpr (Or.inr ⟨m, hm, hflags, ?_, rfl⟩)
    intro g hg
    have hg := haway g (mem_findSecrets.mpr (Or.inl hg))
    simp only [Finding.clearOf, Bool.or_eq_true, decide_eq_true_eq]
    omega
  have hself := haway _ hfound
  omega

/-- When the named matches are apart, redaction is stable exactly when the markers make no word
that is flagged. -/
theorem stable_iff (scan : Scan K) (text : List Char) (h : NamedApart text) :
    Stable scan text ↔ JoinsQuiet scan text := by
  have happart : Apart (edits scan text) := apart_edits h
  have hwithin := within_edits scan text
  have hmarks := marks_edits scan text
  have hnamed : namedFindings (redact scan text) = [] :=
    namedFindings_eq_nil fun pat hpat w hw => not_matches_redact h hpat hw
  constructor
  · rintro ⟨hfixed, -⟩ x w y hsplit hword -
    obtain ⟨hrun, hflat⟩ := isWord_run happart hwithin hmarks hsplit hword
    rw [← redact_eq_run] at hrun
    exact flags_of_findSecrets_eq_nil (findSecrets_eq_nil hnamed hfixed) hrun hflat
  · intro hquiet
    have hnil : findSecrets scan (redact scan text) = [] := by
      apply findSecrets_eq_nil_of_words hnamed
      intro X W Y hsplit hword
      rw [redact_eq_run] at hsplit
      rcases word_of_run happart hwithin hmarks hsplit hword with
        ⟨x, w, y, hsymbols, hw, rfl, hmark⟩ | ⟨x, y, htext, hw, hclear⟩
      · exact hquiet x w y hsymbols hw hmark
      · exact flags_of_clear htext hw hclear
    refine ⟨?_, fun pat hpat w hw => not_matches_redact h hpat hw⟩
    rw [redact, if_pos hnil]

/-- The settings as they are when nothing is configured. -/
noncomputable def defaultScan : Scan ℝ := ⟨20, 4.5, shannonEntropy⟩

/-- A key. -/
def keyText : List Char := ['s', 'k', '-'] ++ List.replicate 20 'A'

def twoKeys : List Char := keyText ++ ' ' :: keyText

theorem eq_singleton_of_not_mem {α : Type} {a b : α} {x w y : List α} (h : [a, b, a] = x ++ w ++ y) (hne : w ≠ [])
    (hb : b ∉ w) : w = [a] := by
  rw [List.append_assoc] at h
  simp only [List.cons_eq_append_iff, List.nil_eq_append_iff, List.append_eq_cons_iff, List.append_eq_nil_iff] at h
  aesop

/-- The words of the redacted text are a marker each. -/
theorem stable_keyText : Stable defaultScan twoKeys := by
  have hsymbols : symbols (edits defaultScan twoKeys) twoKeys =
      [Sum.inr (marker .apiKey), Sum.inl ' ', Sum.inr (marker .apiKey)] := by decide +kernel
  refine (stable_iff defaultScan twoKeys (by decide +kernel)).mpr ?_
  intro x w y hsplit hword _
  rw [hsymbols] at hsplit
  obtain rfl := eq_singleton_of_not_mem hsplit hword.ne_nil fun h => absurd (hword.all _ h) (by decide)
  decide +kernel

/-- A key with fifteen more characters before it. -/
def joinedText : List Char :=
  ['0', '1', '2', '3', '4', '5', '6', '7', '8', '9', 'b', 'c', 'f', 'g', 'h'] ++ keyText

/-- The token of the redacted text: thirty characters, two of them twice. -/
def joinedToken : List Char :=
  ['0', '1', '2', '3', '4', '5', '6', '7', '8', '9', 'b', 'c', 'f', 'g', 'h', '[', 'R', 'E', 'D', 'A', 'C', 'T', 'E', 'D',
    ':', 'a', 'p', 'i', '_', 'k', 'e', 'y']

theorem shannonEntropy_joinedToken : shannonEntropy joinedToken = 39 / 8 := by
  have hcounts : joinedToken.dedup.map (fun ch => joinedToken.count ch) =
      List.replicate 20 1 ++ [2, 2] ++ List.replicate 8 1 := by decide +kernel
  have hcast : joinedToken.dedup.map (fun ch => (joinedToken.count ch : ℝ)) =
      List.replicate 20 1 ++ [2, 2] ++ List.replicate 8 1 := by
    simpa only [List.map_map, List.map_append, List.map_replicate, List.map_cons, List.map_nil, Nat.cast_one,
      Nat.cast_ofNat, Function.comp_def] using congrArg (List.map (Nat.cast : ℕ → ℝ)) hcounts
  have hlength : (joinedToken.length : ℝ) = 2 ^ 5 := by
    rw [show joinedToken.length = 32 by decide]
    norm_num
  have hone : Real.logb 2 (1 / 2 ^ 5) = -5 := by
    rw [one_div, Real.logb_inv, Real.logb_pow, Real.logb_self_eq_one one_lt_two]
    norm_num
  have htwo : Real.logb 2 (2 / 2 ^ 5) = -4 := by
    rw [show (2 : ℝ) / 2 ^ 5 = (2 ^ 4)⁻¹ by norm_num, Real.logb_inv, Real.logb_pow, Real.logb_self_eq_one one_lt_two]
    norm_num
  rw [shannonEntropy, hcast, hlength]
  simp only [List.map_append, List.map_replicate, List.map_cons, List.map_nil, List.sum_append, List.sum_replicate,
    List.sum_cons, List.sum_nil, hone, htwo]
  norm_num

/-- The pass that redacts the key skips the token, since the key is in it; of the redacted text it
replaces the token with the marker in it. -/
theorem joinedText_not_stable : ¬ Stable defaultScan joinedText := by
  rintro ⟨hfixed, -⟩
  have hredact : redact defaultScan joinedText = joinedToken ++ [']'] := by decide +kernel
  rw [hredact] at hfixed
  have hnil := findSecrets_eq_nil (by decide +kernel) hfixed
  have hword : IsWord nonSpace [] (joinedToken ++ [']']) [] :=
    ⟨by decide, by simp [joinedToken, nonSpace, PyDecimal.isSpace], by simp, by simp⟩
  have hflags := flags_of_findSecrets_eq_nil hnil (by simp) hword
  have hstrip : stripStructural (joinedToken ++ [']']) = joinedToken := by decide +kernel
  have hlisted : isAllowlisted joinedToken = false := by decide +kernel
  have hlength : joinedToken.length = 32 := by decide
  rw [hstrip, Scan.flags, hlisted, hlength] at hflags
  simp only [defaultScan, shannonEntropy_joinedToken] at hflags
  norm_num at hflags

end Anoryx.Sentinel.RedactionStable
