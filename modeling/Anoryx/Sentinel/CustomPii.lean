import Anoryx.Sentinel.PiiMasking
import Mathlib.Data.List.Pairwise
import Mathlib.Data.Set.Basic

/-!
# Anoryx.Sentinel.CustomPii

The custom PII patterns of a tenant (`data_protection/custom_pii`): `scan`, `merge_spans`,
`apply_masks` and the hook.

`merge_spans` sweeps the sorted spans and joins each to the merge before it when they overlap.
What it computes depends on the set of spans alone (`isMerge_mergeSpans`): the merges are the
classes of spans that overlap in a chain, and each carries the label of the first span among those
of maximal score.  That determines the result (`IsMerge.unique`), unless spans tie in start, end
and score and differ in label: then the order of the list decides.
-/

namespace Anoryx.Sentinel.CustomPii

open Splice PiiMasking

/-- `CustomPiiSpan`; `scan` ignores matches of no width. -/
@[ext] structure CustomPiiSpan where
  start : Nat
  stop : Nat
  name : List Char
  score : ℚ
  action : Option Action
  lt : start < stop

instance : DecidableEq CustomPiiSpan := fun _ _ => decidable_of_iff _ CustomPiiSpan.ext_iff.symm

namespace CustomPiiSpan

/-- `key=lambda s: (s.start, s.end)` -/
def keyLe (s t : CustomPiiSpan) : Prop := s.start < t.start ∨ s.start = t.start ∧ s.stop ≤ t.stop

instance (s t : CustomPiiSpan) : Decidable (keyLe s t) := inferInstanceAs (Decidable (_ ∨ _))

theorem keyLe_refl (s : CustomPiiSpan) : keyLe s s := Or.inr ⟨rfl, Nat.le_refl _⟩

theorem keyLe_trans {s t u : CustomPiiSpan} (h : keyLe s t) (h' : keyLe t u) : keyLe s u := by
  unfold keyLe at *
  omega

theorem keyLe_total (s t : CustomPiiSpan) : keyLe s t ∨ keyLe t s := by
  unfold keyLe
  omega

theorem start_le_of_keyLe {s t : CustomPiiSpan} (h : keyLe s t) : s.start ≤ t.start := by
  unfold keyLe at h
  omega

def covers (s : CustomPiiSpan) (p : Nat) : Bool := decide (s.start ≤ p) && decide (p < s.stop)

/-- The span lies in another. -/
def Within (s m : CustomPiiSpan) : Prop := m.start ≤ s.start ∧ s.stop ≤ m.stop

/-- What a merge takes from the span that wins. -/
def label (s : CustomPiiSpan) : List Char × ℚ × Option Action := (s.name, s.score, s.action)

end CustomPiiSpan

open CustomPiiSpan

/-! ## merging -/

/-- Two spans that overlap as one; of equal scores, the first wins. -/
def join (cur nxt : CustomPiiSpan) : CustomPiiSpan :=
  let winner := if nxt.score ≤ cur.score then cur else nxt
  { start := cur.start
    stop := max cur.stop nxt.stop
    name := winner.name
    score := winner.score
    action := winner.action
    lt := Nat.lt_of_lt_of_le cur.lt (Nat.le_max_left ..) }

/-- The loop of `merge_spans` -/
def sweep (cur : CustomPiiSpan) : List CustomPiiSpan → List CustomPiiSpan
  | [] => [cur]
  | nxt :: rest => if nxt.start < cur.stop then sweep (join cur nxt) rest else cur :: sweep nxt rest

/-- `sorted(spans, key=lambda s: (s.start, s.end))` -/
def ordered (spans : List CustomPiiSpan) : List CustomPiiSpan := spans.insertionSort keyLe

def mergeSpans (spans : List CustomPiiSpan) : List CustomPiiSpan :=
  match ordered spans with
  | [] => []
  | cur :: rest => sweep cur rest

/-- `m` is the merge of the spans of `C`: they cover it in a chain of overlaps, and its label is
that of the first of maximal score. -/
structure Gathers (C : Set CustomPiiSpan) (m : CustomPiiSpan) : Prop where
  within : ∀ s ∈ C, s.Within m
  first : ∃ s ∈ C, s.start = m.start
  chain : ∀ c, m.start < c → c < m.stop → ∃ s ∈ C, s.start < c ∧ c < s.stop
  winner : ∃ s ∈ C, s.label = m.label ∧ (∀ t ∈ C, t.score ≤ m.score) ∧
    ∀ t ∈ C, t.score = m.score → keyLe s t

/-- `out` is what merging the spans of a set comes to. -/
structure IsMerge (spans : Set CustomPiiSpan) (out : List CustomPiiSpan) : Prop where
  apart : out.Pairwise fun m m' => m.stop ≤ m'.start
  within : ∀ s ∈ spans, ∃ m ∈ out, s.Within m
  gathers : ∀ m ∈ out, Gathers {s | s ∈ spans ∧ s.Within m} m

theorem gathers_singleton (s : CustomPiiSpan) : Gathers {s} s := by
  constructor
  case within => simp [Within]
  case first => exact ⟨s, rfl, rfl⟩
  case chain => exact fun c hlow hhigh => ⟨s, rfl, hlow, hhigh⟩
  case winner => exact ⟨s, rfl, rfl, by simp, by simp [keyLe_refl]⟩

variable {C : Set CustomPiiSpan}

theorem Gathers.join {cur nxt : CustomPiiSpan} (h : Gathers C cur)
    (hafter : ∀ s ∈ C, keyLe s nxt) (hoverlap : nxt.start < cur.stop) : Gathers (C ∪ {nxt}) (join cur nxt) := by
  obtain ⟨s₀, hs₀, hstart⟩ := h.first
  have hle : cur.start ≤ nxt.start := hstart ▸ start_le_of_keyLe (hafter s₀ hs₀)
  obtain ⟨w, hw, hlabel, hmax, hfirst⟩ := h.winner
  constructor
  case within =>
    intro s hs
    rcases hs with hs | rfl
    · exact ⟨(h.within s hs).1, Nat.le_trans (h.within s hs).2 (Nat.le_max_left ..)⟩
    · exact ⟨hle, Nat.le_max_right ..⟩
  case first => exact ⟨s₀, Or.inl hs₀, hstart⟩
  case chain =>
    intro c hlow hhigh
    rcases Nat.lt_or_ge c cur.stop with hlt | hge
    · obtain ⟨s, hs, hc⟩ := h.chain c hlow hlt
      exact ⟨s, Or.inl hs, hc⟩
    · refine ⟨nxt, Or.inr rfl, Nat.lt_of_lt_of_le hoverlap hge, ?_⟩
      exact (lt_max_iff.mp hhigh).resolve_left (Nat.not_lt.mpr hge)
  case winner =>
    by_cases hscore : nxt.score ≤ cur.score
    · refine ⟨w, Or.inl hw, by simpa [CustomPii.join, hscore, label] using hlabel, ?_, ?_⟩
      · rintro t (ht | rfl)
        · simpa [CustomPii.join, hscore] using hmax t ht
        · simp [CustomPii.join, hscore]
      · rintro t (ht | rfl) heq
        · exact hfirst t ht (by simpa [CustomPii.join, hscore] using heq)
        · exact hafter w hw
    · refine ⟨nxt, Or.inr rfl, by simp [CustomPii.join, hscore, label], ?_, ?_⟩
      · rintro t (ht | rfl)
        · simpa [CustomPii.join, hscore] using le_trans (hmax t ht) (le_of_not_ge hscore)
        · simp [CustomPii.join, hscore]
      · rintro t (ht | rfl) heq
        · have hlt : t.score < nxt.score := lt_of_le_of_lt (hmax t ht) (not_le.mp hscore)
          simp only [CustomPii.join, hscore, if_false] at heq
          exact absurd heq (ne_of_lt hlt)
        · exact keyLe_refl _

variable {out : List CustomPiiSpan} {cur : CustomPiiSpan}

theorem IsMerge.cons {C rest : Set CustomPiiSpan}
    (hcur : Gathers C cur) (h : IsMerge rest out) (hafter : ∀ s ∈ rest, cur.stop ≤ s.start) :
    IsMerge (C ∪ rest) (cur :: out) := by
  have hout : ∀ m ∈ out, cur.stop ≤ m.start := by
    intro m hm
    obtain ⟨s, hs, hstart⟩ := (h.gathers m hm).first
    exact hstart ▸ hafter s hs.1
  constructor
  case apart => exact List.pairwise_cons.mpr ⟨hout, h.apart⟩
  case within =>
    rintro s (hs | hs)
    · exact ⟨cur, List.mem_cons_self, hcur.within s hs⟩
    · obtain ⟨m, hm, hwithin⟩ := h.within s hs
      exact ⟨m, List.mem_cons_of_mem _ hm, hwithin⟩
  case gathers =>
    intro m hm
    rcases List.mem_cons.mp hm with rfl | hm
    · have hC : {s | s ∈ C ∪ rest ∧ s.Within m} = C := by
        ext s
        constructor
        · rintro ⟨hs | hs, hwithin⟩
          · exact hs
          · have hlt := s.lt
            have hle := hafter s hs
            have hstop := hwithin.2
            omega
        · exact fun hs => ⟨Or.inl hs, hcur.within s hs⟩
      rw [hC]
      exact hcur
    · have hrest : {s | s ∈ C ∪ rest ∧ s.Within m} = {s | s ∈ rest ∧ s.Within m} := by
        ext s
        constructor
        · rintro ⟨hs | hs, hwithin⟩
          · have hlt := s.lt
            have hle := hout m hm
            have hstop := (hcur.within s hs).2
            have hstart := hwithin.1
            omega
          · exact ⟨hs, hwithin⟩
        · exact fun hs => ⟨Or.inr hs.1, hs.2⟩
      rw [hrest]
      exact h.gathers m hm

theorem isMerge_singleton (h : Gathers C cur) : IsMerge C [cur] := by
  have hempty : IsMerge ∅ [] := by constructor <;> simp
  simpa using IsMerge.cons h hempty (by simp)

theorem isMerge_sweep {rest : List CustomPiiSpan}
    (h : Gathers C cur) (hafter : ∀ s ∈ C, ∀ t ∈ rest, keyLe s t) (hsorted : rest.Pairwise keyLe) :
    IsMerge (C ∪ {s | s ∈ rest}) (sweep cur rest) := by
  induction rest generalizing C cur with
  | nil => simpa [sweep] using isMerge_singleton h
  | cons nxt rest ih =>
      obtain ⟨hhead, htail⟩ := List.pairwise_cons.mp hsorted
      have hcons : {s | s ∈ nxt :: rest} = {nxt} ∪ {s | s ∈ rest} := by
        ext s
        simp
      rw [sweep, hcons]
      split
      case isTrue hoverlap =>
        have hjoin := h.join (fun s hs => hafter s hs nxt List.mem_cons_self) hoverlap
        rw [← Set.union_assoc]
        apply ih hjoin _ htail
        rintro s (hs | rfl) t ht
        · exact hafter s hs t (List.mem_cons_of_mem _ ht)
        · exact hhead t ht
      case isFalse hnot =>
        apply IsMerge.cons h (ih (gathers_singleton nxt) (by simpa using hhead) htail)
        rintro s (rfl | hs)
        · exact Nat.not_lt.mp hnot
        · exact Nat.le_trans (Nat.not_lt.mp hnot) (start_le_of_keyLe (hhead s hs))

theorem pairwise_ordered (spans : List CustomPiiSpan) : (ordered spans).Pairwise keyLe := by
  have htotal : Std.Total keyLe := ⟨keyLe_total⟩
  have htrans : IsTrans CustomPiiSpan keyLe := ⟨fun _ _ _ => keyLe_trans⟩
  exact List.pairwise_insertionSort _ _

theorem isMerge_mergeSpans (spans : List CustomPiiSpan) : IsMerge {s | s ∈ spans} (mergeSpans spans) := by
  have hmem : ∀ s, s ∈ ordered spans ↔ s ∈ spans := fun s => List.mem_insertionSort _
  have hpairwise := pairwise_ordered spans
  rw [mergeSpans]
  simp only [← hmem]
  cases hordered : ordered spans with
  | nil => constructor <;> simp
  | cons cur rest =>
      rw [hordered] at hpairwise
      obtain ⟨hhead, htail⟩ := List.pairwise_cons.mp hpairwise
      have hsweep := isMerge_sweep (gathers_singleton cur) (by simpa using hhead) htail
      have hcons : {s | s ∈ cur :: rest} = {cur} ∪ {s | s ∈ rest} := by
        ext s
        simp
      rwa [hcons]

variable {m : CustomPiiSpan}

theorem Gathers.exists_covers (h : Gathers C m) {p : Nat}
    (hp : m.covers p = true) : ∃ s ∈ C, s.covers p = true := by
  simp only [CustomPiiSpan.covers, Bool.and_eq_true, decide_eq_true_eq] at *
  rcases Nat.eq_or_lt_of_le hp.1 with rfl | hlt
  · obtain ⟨s, hs, hstart⟩ := h.first
    exact ⟨s, hs, Nat.le_of_eq hstart, hstart ▸ s.lt⟩
  · obtain ⟨s, hs, hlow, hhigh⟩ := h.chain p hlt hp.2
    exact ⟨s, hs, Nat.le_of_lt hlow, hhigh⟩

variable {spans : Set CustomPiiSpan}

theorem IsMerge.covers_iff (h : IsMerge spans out) (p : Nat) :
    (∃ m ∈ out, m.covers p = true) ↔ ∃ s ∈ spans, s.covers p = true := by
  constructor
  · rintro ⟨m, hm, hp⟩
    obtain ⟨s, hs, hcovers⟩ := (h.gathers m hm).exists_covers hp
    exact ⟨s, hs.1, hcovers⟩
  · rintro ⟨s, hs, hp⟩
    obtain ⟨m, hm, hwithin⟩ := h.within s hs
    refine ⟨m, hm, ?_⟩
    simp only [CustomPiiSpan.covers, Within, Bool.and_eq_true, decide_eq_true_eq] at *
    omega

/-! ## order of the spans -/

theorem IsMerge.apart_or_eq (h : IsMerge spans out)
    {m m' : CustomPiiSpan} (hm : m ∈ out) (hm' : m' ∈ out) : m = m' ∨ m.stop ≤ m'.start ∨ m'.stop ≤ m.start := by
  have hsymm : Std.Symm fun m m' : CustomPiiSpan => m.stop ≤ m'.start ∨ m'.stop ≤ m.start := ⟨fun _ _ => Or.symm⟩
  have hapart : out.Pairwise fun m m' => m.stop ≤ m'.start ∨ m'.stop ≤ m.start := h.apart.imp Or.inl
  by_cases heq : m = m'
  · exact Or.inl heq
  · exact Or.inr (hapart.forall hm hm' heq)

theorem IsMerge.within_or_apart (h : IsMerge spans out)
    {m s : CustomPiiSpan} (hm : m ∈ out) (hs : s ∈ spans) : s.Within m ∨ s.stop ≤ m.start ∨ m.stop ≤ s.start := by
  obtain ⟨m', hm', hwithin⟩ := h.within s hs
  obtain rfl | hle | hle := h.apart_or_eq hm hm'
  · exact Or.inl hwithin
  · exact Or.inr (Or.inr (Nat.le_trans hle hwithin.1))
  · exact Or.inr (Or.inl (Nat.le_trans hwithin.2 hle))

theorem IsMerge.exists_over (h : IsMerge spans out)
    (hm : m ∈ out) {c : Nat} (hlow : m.start < c) (hhigh : c < m.stop) :
    ∃ s ∈ spans, s.start < c ∧ c < s.stop := by
  obtain ⟨s, hs, hc⟩ := (h.gathers m hm).chain c hlow hhigh
  exact ⟨s, hs.1, hc⟩

theorem IsMerge.same_ends {out out' : List CustomPiiSpan} (h : IsMerge spans out)
    (h' : IsMerge spans out') (hm : m ∈ out) :
    ∃ m' ∈ out', m'.start = m.start ∧ m'.stop = m.stop := by
  obtain ⟨s, ⟨hs, hsm⟩, hstart⟩ := (h.gathers m hm).first
  obtain ⟨m', hm', hwithin⟩ := h'.within s hs
  have hlt := s.lt
  -- No span reaches over an end of either merge, so none of the ends is inside the other merge.
  have houter : ∀ {c}, (c = m.start ∨ c = m.stop) → ¬(m'.start < c ∧ c < m'.stop) := by
    rintro c hc ⟨hlow, hhigh⟩
    obtain ⟨t, ht, htlow, hthigh⟩ := h'.exists_over hm' hlow hhigh
    have ht' := h.within_or_apart hm ht
    have hlt' := m.lt
    simp only [Within] at *
    omega
  have hinner : ¬(m.start < m'.stop ∧ m'.stop < m.stop) := by
    rintro ⟨hlow, hhigh⟩
    obtain ⟨t, ht, htlow, hthigh⟩ := h.exists_over hm hlow hhigh
    have ht' := h'.within_or_apart hm' ht
    simp only [Within] at *
    omega
  have hstart' := houter (Or.inl rfl)
  have hstop' := houter (Or.inr rfl)
  simp only [Within] at *
  exact ⟨m', hm', by omega, by omega⟩

/-- Spans that tie in start, end and score are labelled alike. -/
def TiesAgree (spans : Set CustomPiiSpan) : Prop :=
  ∀ s ∈ spans, ∀ t ∈ spans, s.start = t.start → s.stop = t.stop → s.score = t.score → s.label = t.label

theorem Gathers.unique {m m' : CustomPiiSpan} (h : Gathers C m) (h' : Gathers C m') :
    m.score = m'.score ∧ (TiesAgree C → m.label = m'.label) := by
  obtain ⟨w, hw, hlabel, hmax, hfirst⟩ := h.winner
  obtain ⟨w', hw', hlabel', hmax', hfirst'⟩ := h'.winner
  have hscore : w.score = m.score := congrArg (fun l => l.2.1) hlabel
  have hscore' : w'.score = m'.score := congrArg (fun l => l.2.1) hlabel'
  have heq : m.score = m'.score := le_antisymm (hscore ▸ hmax' w hw) (hscore' ▸ hmax w' hw')
  constructor
  · exact heq
  · intro hties
    have hle := hfirst w' hw' (hscore'.trans heq.symm)
    have hle' := hfirst' w hw (hscore.trans heq)
    unfold keyLe at hle hle'
    rw [← hlabel, ← hlabel']
    exact hties w hw w' hw' (by omega) (by omega) (hscore.trans (heq.trans hscore'.symm))

theorem eq_of_ascending {β : Type} {f : β → Nat} {xs ys : List β} (hxs : xs.Pairwise fun a b => f a < f b)
    (hys : ys.Pairwise fun a b => f a < f b) (h : xs ⊆ ys) (h' : ys ⊆ xs) : xs = ys := by
  have hantisymm : Std.Antisymm fun a b => f a < f b :=
    ⟨fun a b hab hba => absurd hab (Nat.lt_asymm hba)⟩
  have hirrefl : Std.Irrefl fun a b => f a < f b := ⟨fun a => Nat.lt_irrefl _⟩
  exact List.Subset.antisymm_of_pairwise hxs hys h h'

theorem IsMerge.ascending (h : IsMerge spans out) :
    out.Pairwise fun m m' => m.start < m'.start :=
  h.apart.imp fun {m _} hle => Nat.lt_of_lt_of_le m.lt hle

/-- Where the merges are, and their scores. -/
def shape (m : CustomPiiSpan) : Nat × Nat × ℚ := (m.start, m.stop, m.score)

theorem IsMerge.exists_same {out out' : List CustomPiiSpan} (h : IsMerge spans out)
    (h' : IsMerge spans out') (hm : m ∈ out) :
    ∃ m' ∈ out', shape m' = shape m ∧ (TiesAgree spans → m' = m) := by
  obtain ⟨m', hm', hstart, hstop⟩ := h.same_ends h' hm
  have hsame : {s | s ∈ spans ∧ s.Within m'} = {s | s ∈ spans ∧ s.Within m} := by
    simp only [Within, hstart, hstop]
  obtain ⟨hscore, hlabel⟩ := (hsame ▸ h'.gathers m' hm').unique (h.gathers m hm)
  refine ⟨m', hm', by simp [shape, hstart, hstop, hscore], ?_⟩
  intro hties
  have heq := hlabel fun s hs t ht => hties s hs.1 t ht.1
  cases m
  cases m'
  simp_all [label]

theorem IsMerge.unique {out out' : List CustomPiiSpan} (h : IsMerge spans out)
    (h' : IsMerge spans out') : out.map shape = out'.map shape ∧ (TiesAgree spans → out = out') := by
  constructor
  · apply eq_of_ascending (f := Prod.fst)
    · exact List.pairwise_map.mpr h.ascending
    · exact List.pairwise_map.mpr h'.ascending
    · rintro _ hx
      obtain ⟨m, hm, rfl⟩ := List.mem_map.mp hx
      obtain ⟨m', hm', hshape, -⟩ := h.exists_same h' hm
      exact List.mem_map.mpr ⟨m', hm', hshape⟩
    · rintro _ hx
      obtain ⟨m, hm, rfl⟩ := List.mem_map.mp hx
      obtain ⟨m', hm', hshape, -⟩ := h'.exists_same h hm
      exact List.mem_map.mpr ⟨m', hm', hshape⟩
  · intro hties
    apply eq_of_ascending h.ascending h'.ascending
    · intro m hm
      obtain ⟨m', hm', -, heq⟩ := h.exists_same h' hm
      exact heq hties ▸ hm'
    · intro m hm
      obtain ⟨m', hm', -, heq⟩ := h'.exists_same h hm
      exact heq hties ▸ hm'

/-! ## masking -/

def CustomPiiSpan.edit (action : Action) (s : CustomPiiSpan) : Edit Char :=
  ⟨s.start, s.stop, Nat.le_of_lt s.lt, mark action s.name s.start s.stop⟩

/-- The replacements of `apply_masks`, in the order they are made. -/
def maskEdits (spans : List CustomPiiSpan) (action : Action) : List (Edit Char) :=
  latestFirst ((mergeSpans spans).map (·.edit action))

def applyMasks (text : List Char) (spans : List CustomPiiSpan) (action : Action) : List Char :=
  if action = .block then text else run (maskEdits spans action) text

theorem disjoint_edits (spans : List CustomPiiSpan) (action : Action) :
    ((mergeSpans spans).map (·.edit action)).Pairwise Disjoint := by
  rw [List.pairwise_map]
  apply (isMerge_mergeSpans spans).apart.imp
  intro m m' hle
  exact Or.inr ⟨hle, Nat.lt_of_lt_of_le m.lt hle⟩

theorem kept_maskEdits (spans : List CustomPiiSpan) (action : Action) (n : Nat) :
    kept (maskEdits spans action) n = (List.range n).filter fun p => !spans.any (·.covers p) := by
  have hexact := exact_of_disjoint (disjoint_edits spans action) n
  rw [Exact] at hexact
  rw [maskEdits, hexact]
  congr 1
  funext p
  have hcovers := (isMerge_mergeSpans spans).covers_iff p
  have hcovered : covered ((mergeSpans spans).map (·.edit action)) p = (mergeSpans spans).any (·.covers p) := by
    simp only [covered, List.any_map]
    rfl
  rw [hcovered, Bool.eq_iff_iff]
  simpa using not_congr hcovers

/-! ## the hook -/

/-- `CompiledPattern`; what it matches is the regex engine's to say. -/
structure CompiledPattern where
  name : List Char
  compiled : List Char
  score : ℚ
  action : Option Action

/-- The matches that `finditer` yields, and whether it raised after them. -/
structure Finditer where
  found : List (Nat × Nat)
  raised : Bool

/-- A span of `scan`, unless the match has no width. -/
def CompiledPattern.span (pat : CompiledPattern) (found : Nat × Nat) : Option CustomPiiSpan :=
  if h : found.1 < found.2 then some ⟨found.1, found.2, pat.name, pat.score, pat.action, h⟩ else none

/-- `scan`: the spans, and the names of the patterns that timed out. -/
def scan (finditer : List Char → List Char → Finditer) (text : List Char) (patterns : List CompiledPattern) :
    List CustomPiiSpan × List (List Char) :=
  (patterns.flatMap fun pat => (finditer pat.compiled text).found.filterMap pat.span,
    (patterns.filter fun pat => (finditer pat.compiled text).raised).map (·.name))

/-- `CustomPiiSettings`, what the hook reads. -/
structure CustomPiiSettings where
  customPiiAction : Action
  customPiiMaxInspectChars : Nat

/-- The action of a span: the one its pattern names, else the default. -/
def effectiveAction (settings : CustomPiiSettings) (s : CustomPiiSpan) : Action :=
  s.action.getD settings.customPiiAction

/-- `max(spans, key=lambda s: s.score)`, the first of them -/
def primary (first : CustomPiiSpan) (spans : List CustomPiiSpan) : CustomPiiSpan :=
  spans.foldl (fun best s => if best.score < s.score then s else best) first

/-- The spans that the hook matches; none when the patterns do not load. -/
def matched (settings : CustomPiiSettings) (finditer : List Char → List Char → Finditer)
    (load : Option (List CompiledPattern)) (content : List Char) : List CustomPiiSpan :=
  if content = [] then []
  else
    match load with
    | none => []
    | some patterns => (scan finditer (content.take settings.customPiiMaxInspectChars) patterns).1

/-- `CustomPiiHook.inspect` -/
def inspect (settings : CustomPiiSettings) (finditer : List Char → List Char → Finditer)
    (load : Option (List CompiledPattern)) (content : List Char) : DetectorResult :=
  match matched settings finditer load content with
  | [] => .passed
  | first :: others =>
      let spans := first :: others
      let blockTriggered := spans.any fun s => effectiveAction settings s = .block
      let event : PiiEvent :=
        { eventType := "pii_blocked"
          patternName := patternNameSafe (primary first others).name
          severity := confidenceToSeverity (primary first others).score
          actionTaken := actionTakenFor (if blockTriggered then .block else settings.customPiiAction) }
      if blockTriggered then ⟨.block, some event, none⟩
      else
        let masked := applyMasks (content.take settings.customPiiMaxInspectChars) spans settings.customPiiAction
        ⟨.mask, some event, some (masked ++ content.drop settings.customPiiMaxInspectChars)⟩

theorem inspect_block_iff (settings : CustomPiiSettings) (finditer : List Char → List Char → Finditer)
    (load : Option (List CompiledPattern)) (content : List Char) :
    (inspect settings finditer load content).action = .block ↔
      ∃ s ∈ matched settings finditer load content, effectiveAction settings s = .block := by
  rw [inspect]
  split
  case h_1 heq => simp [heq, DetectorResult.passed]
  case h_2 first others heq =>
    simp only [heq]
    split
    case isTrue h => simpa using h
    case isFalse h => simpa using h

/-! ## what masking guarantees -/

theorem mergeSpans_congr {spans spans' : List CustomPiiSpan} (h : ∀ s, s ∈ spans ↔ s ∈ spans') :
    (mergeSpans spans).map shape = (mergeSpans spans').map shape ∧
      (TiesAgree {s | s ∈ spans} → mergeSpans spans = mergeSpans spans') := by
  have hset : {s | s ∈ spans'} = {s | s ∈ spans} := by
    ext s
    exact (h s).symm
  have hmerge := isMerge_mergeSpans spans'
  rw [hset] at hmerge
  exact (isMerge_mergeSpans spans).unique hmerge

/-- Merging and masking, whatever the spans: what the merges are and cover, whose label each has,
which characters the masks leave, and what of it the order of the spans decides. -/
theorem custom_masking (spans : List CustomPiiSpan) :
    ((mergeSpans spans).Pairwise fun m m' => m.stop ≤ m'.start) ∧
      (∀ p, (∃ m ∈ mergeSpans spans, m.covers p = true) ↔ ∃ s ∈ spans, s.covers p = true) ∧
      (∀ m ∈ mergeSpans spans, ∃ s ∈ spans, s.Within m ∧ s.label = m.label ∧
        ∀ t ∈ spans, t.Within m → t.score ≤ m.score) ∧
      (∀ text action, action ≠ .block →
        Redacts (maskEdits spans action) text (applyMasks text spans action) fun p => spans.any (·.covers p)) ∧
      (∀ spans', (∀ s, s ∈ spans ↔ s ∈ spans') →
        (mergeSpans spans).map shape = (mergeSpans spans').map shape ∧
          (TiesAgree {s | s ∈ spans} → mergeSpans spans = mergeSpans spans' ∧
            ∀ text action, applyMasks text spans action = applyMasks text spans' action)) ∧
      ∀ settings finditer load content, spans = matched settings finditer load content →
        ((inspect settings finditer load content).action = .block ↔
          ∃ s ∈ spans, effectiveAction settings s = .block) := by
  have hmerge := isMerge_mergeSpans spans
  refine ⟨hmerge.apart, hmerge.covers_iff, ?_, ?_, ?_, ?_⟩
  · intro m hm
    obtain ⟨s, hs, hlabel, hmax, -⟩ := (hmerge.gathers m hm).winner
    exact ⟨s, hs.1, hs.2, hlabel, fun t ht hwithin => hmax t ⟨ht, hwithin⟩⟩
  · intro text action haction
    rw [applyMasks, if_neg haction, redacts_run_iff]
    exact kept_maskEdits spans action text.length
  · intro spans' h
    obtain ⟨hshape, hequal⟩ := mergeSpans_congr h
    refine ⟨hshape, fun hties => ⟨hequal hties, fun text action => ?_⟩⟩
    rw [applyMasks, applyMasks, maskEdits, maskEdits, hequal hties]
  · rintro settings finditer load content rfl
    exact inspect_block_iff settings finditer load content

def sampleSpan (name : List Char) : CustomPiiSpan := ⟨0, 1, name, 1, none, Nat.zero_lt_one⟩

/-- Of spans that tie, the first of the list gives the label; and `block` leaves the text. -/
theorem order_decides_label :
    (∀ s, s ∈ [sampleSpan ['a'], sampleSpan ['b']] ↔ s ∈ [sampleSpan ['b'], sampleSpan ['a']]) ∧
      mergeSpans [sampleSpan ['a'], sampleSpan ['b']] ≠ mergeSpans [sampleSpan ['b'], sampleSpan ['a']] ∧
      applyMasks ['x'] [sampleSpan ['a'], sampleSpan ['b']] .mask ≠
        applyMasks ['x'] [sampleSpan ['b'], sampleSpan ['a']] .mask ∧
      applyMasks ['x'] [sampleSpan ['a']] .block = ['x'] ∧ (sampleSpan ['a']).covers 0 = true := by
  refine ⟨fun s => ?_, by decide +kernel, by decide +kernel, by decide, by decide⟩
  simp [or_comm]

end Anoryx.Sentinel.CustomPii
