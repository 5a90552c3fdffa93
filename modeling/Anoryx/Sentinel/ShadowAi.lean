import Anoryx.DenseWindow

/-!
# Anoryx.Sentinel.ShadowAi

The review candidates of a tenant's disallowed egress (`classify` of
`shadow_ai/classifier.py`, `attribution_key`).

The rows are grouped, and each group gets the signals that fire for it.  The frequency
signal looks at the instants of a `dict` by timestamp text, where rows with one text are one
(`classified_iff`).
-/

namespace Anoryx.Sentinel.ShadowAi

open DenseWindow

def volumeThreshold : Nat := 5

def frequencyMinEvents : Nat := 3

def frequencyWindowSeconds : ℚ := 300

/-- A row of type `shadow_ai_detected_outbound`, what the classifier reads. -/
structure EgressRow where
  teamId : String
  projectId : String
  detectedEndpoint : Option String
  selectedProvider : Option String
  firstSeenAt : Option String

structure AttributionKey where
  teamId : String
  projectId : String
  endpoint : String
  provider : String
deriving DecidableEq

def attributionKey (row : EgressRow) : AttributionKey :=
  ⟨row.teamId, row.projectId, row.detectedEndpoint.getD "", row.selectedProvider.getD ""⟩

/-- The signals, in the order of their texts. -/
inductive Signal
  | disallowedProvider
  | frequency
  | volume
deriving DecidableEq

inductive Band
  | low
  | medium
  | high
deriving DecidableEq

def Band.rank : Band → Nat
  | low => 0
  | medium => 1
  | high => 2

structure Candidate where
  tenantId : String
  key : AttributionKey
  callCount : Nat
  firstSeen : String
  lastSeen : String
  confidenceBand : Band
  firedSignals : List Signal
  candidateKey : String

/-- The keys of a `dict`: each where it came first. -/
def distinct {α : Type} [DecidableEq α] (xs : List α) : List α := xs.reverse.dedup.reverse

def frequencyFires (epochs : List ℚ) : Bool :=
  if epochs.length < frequencyMinEvents then false
  else scan frequencyWindowSeconds frequencyMinEvents [] (epochs.insertionSort (· ≤ ·))

/-- `tuple(sorted(fired))` -/
def firedSignals (volume frequency : Bool) : List Signal :=
  .disallowedProvider :: ((if frequency then [.frequency] else []) ++ if volume then [.volume] else [])

def bandFor (fired : List Signal) : Band :=
  if .volume ∈ fired ∧ .frequency ∈ fired then .high
  else if .volume ∈ fired ∨ .frequency ∈ fired then .medium
  else .low

/-- `_candidate_key`; the digest is in hexadecimal digits. -/
def candidateKey (sha256 : String → String) (tenantId : String) (key : AttributionKey) (windowBucket : String) : String :=
  String.ofList ((sha256 s!"{tenantId}|{key.teamId}|{key.projectId}|{key.endpoint}|{key.provider}|{windowBucket}").toList.take 64)

/-- The rows of a group, as they came. -/
def rowsOf (key : AttributionKey) (rows : List EgressRow) : List EgressRow :=
  rows.filter fun row => attributionKey row = key

def seen (members : List EgressRow) : List String := members.filterMap fun row => row.firstSeenAt.filter (· ≠ "")

section Classify

/- `_parse_ts` of a text that is not empty: the instant that `datetime.fromisoformat` reads, in
seconds, if it reads one. -/
variable (parseTs : String → Option ℚ) (sha256 : String → String)

/-- `epochs`: of each text once -/
def epochs (members : List EgressRow) : List ℚ := (distinct (seen members)).filterMap parseTs

def parseable (members : List EgressRow) : List String := (seen members).filter fun s => (parseTs s).isSome

/-- `epoch_by_ts[s]`, of a text that is parseable -/
def epochOf (s : String) : ℚ := (parseTs s).getD 0

def firstSeen (members : List EgressRow) : String :=
  ((parseable parseTs members).argmin (epochOf parseTs) <|> (seen members).argmin id).getD ""

def lastSeen (members : List EgressRow) : String :=
  ((parseable parseTs members).argmax (epochOf parseTs) <|> (seen members).argmax id).getD ""

def fired (members : List EgressRow) : List Signal :=
  firedSignals (volumeThreshold ≤ members.length) (frequencyFires (epochs parseTs members))

def candidate (tenantId windowBucket : String) (key : AttributionKey) (members : List EgressRow) : Candidate where
  tenantId := tenantId
  key := key
  callCount := members.length
  firstSeen := firstSeen parseTs members
  lastSeen := lastSeen parseTs members
  confidenceBand := bandFor (fired parseTs members)
  firedSignals := fired parseTs members
  candidateKey := candidateKey sha256 tenantId key windowBucket

/-- The most calls first, then by endpoint and team. -/
def sortKey (c : Candidate) : Int ×ₗ String ×ₗ String := toLex (-(c.callCount : Int), toLex (c.key.endpoint, c.key.teamId))

def classify (tenantId windowBucket : String) (rows : List EgressRow) : List Candidate :=
  ((distinct (rows.map attributionKey)).map fun key =>
    candidate parseTs sha256 tenantId windowBucket key (rowsOf key rows)).insertionSort fun c c' => sortKey c ≤ sortKey c'

/-- The instants of the rows that have one, counted with the rows. -/
def instants (members : List EgressRow) : List ℚ := (seen members).filterMap parseTs

/-- What is asked of the candidates. -/
structure Classified (tenantId windowBucket : String) (rows : List EgressRow) : Prop where
  one : ∀ key, ((classify parseTs sha256 tenantId windowBucket rows).filter fun c => c.key = key).length =
    if key ∈ rows.map attributionKey then 1 else 0
  count : ∀ c ∈ classify parseTs sha256 tenantId windowBucket rows, c.callCount = (rowsOf c.key rows).length
  frequency : ∀ c ∈ classify parseTs sha256 tenantId windowBucket rows, Signal.frequency ∈ c.firedSignals ↔
    Dense frequencyWindowSeconds frequencyMinEvents (instants parseTs (rowsOf c.key rows))
  first : ∀ c ∈ classify parseTs sha256 tenantId windowBucket rows, instants parseTs (rowsOf c.key rows) ≠ [] →
    c.firstSeen ∈ seen (rowsOf c.key rows) ∧ ∃ e, parseTs c.firstSeen = some e ∧
      ∀ e' ∈ instants parseTs (rowsOf c.key rows), e ≤ e'
  last : ∀ c ∈ classify parseTs sha256 tenantId windowBucket rows, instants parseTs (rowsOf c.key rows) ≠ [] →
    c.lastSeen ∈ seen (rowsOf c.key rows) ∧ ∃ e, parseTs c.lastSeen = some e ∧
      ∀ e' ∈ instants parseTs (rowsOf c.key rows), e' ≤ e
  unordered : ∀ c ∈ classify parseTs sha256 tenantId windowBucket rows, ∀ rows', rows'.Perm rows →
    ∃ c' ∈ classify parseTs sha256 tenantId windowBucket rows', c'.key = c.key ∧ c'.callCount = c.callCount ∧
      c'.firedSignals = c.firedSignals ∧ c'.confidenceBand = c.confidenceBand
  monotone : ∀ c ∈ classify parseTs sha256 tenantId windowBucket rows, ∀ rows', rows.Subperm rows' →
    ∃ c' ∈ classify parseTs sha256 tenantId windowBucket rows', c'.key = c.key ∧
      c.confidenceBand.rank ≤ c'.confidenceBand.rank

/-- So many different texts of the group are in one interval. -/
def ManyTexts (members : List EgressRow) : Prop :=
  ∃ start, frequencyMinEvents ≤ ((seen members).toFinset.filter fun s =>
    ∃ e ∈ parseTs s, start ≤ e ∧ e ≤ start + frequencyWindowSeconds).card

end Classify

/-! ## keys -/

section Distinct

variable {α β : Type} [DecidableEq α] {xs ys : List α} {x : α}

@[simp] theorem mem_distinct : x ∈ distinct xs ↔ x ∈ xs := by simp [distinct]

theorem nodup_distinct (xs : List α) : (distinct xs).Nodup := List.nodup_reverse.mpr (List.nodup_dedup _)

theorem distinct_subperm (h : xs ⊆ ys) : (distinct xs).Subperm (distinct ys) :=
  List.subperm_of_subset (nodup_distinct xs) fun _ hx => mem_distinct.mpr (h (mem_distinct.mp hx))

omit [DecidableEq α] in
theorem subperm_filterMap (h : xs.Subperm ys) (f : α → Option β) : (xs.filterMap f).Subperm (ys.filterMap f) := by
  obtain ⟨zs, hperm, hsub⟩ := h
  exact ⟨zs.filterMap f, hperm.filterMap f, hsub.filterMap f⟩

end Distinct

/-! ## signals and bands -/

variable {volume frequency : Bool} {s : String}

theorem frequency_mem_firedSignals : Signal.frequency ∈ firedSignals volume frequency ↔ frequency = true := by
  cases volume <;> cases frequency <;> decide

theorem rank_bandFor_le {volume' frequency' : Bool} (hvolume : volume = true → volume' = true)
    (hfrequency : frequency = true → frequency' = true) :
    (bandFor (firedSignals volume frequency)).rank ≤ (bandFor (firedSignals volume' frequency')).rank := by
  revert hvolume hfrequency
  cases volume <;> cases frequency <;> cases volume' <;> cases frequency' <;> decide

theorem frequencyFires_iff (points : List ℚ) :
    frequencyFires points = true ↔ Dense frequencyWindowSeconds frequencyMinEvents points := by
  rw [frequencyFires]
  split
  · next hfew => exact iff_of_false Bool.false_ne_true fun h => absurd h.le_length (Nat.not_le.mpr hfew)
  · rw [scan_eq_true_iff (by decide) (List.pairwise_insertionSort (· ≤ ·) points)]
    have hperm := List.perm_insertionSort (α := ℚ) (· ≤ ·) points
    exact ⟨fun h => h.subperm hperm.subperm, fun h => h.subperm hperm.symm.subperm⟩

/-! ## groups -/

section Groups

variable {parseTs : String → Option ℚ} {sha256 : String → String} {tenantId windowBucket : String}
  {rows rows' members members' : List EgressRow} {key : AttributionKey} {c : Candidate}

theorem mem_classify : c ∈ classify parseTs sha256 tenantId windowBucket rows ↔
    ∃ key ∈ rows.map attributionKey, candidate parseTs sha256 tenantId windowBucket key (rowsOf key rows) = c := by
  rw [classify, List.mem_insertionSort, List.mem_map]
  simp only [mem_distinct]

theorem length_filter_classify (key : AttributionKey) :
    ((classify parseTs sha256 tenantId windowBucket rows).filter fun c => c.key = key).length =
      if key ∈ rows.map attributionKey then 1 else 0 := by
  rw [← List.countP_eq_length_filter, classify, (List.perm_insertionSort _ _).countP_eq, List.countP_map]
  show (distinct (rows.map attributionKey)).countP (fun k => decide (k = key)) = _
  split
  · next h =>
      have hone := List.count_eq_one_of_mem (nodup_distinct _) (mem_distinct.mpr h)
      rw [← hone]
      exact List.countP_congr fun k _ => by simp
  · next h =>
      refine List.countP_eq_zero.mpr fun k hk heq => h ?_
      rw [← of_decide_eq_true heq]
      exact mem_distinct.mp hk

theorem rowsOf_subperm (h : rows.Subperm rows') : (rowsOf key rows).Subperm (rowsOf key rows') := h.filter _

theorem seen_subset (h : members.Subperm members') : seen members ⊆ seen members' := by
  intro s hs
  obtain ⟨row, hrow, htext⟩ := List.mem_filterMap.mp hs
  exact List.mem_filterMap.mpr ⟨row, h.subset hrow, htext⟩

theorem epochs_subperm (h : members.Subperm members') : (epochs parseTs members).Subperm (epochs parseTs members') :=
  subperm_filterMap (distinct_subperm (seen_subset h)) parseTs

theorem frequencyFires_mono (h : members.Subperm members') (hfires : frequencyFires (epochs parseTs members) = true) :
    frequencyFires (epochs parseTs members') = true :=
  (frequencyFires_iff _).mpr (((frequencyFires_iff _).mp hfires).subperm (epochs_subperm h))

theorem fired_eq_of_perm (h : members'.Perm members) : fired parseTs members' = fired parseTs members := by
  have hfrequency : frequencyFires (epochs parseTs members') = frequencyFires (epochs parseTs members) :=
    Bool.eq_iff_iff.mpr ⟨frequencyFires_mono h.subperm, frequencyFires_mono h.symm.subperm⟩
  rw [fired, fired, h.length_eq, hfrequency]

theorem exists_instant_of_parseable : s ∈ parseable parseTs members ↔ s ∈ seen members ∧ ∃ e, parseTs s = some e := by
  rw [parseable, List.mem_filter, Option.isSome_iff_exists]

theorem bounds_of_parseable {r : ℚ → ℚ → Prop} (hs : s ∈ parseable parseTs members)
    (hbound : ∀ s' ∈ parseable parseTs members, r (epochOf parseTs s) (epochOf parseTs s')) :
    s ∈ seen members ∧ ∃ e, parseTs s = some e ∧ ∀ e' ∈ instants parseTs members, r e e' := by
  obtain ⟨hin, e, heq⟩ := exists_instant_of_parseable.mp hs
  refine ⟨hin, e, heq, fun e' he' => ?_⟩
  obtain ⟨s', hs', heq'⟩ := List.mem_filterMap.mp he'
  have h := hbound s' (exists_instant_of_parseable.mpr ⟨hs', e', heq'⟩)
  rwa [epochOf, epochOf, heq, heq', Option.getD_some, Option.getD_some] at h

theorem seen_bounds (h : instants parseTs members ≠ []) :
    (firstSeen parseTs members ∈ seen members ∧ ∃ e, parseTs (firstSeen parseTs members) = some e ∧
      ∀ e' ∈ instants parseTs members, e ≤ e') ∧
    (lastSeen parseTs members ∈ seen members ∧ ∃ e, parseTs (lastSeen parseTs members) = some e ∧
      ∀ e' ∈ instants parseTs members, e' ≤ e) := by
  have hsome : parseable parseTs members ≠ [] := by
    obtain ⟨e, he⟩ := List.exists_mem_of_ne_nil _ h
    obtain ⟨s, hs, heq⟩ := List.mem_filterMap.mp he
    exact List.ne_nil_of_mem (exists_instant_of_parseable.mpr ⟨hs, e, heq⟩)
  constructor
  · obtain ⟨s, hs⟩ := Option.ne_none_iff_exists'.mp (mt (List.argmin_eq_none (f := epochOf parseTs)).mp hsome)
    have hfirst : firstSeen parseTs members = s := by
      rw [firstSeen, hs]
      rfl
    rw [hfirst]
    exact bounds_of_parseable (List.argmin_mem hs) fun s' hs' => List.le_of_mem_argmin hs' hs
  · obtain ⟨s, hs⟩ := Option.ne_none_iff_exists'.mp (mt (List.argmax_eq_none (f := epochOf parseTs)).mp hsome)
    have hlast : lastSeen parseTs members = s := by
      rw [lastSeen, hs]
      rfl
    rw [hlast]
    exact bounds_of_parseable (r := fun e e' => e' ≤ e) (List.argmax_mem hs) fun s' hs' => List.le_of_mem_argmax hs' hs

theorem dense_epochs_iff : Dense frequencyWindowSeconds frequencyMinEvents (epochs parseTs members) ↔
    ManyTexts parseTs members := by
  refine exists_congr fun start => ?_
  have htexts : (epochs parseTs members).countP (fun e => start ≤ e ∧ e ≤ start + frequencyWindowSeconds) =
      ((seen members).toFinset.filter fun s => ∃ e ∈ parseTs s, start ≤ e ∧ e ≤ start + frequencyWindowSeconds).card := by
    have hset : ((distinct (seen members)).filter fun s => decide (∃ e ∈ parseTs s, start ≤ e ∧
        e ≤ start + frequencyWindowSeconds)).toFinset =
        (seen members).toFinset.filter fun s => ∃ e ∈ parseTs s, start ≤ e ∧ e ≤ start + frequencyWindowSeconds := by
      ext s
      simp
    rw [epochs, List.countP_filterMap, List.countP_eq_length_filter, ← hset,
      List.toFinset_card_of_nodup ((nodup_distinct _).filter _)]
    congr 1
    refine List.filter_congr fun s _ => ?_
    cases parseTs s <;> simp
  rw [htexts]

theorem frequency_mem_fired : Signal.frequency ∈ fired parseTs members ↔ ManyTexts parseTs members := by
  rw [fired, frequency_mem_firedSignals, frequencyFires_iff, dense_epochs_iff]

theorem ManyTexts.dense (h : ManyTexts parseTs members) :
    Dense frequencyWindowSeconds frequencyMinEvents (instants parseTs members) := by
  refine (dense_epochs_iff.mpr h).subperm (subperm_filterMap ?_ parseTs)
  exact List.subperm_of_subset (nodup_distinct _) fun s hs => mem_distinct.mp hs

end Groups

/-- **The candidates** are as they should be just when no burst is one only by repeated texts. -/
theorem classified_iff (parseTs : String → Option ℚ) (sha256 : String → String) (tenantId windowBucket : String)
    (rows : List EgressRow) : Classified parseTs sha256 tenantId windowBucket rows ↔
    ∀ key, Dense frequencyWindowSeconds frequencyMinEvents (instants parseTs (rowsOf key rows)) →
      ManyTexts parseTs (rowsOf key rows) := by
  constructor
  · intro h key hdense
    have hkey : key ∈ rows.map attributionKey := by
      obtain ⟨row, hrow⟩ := List.exists_mem_of_ne_nil (rowsOf key rows) fun hnil => by
        have hle := hdense.le_length
        simp [hnil, instants, seen, frequencyMinEvents] at hle
      obtain ⟨hmem, heq⟩ := List.mem_filter.mp hrow
      exact List.mem_map.mpr ⟨row, hmem, of_decide_eq_true heq⟩
    exact frequency_mem_fired.mp ((h.frequency _ (mem_classify.mpr ⟨key, hkey, rfl⟩)).mpr hdense)
  · intro htexts
    have hkey {rows' : List EgressRow} (h : rows.Subperm rows') {key : AttributionKey} (hkey : key ∈ rows.map attributionKey) :
        candidate parseTs sha256 tenantId windowBucket key (rowsOf key rows') ∈
          classify parseTs sha256 tenantId windowBucket rows' :=
      mem_classify.mpr ⟨key, List.map_subset _ h.subset hkey, rfl⟩
    refine ⟨length_filter_classify, ?_, ?_, ?_, ?_, ?_, ?_⟩ <;> intro c hc <;>
      obtain ⟨key, hmem, rfl⟩ := mem_classify.mp hc
    · rfl
    · exact frequency_mem_fired.trans ⟨ManyTexts.dense, htexts key⟩
    · exact fun h => (seen_bounds h).1
    · exact fun h => (seen_bounds h).2
    · intro rows' hperm
      have hrows : (rowsOf key rows').Perm (rowsOf key rows) := hperm.filter _
      have hfired : fired parseTs (rowsOf key rows') = fired parseTs (rowsOf key rows) := fired_eq_of_perm hrows
      exact ⟨_, hkey hperm.symm.subperm hmem, rfl, hrows.length_eq, hfired, congrArg bandFor hfired⟩
    · intro rows' hsub
      refine ⟨_, hkey hsub hmem, rfl, rank_bandFor_le (fun h => ?_) (frequencyFires_mono (rowsOf_subperm hsub))⟩
      rw [decide_eq_true_iff] at h ⊢
      exact h.trans (rowsOf_subperm hsub).length_le

/-! ## a burst -/

def sampleRows : List EgressRow :=
  List.replicate 3 ⟨"team-1", "project-1", some "api.openai.com", some "openai", some "2026-07-08T12:00:00Z"⟩

def sampleSha256 : String → String :=
  fun _ => "5ae736a3e9d7bd036d6acc22dc0eb07d0ec1183677e7698daf905ff1e84938a7"

def sampleParseTs (s : String) : Option ℚ := if s = "2026-07-08T12:00:00Z" then some 1783512000 else none

/-- **No frequency signal**, for three calls in one second. -/
theorem burst_not_classified :
    ¬ Classified sampleParseTs sampleSha256 "tenant-1" "2026-07-08" sampleRows := by
  intro h
  have hfires := h.frequency _ (mem_classify.mpr ⟨⟨"team-1", "project-1", "api.openai.com", "openai"⟩, by decide, rfl⟩)
  have hdense : Dense frequencyWindowSeconds frequencyMinEvents (instants sampleParseTs
      (rowsOf ⟨"team-1", "project-1", "api.openai.com", "openai"⟩ sampleRows)) := ⟨1783512000, by decide +kernel⟩
  exact absurd (hfires.mpr hdense) (by decide +kernel)

end Anoryx.Sentinel.ShadowAi
