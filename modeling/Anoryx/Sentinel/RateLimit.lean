import Anoryx.Sentinel.Enforcement

/-!
# Anoryx.Sentinel.RateLimit

The admission of a request by the Redis rate limiter (`gateway/middleware/rate_limit.py`,
`_run_redis_admission`): a sliding window for the virtual key, one for the team if it
has a limit, one for the tenant, and the tenant's stream counter.

Each tier adds the request to its window before it counts.  A request that is turned
down is taken out of the windows of the tiers that had admitted it; the window of the
tier that turned it down keeps it.

Redis answers here: what happens when it does not is the in-process limiter's part.
-/

namespace Anoryx.Sentinel

/-! ## sorted sets -/

/-- A Redis sorted set: members with their scores. -/
structure SortedSet where
  entries : List (String × Int)
  nodup : (entries.map Prod.fst).Nodup

variable {score cutoff : Int} {s s' : Redis} {key p q : String} {l : List (String × String)}
  {tier : Tier}

namespace SortedSet

def members (z : SortedSet) : List String := z.entries.map Prod.fst

/-- The entries that pass a test. -/
def restrict (z : SortedSet) (p : String × Int → Bool) : SortedSet where
  entries := z.entries.filter p
  nodup := z.nodup.sublist (List.filter_sublist.map Prod.fst)

/-- `ZREMRANGEBYSCORE key -inf cutoff` -/
def removeUpTo (z : SortedSet) (cutoff : Int) : SortedSet := z.restrict fun e => cutoff < e.2

/-- `ZREM key member` -/
def remove (z : SortedSet) (member : String) : SortedSet := z.restrict fun e => e.1 ≠ member

/-- `ZADD key score member`; a member that is there gets the new score. -/
def add (z : SortedSet) (member : String) (score : Int) : SortedSet where
  entries := (z.remove member).entries ++ [(member, score)]
  nodup := by
    rw [List.map_append, List.nodup_append]
    refine ⟨(z.remove member).nodup, List.nodup_singleton _, ?_⟩
    rintro a ha b hb rfl
    obtain ⟨e, he, rfl⟩ := List.mem_map.mp ha
    have hne : e.1 ≠ member := by simpa using (List.mem_filter.mp he).2
    exact hne (List.mem_singleton.mp hb)

/-- `ZCARD key` -/
def card (z : SortedSet) : Nat := z.entries.length

/-- `ZCOUNT key low high` -/
def count (z : SortedSet) (low high : Int) : Nat :=
  (z.entries.filter fun e => low ≤ e.2 ∧ e.2 ≤ high).length

theorem ext {z z' : SortedSet} (h : z.entries = z'.entries) : z = z' := by
  cases z
  cases z'
  cases h
  rfl

theorem remove_of_not_mem {z : SortedSet} {member : String} (h : member ∉ z.members) :
    z.remove member = z := by
  apply ext
  refine List.filter_eq_self.mpr fun e he => ?_
  have hne : e.1 ≠ member := by
    rintro rfl
    exact h (List.mem_map_of_mem he)
  simpa using hne

theorem add_of_not_mem {z : SortedSet} {member : String} (h : member ∉ z.members) :
    (z.add member score).entries = z.entries ++ [(member, score)] := by
  show (z.remove member).entries ++ _ = _
  rw [remove_of_not_mem h]

theorem remove_add {z : SortedSet} {member : String} (h : member ∉ z.members) :
    (z.add member score).remove member = z := by
  apply ext
  show ((z.add member score).entries.filter _) = _
  have hrest : z.entries.filter (fun e => e.1 ≠ member) = z.entries :=
    congrArg entries (remove_of_not_mem h)
  rw [add_of_not_mem h, List.filter_append, hrest]
  simp

theorem members_removeUpTo {z : SortedSet} {member : String} (h : member ∉ z.members) :
    member ∉ (z.removeUpTo cutoff).members :=
  fun hmem => h ((List.filter_sublist.map Prod.fst).mem hmem)

@[simp] theorem removeUpTo_removeUpTo (z : SortedSet) (cutoff : Int) :
    (z.removeUpTo cutoff).removeUpTo cutoff = z.removeUpTo cutoff := by
  apply ext
  simp [removeUpTo, restrict, List.filter_filter]

end SortedSet

/-! ## one tier -/

/-- What the rate limiter keeps in Redis. -/
structure Redis where
  zsets : String → SortedSet
  counters : String → Int

def keyPrefix : String := "sentinel:rl:vk:"

def teamPrefix : String := "sentinel:rl:team:"

def tenantPrefix : String := "sentinel:rl:tenant:"

def streamPrefix : String := "sentinel:rl:streams:"

def windowMs : Int := 60000

def burstMs : Int := 1000

/-- A sliding window that a request has to pass, with the clock (in milliseconds) and
the `uuid4` that its admission reads. -/
structure Tier where
  key : String
  rpm : Int
  nowMs : Int
  uuid4 : String

/-- `f"{now_ms}:{uuid.uuid4().hex}"` -/
def Tier.member (tier : Tier) : String := toString tier.nowMs ++ ":" ++ tier.uuid4

/-- The tier's window without the entries that have run out. -/
def Tier.expired (tier : Tier) (z : SortedSet) : SortedSet := z.removeUpTo (tier.nowMs - windowMs)

/-- The tier's window once the request is in it. -/
def Tier.entered (tier : Tier) (z : SortedSet) : SortedSet :=
  (tier.expired z).add tier.member tier.nowMs

/-- The counts of the pipeline are within the limits. -/
def Tier.admits (tier : Tier) (burst : Int) (z : SortedSet) : Bool :=
  let z := tier.entered z
  z.card ≤ tier.rpm ∧ z.count (tier.nowMs - burstMs) tier.nowMs ≤ burst

/-- `_redis_admit_tier`: one MULTI/EXEC. -/
def redisAdmitTier (tier : Tier) (burst : Int) (s : Redis) : Bool × Redis :=
  (tier.admits burst (s.zsets tier.key),
    { s with zsets := Function.update s.zsets tier.key (tier.entered (s.zsets tier.key)) })

def redisZrem (s : Redis) (key member : String) : Redis :=
  { s with zsets := Function.update s.zsets key ((s.zsets key).remove member) }

/-- The compensating removals of a rejection. -/
def compensate (admittedMembers : List (String × String)) (s : Redis) : Redis :=
  admittedMembers.foldl (fun s p => redisZrem s p.1 p.2) s

/-! ## admission -/

/-- The tiers in order; on the first that does not admit, the tiers before it are
compensated. -/
def admitTiers (burst : Int) :
    List Tier → List (String × String) → Redis → Option (List (String × String)) × Redis
  | [], admittedMembers, s => (some admittedMembers, s)
  | tier :: tiers, admittedMembers, s =>
      match redisAdmitTier tier burst s with
      | (true, s) => admitTiers burst tiers (admittedMembers ++ [(tier.key, tier.member)]) s
      | (false, s) => (none, compensate admittedMembers s)

structure GatewayError where
  errorCode : String
  retryAfter : Nat
deriving DecidableEq

/-- The limits in force: the settings, and the team's own limit if it has one. -/
structure RateLimits where
  rpm : Int
  burst : Int
  maxStreams : Int
  teamRpm : Option Int

structure AdmissionRequest where
  virtualKeyId : String
  tenantId : String
  teamId : Option String
  isStream : Bool

/-- What the admission reads of the clock and of `uuid4`, tier by tier and at its end. -/
structure AdmissionReads where
  vkMs : Int
  vkUuid : String
  teamMs : Int
  teamUuid : String
  tenantMs : Int
  tenantUuid : String
  finalMs : Int
  finalEpoch : Int

namespace AdmissionRequest

variable (req : AdmissionRequest) (lim : RateLimits) (reads : AdmissionReads)

def vkTier : Tier :=
  ⟨keyPrefix ++ req.virtualKeyId, lim.rpm, reads.vkMs, reads.vkUuid⟩

/-- The team tier is there for a team with a limit. -/
def teamTier : Option Tier := do
  let teamId ← req.teamId
  let teamRpm ← lim.teamRpm
  pure ⟨teamPrefix ++ req.tenantId ++ ":" ++ teamId, teamRpm, reads.teamMs, reads.teamUuid⟩

def tenantTier : Tier :=
  ⟨tenantPrefix ++ req.tenantId, lim.rpm, reads.tenantMs, reads.tenantUuid⟩

/-- The tiers of a request. -/
def tiers : List Tier :=
  req.vkTier lim reads :: (req.teamTier lim reads).toList ++ [req.tenantTier lim reads]

def streamKey : String := streamPrefix ++ req.tenantId

end AdmissionRequest

/-- The remaining requests of a tier, at the end of an admission. -/
def remaining (tier : Tier) (reads : AdmissionReads) (s : Redis) : Int :=
  max 0 (tier.rpm - (s.zsets tier.key).count (reads.finalMs - windowMs) reads.finalMs)

def runRedisAdmission (req : AdmissionRequest) (lim : RateLimits) (reads : AdmissionReads) (s : Redis) :
    Except GatewayError (Int × Int × Int) × Redis :=
  match admitTiers lim.burst (req.tiers lim reads) [] s with
  | (none, s) => (.error ⟨"rate_limit_exceeded", 60⟩, s)
  | (some admittedMembers, s) =>
      let streams := s.counters req.streamKey + 1
      if req.isStream ∧ lim.maxStreams < streams then
        -- the INCR is undone by a DECR
        (.error ⟨"rate_limit_exceeded", 5⟩, compensate admittedMembers s)
      else
        let vkRemaining := remaining (req.vkTier lim reads) reads s
        let left := match req.teamTier lim reads with
          | none => vkRemaining
          | some tier => min vkRemaining (remaining tier reads s)
        let counters := if req.isStream then Function.update s.counters req.streamKey streams
          else s.counters
        (.ok (lim.rpm, left, reads.finalEpoch + 60), { s with counters })

/-! ## compensation -/

theorem zsets_redisZrem_of_ne {key' member : String} (h : key' ≠ key) :
    (redisZrem s key member).zsets key' = s.zsets key' := by
  simp [redisZrem, h]

theorem compensate_of_not_mem (h : key ∉ l.map Prod.fst) :
    (compensate l s).zsets key = s.zsets key := by
  induction l generalizing s with
  | nil => rfl
  | cons p l ih =>
      rw [List.map_cons, List.mem_cons, not_or] at h
      show (compensate l (redisZrem s p.1 p.2)).zsets key = _
      rw [ih h.2, zsets_redisZrem_of_ne h.1]

theorem compensate_of_mem {member : String} (hnodup : (l.map Prod.fst).Nodup)
    (h : (key, member) ∈ l) : (compensate l s).zsets key = (s.zsets key).remove member := by
  induction l generalizing s with
  | nil => exact absurd h List.not_mem_nil
  | cons p l ih =>
      rw [List.map_cons, List.nodup_cons] at hnodup
      show (compensate l (redisZrem s p.1 p.2)).zsets key = _
      rcases List.mem_cons.mp h with rfl | h
      · rw [compensate_of_not_mem hnodup.1]
        simp [redisZrem]
      · have hne : key ≠ p.1 := by
          rintro rfl
          exact hnodup.1 (List.mem_map.mpr ⟨(p.1, member), h, rfl⟩)
        rw [ih hnodup.2 h, zsets_redisZrem_of_ne hne]

/-- The pairs that are recorded for compensation. -/
def membersOf (tiers : List Tier) : List (String × String) :=
  tiers.map fun tier => (tier.key, tier.member)

theorem map_fst_membersOf (tiers : List Tier) : (membersOf tiers).map Prod.fst = tiers.map Tier.key := by
  simp [membersOf, Function.comp_def]

/-- `s'` is `s` with the request in the windows of some tiers. -/
structure Entered (s s' : Redis) (tiers : List Tier) : Prop where
  entered : ∀ tier ∈ tiers, s'.zsets tier.key = tier.entered (s.zsets tier.key)
  others : ∀ key, key ∉ tiers.map Tier.key → s'.zsets key = s.zsets key

theorem Entered.admit {done : List Tier} (h : Entered s s' done)
    (hkey : tier.key ∉ done.map Tier.key) (burst : Int) :
    (redisAdmitTier tier burst s').1 = tier.admits burst (s.zsets tier.key) ∧
      Entered s (redisAdmitTier tier burst s').2 (done ++ [tier]) := by
  have hz : s'.zsets tier.key = s.zsets tier.key := h.others _ hkey
  refine ⟨by simp [redisAdmitTier, hz], ?_, ?_⟩
  · intro tier' htier'
    rcases List.mem_append.mp htier' with htier' | htier'
    · have hne : tier'.key ≠ tier.key := fun he => hkey (he ▸ List.mem_map_of_mem htier')
      simpa [redisAdmitTier, hne] using h.entered tier' htier'
    · rw [List.mem_singleton.mp htier']
      simp [redisAdmitTier, hz]
  · intro key hkey'
    rw [List.map_append, List.mem_append, not_or] at hkey'
    have hne : key ≠ tier.key := fun he => hkey'.2 (by simp [he])
    simpa [redisAdmitTier, hne] using h.others key hkey'.1

/-- The tiers admit one after the other, up to the first that is full. -/
theorem admitTiers_cases (burst : Int) (tiers done : List Tier) (h : Entered s s' done)
    (hnodup : ((done ++ tiers).map Tier.key).Nodup) :
    ((∀ tier ∈ tiers, tier.admits burst (s.zsets tier.key) = true) ∧
      ∃ s'', admitTiers burst tiers (membersOf done) s' = (some (membersOf (done ++ tiers)), s'') ∧
        Entered s s'' (done ++ tiers)) ∨
    (∃ before full after, tiers = before ++ full :: after ∧
      full.admits burst (s.zsets full.key) = false ∧
      ∃ s'', admitTiers burst tiers (membersOf done) s' =
          (none, compensate (membersOf (done ++ before)) s'') ∧
        Entered s s'' (done ++ before ++ [full])) := by
  induction tiers generalizing done s' with
  | nil => exact .inl ⟨by simp, s', by simp [admitTiers], by simpa using h⟩
  | cons tier tiers ih =>
      have hkey : tier.key ∉ done.map Tier.key := by
        rw [List.map_append, List.nodup_append] at hnodup
        intro hmem
        exact hnodup.2.2 tier.key hmem tier.key (by simp) rfl
      obtain ⟨hadmits, hentered⟩ := h.admit hkey burst
      cases hfull : tier.admits burst (s.zsets tier.key) with
      | false =>
          refine .inr ⟨[], tier, tiers, rfl, hfull, (redisAdmitTier tier burst s').2, ?_, ?_⟩
          · rw [hfull] at hadmits
            rw [admitTiers, ← Prod.eta (redisAdmitTier tier burst s'), hadmits]
            simp
          · simpa using hentered
      | true =>
          have hstep : admitTiers burst (tier :: tiers) (membersOf done) s' =
              admitTiers burst tiers (membersOf (done ++ [tier])) (redisAdmitTier tier burst s').2 := by
            rw [hfull] at hadmits
            rw [admitTiers, ← Prod.eta (redisAdmitTier tier burst s'), hadmits]
            simp [membersOf]
          rw [hstep]
          rcases ih (done ++ [tier]) hentered (by simpa using hnodup) with
            ⟨hall, s'', heq, hent⟩ | ⟨before, full, after, rfl, hnot, s'', heq, hent⟩
          · refine .inl ⟨?_, s'', by simpa using heq, by simpa using hent⟩
            intro tier' htier'
            rcases List.mem_cons.mp htier' with rfl | htier'
            · exact hfull
            · exact hall tier' htier'
          · exact .inr ⟨tier :: before, full, after, rfl, hnot, s'', by simpa using heq,
              by simpa using hent⟩

/-! ## the cost of a rejection -/

/-- Up to the entries that have run out, the windows of the tiers are what they were,
and so is everything else. -/
structure CostsNothing (tiers : List Tier) (s s' : Redis) : Prop where
  windows : ∀ tier ∈ tiers, tier.expired (s'.zsets tier.key) = tier.expired (s.zsets tier.key)
  others : ∀ key, key ∉ tiers.map Tier.key → s'.zsets key = s.zsets key

/-- The `uuid4` values are new to the windows. -/
def FreshMembers (tiers : List Tier) (s : Redis) : Prop :=
  ∀ tier ∈ tiers, tier.member ∉ (s.zsets tier.key).members

theorem Entered.costsNothing {tiers : List Tier} (h : Entered s s' tiers)
    (hnodup : (tiers.map Tier.key).Nodup) (hfresh : FreshMembers tiers s) :
    CostsNothing tiers s (compensate (membersOf tiers) s') where
  windows tier htier := by
    have hmem : (tier.key, tier.member) ∈ membersOf tiers :=
      List.mem_map_of_mem (f := fun tier : Tier => (tier.key, tier.member)) htier
    have hfresh' : tier.member ∉ (tier.expired (s.zsets tier.key)).members :=
      SortedSet.members_removeUpTo (hfresh tier htier)
    rw [compensate_of_mem (by rwa [map_fst_membersOf]) hmem, h.entered tier htier, Tier.entered,
      SortedSet.remove_add hfresh']
    exact SortedSet.removeUpTo_removeUpTo _ _
  others key hkey := by
    rw [compensate_of_not_mem (by rwa [map_fst_membersOf]), h.others key hkey]

theorem Tier.expired_entered_ne {z : SortedSet} (h : tier.member ∉ z.members) :
    tier.expired (tier.entered z) ≠ tier.expired z := by
  intro heq
  have hin : tier.member ∈ (tier.expired (tier.entered z)).members := by
    refine List.mem_map.mpr ⟨(tier.member, tier.nowMs), List.mem_filter.mpr ⟨?_, ?_⟩, rfl⟩
    · simp [Tier.entered, SortedSet.add]
    · simp [windowMs]
  rw [heq] at hin
  exact SortedSet.members_removeUpTo h hin

theorem append_ne_append (i : Nat) (hp : i < p.toList.length) (hq : i < q.toList.length)
    (hne : p.toList[i]? ≠ q.toList[i]?) (a b : String) : p ++ a ≠ q ++ b := by
  intro h
  apply hne
  have hi := congrArg (fun s : String => s.toList[i]?) h
  simpa only [String.toList_append, List.getElem?_append_left hp, List.getElem?_append_left hq] using hi

theorem nodup_tierKeys (req : AdmissionRequest) (lim : RateLimits) (reads : AdmissionReads) :
    ((req.tiers lim reads).map Tier.key).Nodup := by
  have hvk : ∀ a b : String, keyPrefix ++ a ≠ tenantPrefix ++ b :=
    append_ne_append 12 (by decide) (by decide) (by decide)
  have hvkteam : ∀ a b : String, keyPrefix ++ a ≠ teamPrefix ++ b :=
    append_ne_append 12 (by decide) (by decide) (by decide)
  have hteam : ∀ a b : String, teamPrefix ++ a ≠ tenantPrefix ++ b :=
    append_ne_append 14 (by decide) (by decide) (by decide)
  unfold AdmissionRequest.tiers AdmissionRequest.teamTier
  cases req.teamId with
  | none => simp [AdmissionRequest.vkTier, AdmissionRequest.tenantTier, hvk]
  | some teamId =>
      cases lim.teamRpm with
      | none => simp [AdmissionRequest.vkTier, AdmissionRequest.tenantTier, hvk]
      | some teamRpm =>
          simp [AdmissionRequest.vkTier, AdmissionRequest.tenantTier, String.append_assoc, hvk, hvkteam,
            hteam]

/-- **What a rejection costs**: a request that is rejected leaves the windows as expiry
alone would have left them exactly when every tier had room for it, so that it was the
cap on streams that rejected it. -/
theorem rejected_costsNothing_iff (req : AdmissionRequest) (lim : RateLimits) (reads : AdmissionReads)
    (s s' : Redis) (error : GatewayError) (hfresh : FreshMembers (req.tiers lim reads) s)
    (h : runRedisAdmission req lim reads s = (.error error, s')) :
    CostsNothing (req.tiers lim reads) s s' ↔
      ∀ tier ∈ req.tiers lim reads, tier.admits lim.burst (s.zsets tier.key) = true := by
  have hnodup := nodup_tierKeys req lim reads
  have hnone : Entered s s [] := ⟨by simp, fun _ _ => rfl⟩
  rcases admitTiers_cases lim.burst (req.tiers lim reads) [] hnone (by simpa using hnodup) with
    ⟨hall, s'', heq, hent⟩ | ⟨before, full, after, htiers, hnot, s'', heq, hent⟩
  · simp only [runRedisAdmission, show ([] : List (String × String)) = membersOf [] from rfl, heq] at h
    split at h
    · rw [Prod.mk.injEq] at h
      rw [← h.2]
      exact iff_of_true (hent.costsNothing hnodup hfresh) hall
    · simp at h
  · simp only [runRedisAdmission, show ([] : List (String × String)) = membersOf [] from rfl, heq,
      Prod.mk.injEq] at h
    have hfull : full ∈ req.tiers lim reads := by simp [htiers]
    have hkey : full.key ∉ before.map Tier.key := by
      rw [htiers, List.map_append, List.nodup_append] at hnodup
      intro hmem
      exact hnodup.2.2 full.key hmem full.key (by simp) rfl
    refine iff_of_false (fun hcosts => ?_) (fun hall => ?_)
    · have hwindow := hcosts.windows full hfull
      rw [← h.2, compensate_of_not_mem (by simpa [map_fst_membersOf] using hkey),
        hent.entered full (by simp)] at hwindow
      exact Tier.expired_entered_ne (hfresh full hfull) hwindow
    · rw [hall full hfull] at hnot
      contradiction

section Sample

def sampleRequest : AdmissionRequest where
  virtualKeyId := "77777777-7777-4777-8777-777777777777"
  tenantId := "11111111-1111-4111-8111-111111111111"
  teamId := some "22222222-2222-4222-8222-222222222222"
  isStream := true

def sampleLimits : RateLimits := ⟨2, 2, 0, none⟩

def sampleReads : AdmissionReads where
  vkMs := 1782898200000
  vkUuid := "0f8fad5bd9cb469fa16570867728950e"
  teamMs := 1782898200001
  teamUuid := "7c9e6679742540de944be07fc1f90ae7"
  tenantMs := 1782898200002
  tenantUuid := "6ecd8c99484247c7a0b4d3f3c4c9c1aa"
  finalMs := 1782898200003
  finalEpoch := 1782898200

/-- Nothing admitted so far. -/
def idleRedis : Redis where
  zsets _ := ⟨[], List.nodup_nil⟩
  counters _ := 0

/-- The virtual key has used up its minute. -/
def busyRedis : Redis where
  zsets key :=
    if key = keyPrefix ++ sampleRequest.virtualKeyId then
      ⟨[("1782898190000:a", 1782898190000), ("1782898195000:b", 1782898195000)], by decide⟩
    else ⟨[], List.nodup_nil⟩
  counters _ := 0

/-- The cap on streams rejects, and the windows are as before. -/
theorem stream_cap_costs_nothing : ∃ s',
    runRedisAdmission sampleRequest sampleLimits sampleReads idleRedis =
      (.error ⟨"rate_limit_exceeded", 5⟩, s') ∧
      CostsNothing (sampleRequest.tiers sampleLimits sampleReads) idleRedis s' := by
  have hfst : (runRedisAdmission sampleRequest sampleLimits sampleReads idleRedis).1 =
      .error ⟨"rate_limit_exceeded", 5⟩ := by
    decide +kernel
  have hrun := Prod.ext_iff.mpr ⟨hfst, rfl⟩
  exact ⟨_, hrun, (rejected_costsNothing_iff sampleRequest sampleLimits sampleReads idleRedis _ _
    (fun _ _ => List.not_mem_nil) hrun).mpr (by decide +kernel)⟩

/-- A virtual key that is over its limit keeps the request that was rejected for it: a
client that goes on trying stays locked out. -/
theorem full_key_keeps_request : ∃ s',
    runRedisAdmission sampleRequest sampleLimits sampleReads busyRedis =
      (.error ⟨"rate_limit_exceeded", 60⟩, s') ∧
      FreshMembers (sampleRequest.tiers sampleLimits sampleReads) busyRedis ∧
      (s'.zsets (sampleRequest.vkTier sampleLimits sampleReads).key).card = 3 ∧
      ¬ CostsNothing (sampleRequest.tiers sampleLimits sampleReads) busyRedis s' := by
  have hfst : (runRedisAdmission sampleRequest sampleLimits sampleReads busyRedis).1 =
      .error ⟨"rate_limit_exceeded", 60⟩ := by
    decide +kernel
  refine ⟨_, Prod.ext_iff.mpr ⟨hfst, rfl⟩, ?_, by decide +kernel, fun hcosts => ?_⟩
  · unfold FreshMembers
    decide +kernel
  · have hcard := congrArg SortedSet.card
      (hcosts.windows (sampleRequest.vkTier sampleLimits sampleReads) List.mem_cons_self)
    exact absurd hcard (by decide +kernel)

end Sample

end Anoryx.Sentinel
