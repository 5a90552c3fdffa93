import Anoryx.Calendar
import Anoryx.Raising
import Anoryx.RoundRobin

/-!
# Anoryx.Rendly.DiscoveryFeed

The discovery feed (`discovery_feed.py`): the ranked lists of events, mentors, opportunities
and peers, merged in turns.

A limit of one or more gives that many items; the loop looks at the limit only after it has
appended, so that a limit of zero gives one (`composeFeed_eq`, `feedLaw_iff`).
-/

namespace Anoryx.Rendly.DiscoveryFeed

open RoundRobin

/-! ## what is merged -/

structure IntentMatch where
  subjectUserId : String
  subjectTenantId : String
  candidateUserId : String
  candidateTenantId : String
  matchedAsSeeker : List String
  matchedAsOfferer : List String
  score : Int
deriving DecidableEq

structure TrajectoryMatch where
  subjectUserId : String
  subjectTenantId : String
  candidateUserId : String
  candidateTenantId : String
  candidateIsMentor : Bool
  candidateIsMentee : Bool
  score : Int
deriving DecidableEq

structure PeerSuggestion where
  subjectUserId : String
  subjectTenantId : String
  candidateUserId : String
  candidateTenantId : String
  intentMatch : Option IntentMatch
  trajectoryMatch : Option TrajectoryMatch
  score : Int
deriving DecidableEq

structure EventDiscoveryResult where
  eventId : String
  tenantId : String
  sessionId : String
  locality : String
  startsAt : DateTime
  matchedTopics : List String
  score : Int
deriving DecidableEq

structure OpportunityMatch where
  subjectUserId : String
  subjectTenantId : String
  opportunityId : String
  opportunityTenantId : String
  matchedSkills : List String
  score : Int
deriving DecidableEq

inductive ProficiencyLevel
  | beginner
  | intermediate
  | advanced
  | expert
deriving DecidableEq

structure MentorshipMatch where
  menteeUserId : String
  menteeTenantId : String
  mentorUserId : String
  mentorTenantId : String
  stack : String
  menteeLevel : ProficiencyLevel
  mentorLevel : ProficiencyLevel
  score : Int
deriving DecidableEq

inductive FeedItemKind
  | event
  | mentorship
  | opportunity
  | peer
deriving DecidableEq

def feedTypeOrder : List FeedItemKind := [.event, .mentorship, .opportunity, .peer]

/-- A `FeedItem`: one payload, of its kind. -/
inductive FeedItem
  | event (eventDiscovery : EventDiscoveryResult)
  | mentorship (mentorshipMatch : MentorshipMatch)
  | opportunity (opportunityMatch : OpportunityMatch)
  | peer (peerSuggestion : PeerSuggestion)
deriving DecidableEq

def FeedItem.kind : FeedItem → FeedItemKind
  | .event _ => .event
  | .mentorship _ => .mentorship
  | .opportunity _ => .opportunity
  | .peer _ => .peer

/-- The four sequences that `compose_feed` is given. -/
structure Components where
  peerSuggestions : List PeerSuggestion
  eventDiscoveries : List EventDiscoveryResult
  opportunityMatches : List OpportunityMatch
  mentorshipMatches : List MentorshipMatch

/-! ## composition -/

def maxItemsPerType : Nat := 50

def maxFeedLimit : Int := 50

inductive FeedError
  /-- `ValueError(f"{label} must not exceed {MAX_ITEMS_PER_TYPE} entries")` -/
  | tooMany (label : String)
  /-- `ValueError(f"{label} entry does not belong to subject")` -/
  | notSubject (label : String)
deriving DecidableEq

/-- The bound on one sequence. -/
def requireBounded (label : String) (length : Nat) : Except FeedError Unit :=
  if length > maxItemsPerType then .error (.tooMany label) else .ok ()

def requireSubject (label entryUserId entryTenantId subjectUserId subjectTenantId : String) :
    Except FeedError Unit :=
  if entryUserId ≠ subjectUserId ∨ entryTenantId ≠ subjectTenantId then .error (.notSubject label) else .ok ()

/-- `max(0, min(limit, MAX_FEED_LIMIT))` -/
def boundedLimit (limit : Int) : Nat := (max 0 (min limit maxFeedLimit)).toNat

/-- The items of a kind, best first. -/
def queues (c : Components) : FeedItemKind → List FeedItem
  | .event => c.eventDiscoveries.map .event
  | .mentorship => c.mentorshipMatches.map .mentorship
  | .opportunity => c.opportunityMatches.map .opportunity
  | .peer => c.peerSuggestions.map .peer

/-- The checks of `compose_feed`. -/
def checkComponents (subjectUserId subjectTenantId : String) (c : Components) : Except FeedError Unit := do
  requireBounded "peer_suggestions" c.peerSuggestions.length
  requireBounded "event_discoveries" c.eventDiscoveries.length
  requireBounded "opportunity_matches" c.opportunityMatches.length
  requireBounded "mentorship_matches" c.mentorshipMatches.length
  c.peerSuggestions.forM fun s =>
    requireSubject "peer_suggestions" s.subjectUserId s.subjectTenantId subjectUserId subjectTenantId
  c.opportunityMatches.forM fun m =>
    requireSubject "opportunity_matches" m.subjectUserId m.subjectTenantId subjectUserId subjectTenantId
  c.mentorshipMatches.forM fun m =>
    requireSubject "mentorship_matches" m.menteeUserId m.menteeTenantId subjectUserId subjectTenantId

/-- The rounds of `compose_feed`. -/
def feedRounds (bound : Nat) (queues : FeedItemKind → List FeedItem) : Except (List FeedItem) (List FeedItem) :=
  (List.range (longest (feedTypeOrder.map queues))).foldlM (fun feed r =>
    feedTypeOrder.foldlM (fun feed kind =>
      match (queues kind)[r]? with
      | some item => push bound feed item
      | none => .ok feed) feed) []

def composeFeed (subjectUserId subjectTenantId : String) (c : Components) (limit : Int) :
    Except FeedError (List FeedItem) := do
  checkComponents subjectUserId subjectTenantId c
  return RoundRobin.outcome (feedRounds (boundedLimit limit) (queues c))

/-! ## the law -/

/-- The lists are within bounds, and their entries belong to the subject. -/
structure Components.Valid (subjectUserId subjectTenantId : String) (c : Components) : Prop where
  peers : c.peerSuggestions.length ≤ maxItemsPerType
  events : c.eventDiscoveries.length ≤ maxItemsPerType
  opportunities : c.opportunityMatches.length ≤ maxItemsPerType
  mentorships : c.mentorshipMatches.length ≤ maxItemsPerType
  peersOwn : ∀ s ∈ c.peerSuggestions, s.subjectUserId = subjectUserId ∧ s.subjectTenantId = subjectTenantId
  opportunitiesOwn :
    ∀ m ∈ c.opportunityMatches, m.subjectUserId = subjectUserId ∧ m.subjectTenantId = subjectTenantId
  mentorshipsOwn : ∀ m ∈ c.mentorshipMatches, m.menteeUserId = subjectUserId ∧ m.menteeTenantId = subjectTenantId

def interleaving (c : Components) : List FeedItem := turns (feedTypeOrder.map (queues c))

/-- The number of all the items -/
def Components.total (c : Components) : Nat :=
  c.eventDiscoveries.length + c.mentorshipMatches.length + c.opportunityMatches.length + c.peerSuggestions.length

theorem requireBounded_eq_ok {label : String} {length : Nat} :
    requireBounded label length = .ok () ↔ length ≤ maxItemsPerType := by
  unfold requireBounded
  split <;> simp <;> omega

theorem requireSubject_eq_ok {label userId tenantId subjectUserId subjectTenantId : String} :
    requireSubject label userId tenantId subjectUserId subjectTenantId = .ok () ↔
      userId = subjectUserId ∧ tenantId = subjectTenantId := by
  unfold requireSubject
  split <;> simp <;> tauto

variable {subjectUserId subjectTenantId : String} {c : Components} {limit : Int}

theorem checkComponents_eq_ok :
    checkComponents subjectUserId subjectTenantId c = .ok () ↔ c.Valid subjectUserId subjectTenantId := by
  unfold checkComponents
  simp only [Raising.check_bind_eq_ok, Raising.forM_eq_ok, requireBounded_eq_ok, requireSubject_eq_ok]
  constructor
  · intro h
    exact ⟨h.1, h.2.1, h.2.2.1, h.2.2.2.1, h.2.2.2.2.1, h.2.2.2.2.2.1, h.2.2.2.2.2.2⟩
  · intro h
    exact ⟨h.peers, h.events, h.opportunities, h.mentorships, h.peersOwn, h.opportunitiesOwn, h.mentorshipsOwn⟩

theorem feedRounds_eq (bound : Nat) (queues : FeedItemKind → List FeedItem) :
    feedRounds bound queues = (turns (feedTypeOrder.map queues)).foldlM (push bound) [] := by
  rw [turns, ← foldlM_foldlM]
  unfold feedRounds
  congr 1
  funext feed r
  rw [RoundRobin.round, List.filterMap_map, List.foldlM_filterMap]
  congr 1
  funext taken kind
  rw [Function.comp_apply]
  cases (queues kind)[r]? <;> rfl

theorem composeFeed_eq (h : c.Valid subjectUserId subjectTenantId) :
    composeFeed subjectUserId subjectTenantId c limit = .ok ((interleaving c).take (max 1 (boundedLimit limit))) := by
  rw [composeFeed, checkComponents_eq_ok.mpr h, feedRounds_eq]
  exact congrArg Except.ok (outcome_foldlM_push _ _ _)

theorem valid_of_composeFeed {feed : List FeedItem}
    (h : composeFeed subjectUserId subjectTenantId c limit = .ok feed) : c.Valid subjectUserId subjectTenantId := by
  obtain ⟨_, hcheck, _⟩ := Raising.bind_eq_ok.mp h
  exact checkComponents_eq_ok.mp hcheck

theorem length_interleaving (c : Components) : (interleaving c).length = c.total := by
  rw [interleaving, length_turns]
  simp [feedTypeOrder, queues, Components.total]
  omega

theorem filter_interleaving (c : Components) (kind : FeedItemKind) :
    (interleaving c).filter (fun item => item.kind = kind) = queues c kind := by
  have hkind (kind' : FeedItemKind) : ∀ item ∈ queues c kind', item.kind = kind' := by
    intro item h
    cases kind' <;> (simp only [queues, List.mem_map] at h; obtain ⟨_, -, rfl⟩ := h; rfl)
  have hother {kind' : FeedItemKind} (hne : kind' ≠ kind) :
      ∀ item ∈ queues c kind', decide (item.kind = kind) = false := by
    intro item h
    simp [hkind kind' item h, hne]
  obtain ⟨before, after, horder, hbefore, hafter⟩ : ∃ before after, feedTypeOrder = before ++ kind :: after ∧
      kind ∉ before ∧ kind ∉ after := by
    cases kind
    · exact ⟨[], [.mentorship, .opportunity, .peer], rfl, by decide, by decide⟩
    · exact ⟨[.event], [.opportunity, .peer], rfl, by decide, by decide⟩
    · exact ⟨[.event, .mentorship], [.peer], rfl, by decide, by decide⟩
    · exact ⟨[.event, .mentorship, .opportunity], [], rfl, by decide, by decide⟩
  rw [interleaving, horder, List.map_append, List.map_cons]
  refine filter_turns (fun item h => by simp [hkind kind item h]) ?_ ?_
  · simp only [List.forall_mem_map]
    exact fun kind' h => hother (ne_of_mem_of_not_mem h hbefore)
  · simp only [List.forall_mem_map]
    exact fun kind' h => hother (ne_of_mem_of_not_mem h hafter)

/-- What a feed for a limit should be. -/
structure FeedLaw (subjectUserId subjectTenantId : String) (c : Components) (limit : Int) (feed : List FeedItem) :
    Prop where
  firsts : feed = (interleaving c).take (boundedLimit limit)
  length : feed.length = min (boundedLimit limit) c.total
  kinds : ∀ kind, feed.filter (fun item => item.kind = kind) <+: queues c kind
  /-- No item is repeated. -/
  once : feed.Subperm (feedTypeOrder.map (queues c)).flatten
  /-- No item is lost before the bound. -/
  all : c.total ≤ boundedLimit limit → feed.Perm (feedTypeOrder.map (queues c)).flatten
  larger : ∀ limit' feed', limit ≤ limit' → composeFeed subjectUserId subjectTenantId c limit' = .ok feed' →
    feed <+: feed'

theorem boundedLimit_mono {limit limit' : Int} (h : limit ≤ limit') : boundedLimit limit ≤ boundedLimit limit' := by
  unfold boundedLimit
  omega

theorem feedLaw_take :
    FeedLaw subjectUserId subjectTenantId c limit ((interleaving c).take (boundedLimit limit)) where
  firsts := rfl
  length := by rw [List.length_take, length_interleaving]
  kinds kind := by
    rw [← filter_interleaving c kind]
    exact (List.take_prefix _ _).filter _
  once := (List.take_sublist _ _).subperm.trans (turns_perm _).subperm
  all h := by
    rw [List.take_of_length_le (by rwa [length_interleaving])]
    exact turns_perm _
  larger limit' feed' hle hfeed := by
    rw [composeFeed_eq (valid_of_composeFeed hfeed)] at hfeed
    obtain rfl := Except.ok.inj hfeed
    exact List.take_prefix_take_left ((boundedLimit_mono hle).trans (Nat.le_max_right _ _))

/-- The feed keeps the law exactly if the limit is not below one, or there is nothing to show. -/
theorem feedLaw_iff : (∃ feed, composeFeed subjectUserId subjectTenantId c limit = .ok feed ∧
      FeedLaw subjectUserId subjectTenantId c limit feed) ↔
    c.Valid subjectUserId subjectTenantId ∧ (1 ≤ limit ∨ c.total = 0) := by
  constructor
  · rintro ⟨feed, hfeed, law⟩
    have hvalid := valid_of_composeFeed hfeed
    refine ⟨hvalid, ?_⟩
    by_contra hlimit
    have hlength := law.length
    rw [composeFeed_eq hvalid] at hfeed
    rw [← Except.ok.inj hfeed, List.length_take, length_interleaving] at hlength
    have hzero : boundedLimit limit = 0 := by unfold boundedLimit; omega
    omega
  · rintro ⟨hvalid, hlimit⟩
    refine ⟨_, composeFeed_eq hvalid, ?_⟩
    have htake : (interleaving c).take (max 1 (boundedLimit limit)) = (interleaving c).take (boundedLimit limit) := by
      rcases hlimit with hlimit | htotal
      · have hpos : 1 ≤ boundedLimit limit := by unfold boundedLimit maxFeedLimit; omega
        rw [max_eq_right hpos]
      · rw [← length_interleaving, List.length_eq_zero_iff] at htotal
        simp [htotal]
    rw [htake]
    exact feedLaw_take

def sampleEvent : EventDiscoveryResult where
  eventId := "e"
  tenantId := "t"
  sessionId := "s"
  locality := "Lisbon"
  startsAt := DateTime.ofFields 2026 7 1 9 0 0 0 (by decide)
  matchedTopics := ["lean"]
  score := 1

def sampleComponents : Components where
  peerSuggestions := []
  eventDiscoveries := [sampleEvent]
  opportunityMatches := []
  mentorshipMatches := []

/-- With a limit of zero, one item is returned. -/
theorem feedLaw_fails : ¬ ∀ (u t : String) (c : Components) (limit : Int), c.Valid u t →
    ∃ feed, composeFeed u t c limit = .ok feed ∧ FeedLaw u t c limit feed := by
  intro h
  have hvalid : sampleComponents.Valid "u" "t" :=
    ⟨by decide, by decide, by decide, by decide, by simp [sampleComponents], by simp [sampleComponents],
      by simp [sampleComponents]⟩
  obtain ⟨feed, hfeed, law⟩ := h "u" "t" sampleComponents 0 hvalid
  have hone : composeFeed "u" "t" sampleComponents 0 = .ok [.event sampleEvent] := by decide
  rw [hone] at hfeed
  have hlength := law.length
  rw [← Except.ok.inj hfeed] at hlength
  exact absurd hlength (by decide)

end Anoryx.Rendly.DiscoveryFeed
