import Anoryx.Rendly.Scheduling

/-!
# Anoryx.Rendly.WorkspaceAnalytics

The report on a workspace (`workspace.py`, `platform_rbac.py`): `compute_workspace_analytics`
splits the sprints at an instant by three filters.

The minutes pass through a float (`total_seconds`), which is given.
-/

namespace Anoryx.Rendly.Scheduling

open Raising SingleTrack

/-! ## the report -/

inductive OrgRole
  | admin
  | member
  | guest
deriving DecidableEq

inductive PlatformPermission
  | manageTenantMembers
  | manageTenantChannels
  | viewTenantAuditLog
deriving DecidableEq

def orgRolePermissions : OrgRole → List PlatformPermission
  | .admin => [.manageTenantMembers, .manageTenantChannels, .viewTenantAuditLog]
  | .member => []
  | .guest => []

/-- What is read of a `Tenant` -/
structure Tenant where
  tenantId : String

/-- What is read of a `Profile` -/
structure Profile where
  tenantId : String
  orgRole : OrgRole

/-- What is read of a `Membership` -/
structure Membership where
  tenantId : String
  channelId : String

inductive AnalyticsError
  /-- `ValueError("cross-tenant actor rejected: …")` -/
  | crossTenantActor
  /-- `ValueError("cross-tenant permission resolution rejected: …")` -/
  | crossTenantResolution
  /-- `PermissionError("actor lacks PlatformPermission.VIEW_TENANT_AUDIT_LOG: …")` -/
  | permission
  /-- `ValueError("cross-tenant channel rejected: …")` -/
  | crossTenantChannel
  /-- `ValueError("as_of must be timezone-aware (UTC)")` -/
  | naive
  /-- `ValueError("memberships must not exceed 500 entries")` -/
  | tooManyMemberships
  /-- `ValueError("sprints must not exceed 50 entries")` -/
  | tooManySprints
  /-- `_require_same_workspace` -/
  | workspace (error : SchedulingError)
deriving DecidableEq

def resolvePlatformPermissions (tenant : Tenant) (profile : Profile) :
    Except AnalyticsError (List PlatformPermission) := do
  raiseIf (profile.tenantId ≠ tenant.tenantId) .crossTenantResolution
  return orgRolePermissions profile.orgRole

def hasPlatformPermission (tenant : Tenant) (profile : Profile) (permission : PlatformPermission) :
    Except AnalyticsError Bool := do
  let permissions ← resolvePlatformPermissions tenant profile
  return permissions.contains permission

def requireAnalyticsPermission (tenant : Tenant) (actor : Profile) : Except AnalyticsError Unit := do
  raiseIf (actor.tenantId ≠ tenant.tenantId) .crossTenantActor
  let permitted ← hasPlatformPermission tenant actor .viewTenantAuditLog
  raiseIf (permitted = false) .permission

def maxAnalyticsMembers : Nat := 500

structure WorkspaceAnalytics where
  channelId : String
  tenantId : String
  asOf : AwareDatetime
  memberCount : Nat
  sprintCount : Nat
  completedSprintCount : Nat
  activeSprint : Option Sprint
  upcomingSprint : Option Sprint
  totalScheduledMinutes : Int

/-- The key `(s.starts_at, s.sprint_id)` -/
def Sprint.key (s : Sprint) : Int ×ₗ String := toLex (s.startsAt.instant, s.sprintId)

/-- `sorted(…)[0]`, or `None` -/
def firstSprint (sprints : List Sprint) : Option Sprint := (sprints.insertionSort fun s s' => s.key ≤ s'.key).head?

/-- The three filters -/
def completed (sprints : List Sprint) (t : Int) : List Sprint := sprints.filter fun s => s.window.stop ≤ t

def activeCandidates (sprints : List Sprint) (t : Int) : List Sprint :=
  sprints.filter fun s => s.window.start ≤ t ∧ t < s.window.stop

def upcomingCandidates (sprints : List Sprint) (t : Int) : List Sprint := sprints.filter fun s => t < s.window.start

/-- A check of `workspace.py` -/
def inWorkspace (check : Except SchedulingError Unit) : Except AnalyticsError Unit := check.mapError .workspace

/-- The report of `compute_workspace_analytics`; `wholeMinutes d` is `int(d.total_seconds() // 60)`. -/
def workspaceReport (wholeMinutes : Int → Int) (channel : Channel) (memberships : List Membership)
    (sprints : List Sprint) (asOf : AwareDatetime) : WorkspaceAnalytics where
  channelId := channel.channelId
  tenantId := channel.tenantId
  asOf := asOf
  memberCount := memberships.length
  sprintCount := sprints.length
  completedSprintCount := (completed sprints asOf.instant).length
  activeSprint := firstSprint (activeCandidates sprints asOf.instant)
  upcomingSprint := firstSprint (upcomingCandidates sprints asOf.instant)
  totalScheduledMinutes := (sprints.map fun s => wholeMinutes (s.endsAt.instant - s.startsAt.instant)).sum

def computeWorkspaceAnalytics (wholeMinutes : Int → Int) (tenant : Tenant) (actor : Profile) (channel : Channel)
    (memberships : List Membership) (sprints : List Sprint) (asOf : PyDatetime) :
    Except AnalyticsError WorkspaceAnalytics := do
  requireAnalyticsPermission tenant actor
  raiseIf (channel.tenantId ≠ tenant.tenantId) .crossTenantChannel
  let asOf ← (requireAwareUtc asOf).elim (.error .naive) .ok
  raiseIf (memberships.length > maxAnalyticsMembers) .tooManyMemberships
  raiseIf (sprints.length > maxSprintsPerWorkspace) .tooManySprints
  memberships.forM fun m => inWorkspace (requireSameWorkspace channel m.tenantId m.channelId "membership")
  sprints.forM fun s => inWorkspace (requireSameWorkspace channel s.tenantId s.channelId "sprint")
  return workspaceReport wholeMinutes channel memberships sprints asOf

/-! ## the law -/

/-- Who may read the report of a workspace, and of what -/
structure Readable (tenant : Tenant) (actor : Profile) (channel : Channel) (memberships : List Membership)
    (sprints : List Sprint) : Prop where
  ownActor : actor.tenantId = tenant.tenantId
  admin : actor.orgRole = .admin
  ownChannel : channel.tenantId = tenant.tenantId
  fewMemberships : memberships.length ≤ maxAnalyticsMembers
  fewSprints : sprints.length ≤ maxSprintsPerWorkspace
  ownMemberships : ∀ m ∈ memberships, m.tenantId = channel.tenantId ∧ m.channelId = channel.channelId
  ownSprints : ∀ s ∈ sprints, s.tenantId = channel.tenantId ∧ s.channelId = channel.channelId

/-- What a report should say of the sprints at an instant -/
structure ReportLaw (sprints : List Sprint) (t : Int) (report : WorkspaceAnalytics) : Prop where
  sprintCount : report.sprintCount = sprints.length
  partition : report.completedSprintCount + (if report.activeSprint.isSome then 1 else 0) +
    (upcomingCandidates sprints t).length = report.sprintCount
  completed : report.completedSprintCount = (completed sprints t).length
  active : ∀ s, report.activeSprint = some s ↔ s ∈ sprints ∧ t ∈ s.window.instants
  upcoming : ∀ s, report.upcomingSprint = some s ↔ s ∈ sprints ∧ t < s.window.start ∧
    ∀ s' ∈ sprints, t < s'.window.start → s.window.start ≤ s'.window.start

theorem firstSprint_eq_none {sprints : List Sprint} : firstSprint sprints = none ↔ sprints = [] := by
  rw [firstSprint, List.head?_eq_none_iff, ← List.length_eq_zero_iff, List.length_insertionSort,
    List.length_eq_zero_iff]

variable {s : Sprint} {tenantId channelId label : String}

theorem firstSprint_spec {sprints : List Sprint} (h : firstSprint sprints = some s) :
    s ∈ sprints ∧ ∀ s' ∈ sprints, s.window.start ≤ s'.window.start := by
  obtain ⟨rest, hrest⟩ := List.head?_eq_some_iff.mp h
  have htotal : Std.Total fun s s' : Sprint => s.key ≤ s'.key := ⟨fun s s' => le_total s.key s'.key⟩
  have htrans : IsTrans Sprint fun s s' => s.key ≤ s'.key := ⟨fun _ _ _ => le_trans⟩
  have hsorted := List.pairwise_insertionSort (fun s s' : Sprint => s.key ≤ s'.key) sprints
  have hmem (s' : Sprint) : s' ∈ sprints ↔ s' ∈ s :: rest := by
    rw [← hrest, List.mem_insertionSort]
  rw [hrest, List.pairwise_cons] at hsorted
  refine ⟨(hmem s).mpr (by simp), fun s' h' => ?_⟩
  rcases List.mem_cons.mp ((hmem s').mp h') with rfl | h'
  · exact le_rfl
  · rcases Prod.Lex.le_iff.mp (hsorted.1 s' h') with hlt | heq
    · exact le_of_lt hlt
    · exact le_of_eq heq.1

variable {tenant : Tenant} {actor : Profile} {channel : Channel} {memberships : List Membership}
  {sprints : List Sprint} {wholeMinutes : Int → Int} {t : Int}

theorem firstSprint_eq_some {candidates : List Sprint} (hagenda : Agenda Sprint.window sprints)
    (hsub : ∀ s ∈ candidates, s ∈ sprints) :
    firstSprint candidates = some s ↔ s ∈ candidates ∧ ∀ s' ∈ candidates, s.window.start ≤ s'.window.start := by
  refine ⟨firstSprint_spec, fun ⟨hs, hfirst⟩ => ?_⟩
  cases hcase : firstSprint candidates with
  | none => simp [firstSprint_eq_none.mp hcase] at hs
  | some s' =>
      obtain ⟨hs', hfirst'⟩ := firstSprint_spec hcase
      have hstart := le_antisymm (hfirst s' hs') (hfirst' s hs)
      rw [hagenda.eq_of_start (hsub s hs) (hsub s' hs') hstart]

theorem reportLaw_of_agenda (hagenda : Agenda Sprint.window sprints) (asOf : AwareDatetime) :
    ReportLaw sprints asOf.instant (workspaceReport wholeMinutes channel memberships sprints asOf) := by
  have hone : (activeCandidates sprints asOf.instant).length ≤ 1 := hagenda.length_current_le asOf.instant
  have hactive (s : Sprint) :
      s ∈ activeCandidates sprints asOf.instant ↔ s ∈ sprints ∧ asOf.instant ∈ s.window.instants := by
    simp [activeCandidates, Window.instants]
  have hupcoming (s : Sprint) :
      s ∈ upcomingCandidates sprints asOf.instant ↔ s ∈ sprints ∧ asOf.instant < s.window.start := by
    simp [upcomingCandidates]
  refine ⟨rfl, ?_, rfl, fun s => ?_, fun s => ?_⟩
  · have hsome : (if (firstSprint (activeCandidates sprints asOf.instant)).isSome then 1 else 0) =
        (activeCandidates sprints asOf.instant).length := by
      cases hcase : firstSprint (activeCandidates sprints asOf.instant) with
      | none => simp [firstSprint_eq_none.mp hcase]
      | some s =>
          have hpos := List.length_pos_of_mem (firstSprint_spec hcase).1
          simp
          omega
    show (completed sprints asOf.instant).length +
      (if (firstSprint (activeCandidates sprints asOf.instant)).isSome then 1 else 0) +
        (upcomingCandidates sprints asOf.instant).length = sprints.length
    rw [hsome]
    exact Agenda.partition sprints Sprint.window asOf.instant
  · rw [workspaceReport, firstSprint_eq_some hagenda fun s h => ((hactive s).mp h).1]
    constructor
    · exact fun h => (hactive s).mp h.1
    · intro h
      refine ⟨(hactive s).mpr h, fun s' h' => ?_⟩
      obtain ⟨hs', ht'⟩ := (hactive s').mp h'
      rw [hagenda.eq_of_mem h.1 hs' h.2 ht']
  · rw [workspaceReport, firstSprint_eq_some hagenda fun s h => ((hupcoming s).mp h).1]
    simp only [hupcoming, and_imp, and_assoc]

theorem requireAnalyticsPermission_eq_ok : requireAnalyticsPermission tenant actor = .ok () ↔
    actor.tenantId = tenant.tenantId ∧ actor.orgRole = .admin := by
  rw [requireAnalyticsPermission, check_bind_eq_ok, raiseIf_eq_ok, not_not]
  refine and_congr_right fun htenant => ?_
  have hresolve : resolvePlatformPermissions tenant actor = .ok (orgRolePermissions actor.orgRole) := by
    simp [resolvePlatformPermissions, raiseIf, htenant]
  rw [hasPlatformPermission, hresolve]
  cases actor.orgRole <;> simp [orgRolePermissions, raiseIf, bind, Except.bind, pure, Except.pure]

theorem requireSameWorkspace_eq_ok :
    requireSameWorkspace channel tenantId channelId label = .ok () ↔
      tenantId = channel.tenantId ∧ channelId = channel.channelId := by
  simp [requireSameWorkspace, raiseIf_eq_ok]

theorem inWorkspace_eq_ok :
    inWorkspace (requireSameWorkspace channel tenantId channelId label) = .ok () ↔
      tenantId = channel.tenantId ∧ channelId = channel.channelId := by
  rw [← requireSameWorkspace_eq_ok, inWorkspace]
  cases requireSameWorkspace channel tenantId channelId label <;> simp [Except.mapError]

theorem computeWorkspaceAnalytics_eq_ok {asOf : PyDatetime} {report : WorkspaceAnalytics} :
    computeWorkspaceAnalytics wholeMinutes tenant actor channel memberships sprints asOf = .ok report ↔
      Readable tenant actor channel memberships sprints ∧ ∃ asOf', requireAwareUtc asOf = some asOf' ∧
        workspaceReport wholeMinutes channel memberships sprints asOf' = report := by
  unfold computeWorkspaceAnalytics
  rw [check_bind_eq_ok, check_bind_eq_ok, bind_eq_ok]
  simp only [check_bind_eq_ok, forM_eq_ok, raiseIf_eq_ok, inWorkspace_eq_ok, requireAnalyticsPermission_eq_ok,
    not_not, not_lt, pure, Except.pure, Except.ok.injEq]
  constructor
  · rintro ⟨⟨hactor, hadmin⟩, hchannel, asOf', hasOf, hfewM, hfewS, hownM, hownS, hreport⟩
    refine ⟨⟨hactor, hadmin, hchannel, hfewM, hfewS, hownM, hownS⟩, asOf', ?_, hreport⟩
    cases h : requireAwareUtc asOf <;> simp_all
  · rintro ⟨h, asOf', hasOf, hreport⟩
    exact ⟨⟨h.ownActor, h.admin⟩, h.ownChannel, asOf', by simp [hasOf], h.fewMemberships, h.fewSprints,
      h.ownMemberships, h.ownSprints, hreport⟩

/-! ## the tracks -/

/-- What the report on a workspace should be, whenever it is asked for -/
structure AnalyticsLaw (wholeMinutes : Int → Int) (tenant : Tenant) (actor : Profile) (channel : Channel)
    (memberships : List Membership) (sprints : List Sprint) : Prop where
  law : ∀ asOf report,
    computeWorkspaceAnalytics wholeMinutes tenant actor channel memberships sprints asOf = .ok report →
      ∃ asOf', requireAwareUtc asOf = some asOf' ∧ ReportLaw sprints asOf'.instant report
  given : actor.tenantId = tenant.tenantId → actor.orgRole = .admin → channel.tenantId = tenant.tenantId →
    memberships.length ≤ maxAnalyticsMembers →
      (∀ m ∈ memberships, m.tenantId = channel.tenantId ∧ m.channelId = channel.channelId) →
        ∀ asOf, (requireAwareUtc asOf).isSome → ∃ report,
          computeWorkspaceAnalytics wholeMinutes tenant actor channel memberships sprints asOf = .ok report

theorem own_of_mem_sprints {calls : List SprintCall} (h : s ∈ agendaAfter (scheduleSprint channel) calls) :
    s.tenantId = channel.tenantId ∧ s.channelId = channel.channelId := by
  have hown (call : SprintCall) (e : Sprint) (he : newSprint channel call = .ok e) :
      requireSameWorkspace channel e.tenantId e.channelId "existing sprint" = .ok () :=
    requireSameWorkspace_eq_ok.mpr (newSprint_own he)
  exact requireSameWorkspace_eq_ok.mp
    ((agendaAfter_scheduleOn maxSprintsPerWorkspace SchedulingError.full SchedulingError.overlap Sprint.window
      hown calls).2.2 s h)

/-- Sessions and sprints keep their tracks, and every report on the sprints keeps its law. -/
theorem single_track (wholeMinutes : Int → Int) :
    (∀ event calls, Track (scheduleSession event) EventSession.window maxSessionsPerEvent
      (fun call => titleOk call.title = true ∧ capacityOk call.capacity = true)
      (fun call => askedWindow call.startsAt call.endsAt) calls) ∧
    (∀ channel calls, Track (scheduleSprint channel) Sprint.window maxSprintsPerWorkspace
      (fun call => titleOk call.title = true) (fun call => askedWindow call.startsAt call.endsAt) calls) ∧
    ∀ tenant actor channel memberships calls sprints, sprints.Perm (agendaAfter (scheduleSprint channel) calls) →
      AnalyticsLaw wholeMinutes tenant actor channel memberships sprints := by
  refine ⟨sessions_track, sprints_track, ?_⟩
  intro tenant actor channel memberships calls sprints hperm
  have htrack := sprints_track channel calls
  constructor
  · intro asOf report h
    obtain ⟨-, asOf', hasOf, rfl⟩ := computeWorkspaceAnalytics_eq_ok.mp h
    exact ⟨asOf', hasOf, reportLaw_of_agenda (htrack.disjoint.perm hperm.symm) asOf'⟩
  · intro hactor hadmin hchannel hfew hmemberships asOf hasOf
    obtain ⟨asOf', hasOf⟩ := Option.isSome_iff_exists.mp hasOf
    refine ⟨_, computeWorkspaceAnalytics_eq_ok.mpr ⟨⟨hactor, hadmin, hchannel, hfew, ?_, hmemberships, ?_⟩,
      asOf', hasOf, rfl⟩⟩
    · rw [hperm.length_eq]
      exact htrack.bounded
    · exact fun s hs => own_of_mem_sprints (hperm.mem_iff.mp hs)

def sampleChannel : Channel := ⟨"c", "t"⟩

def sampleSprints : List SprintCall :=
  [⟨"s1", "first", ⟨0, some 0⟩, ⟨10, some 0⟩⟩, ⟨"s2", "second", ⟨10, some 0⟩, ⟨20, some 0⟩⟩]

theorem single_track_sample : AnalyticsLaw (fun d => d / 60000000) ⟨"t"⟩ ⟨"t", .admin⟩ sampleChannel []
    (agendaAfter (scheduleSprint sampleChannel) sampleSprints).reverse :=
  (single_track fun d => d / 60000000).2.2 _ _ _ _ _ _ (List.reverse_perm _)

/-- A free window is refused to a session without a title. -/
theorem sessions_track_untitled : ¬ ∀ event calls, Track (scheduleSession event) EventSession.window
    maxSessionsPerEvent (fun _ => True) (fun call => askedWindow call.startsAt call.endsAt) calls := by
  intro h
  obtain ⟨s, hs⟩ := ((h ⟨"e", "t"⟩ []).accepts ⟨"s", "", ⟨0, some 0⟩, ⟨10, some 0⟩, 8⟩).mpr
    ⟨trivial, by decide, ⟨0, 10, by decide⟩, rfl, by simp [agendaAfter]⟩
  have hrefused : scheduleSession ⟨"e", "t"⟩ (agendaAfter (scheduleSession ⟨"e", "t"⟩) [])
      ⟨"s", "", ⟨0, some 0⟩, ⟨10, some 0⟩, 8⟩ = .error (.invalid [.title]) := rfl
  rw [hrefused] at hs
  simp at hs

end Anoryx.Rendly.Scheduling
