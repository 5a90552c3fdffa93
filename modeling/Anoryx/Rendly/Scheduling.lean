import Anoryx.SingleTrack

/-!
# Anoryx.Rendly.Scheduling

The agendas of an event and of a workspace (`event.py`, `workspace.py`): `schedule_session` and
`schedule_sprint`, and what holds of every agenda that they build.

A datetime has a fixed offset, as the wire's have; two aware ones compare as instants.
-/

namespace Anoryx.Rendly.Scheduling

open Raising SingleTrack

/-! ## datetimes -/

/-- A `datetime`: what it reads, in microseconds, and its offset unless it is naive. -/
structure PyDatetime where
  reading : Int
  utcoffset : Option Int
deriving DecidableEq

/-- An aware `datetime` -/
structure AwareDatetime where
  reading : Int
  utcoffset : Int
deriving DecidableEq

/-- What aware datetimes are compared and subtracted by -/
def AwareDatetime.instant (d : AwareDatetime) : Int := d.reading - d.utcoffset

/-- `None`, where `require_aware_utc` raises -/
def requireAwareUtc (value : PyDatetime) : Option AwareDatetime :=
  value.utcoffset.map fun offset => ⟨value.reading, offset⟩

/-! ## errors -/

/-- What a model's validation finds; each names its field. -/
inductive Invalid
  /-- `title` is shorter than 1 or longer than 128. -/
  | title
  /-- `{field} must be timezone-aware (UTC)` -/
  | naive (field : String)
  /-- `capacity must be between 2 and 8 (a scheduled session is a R-011 group huddle; …)` -/
  | capacity
  /-- `ends_at must be strictly after starts_at` -/
  | endsNotAfterStarts
deriving DecidableEq

inductive SchedulingError
  /-- `ValueError("event must not exceed 50 sessions")`,
  `ValueError("existing_sprints must not exceed 50 entries")` -/
  | full
  /-- `ValueError("existing_sessions must all belong to the same event")` -/
  | otherEvent
  /-- `_require_same_workspace`, with its label -/
  | crossWorkspace (label : String)
  /-- `ValidationError` -/
  | invalid (problems : List Invalid)
  /-- `ValueError("session overlaps an existing session on this event's single-host agenda")`,
  `ValueError("sprint overlaps an existing sprint on this workspace's single-track agenda")` -/
  | overlap
deriving DecidableEq

/-- `StringConstraints(min_length=1, max_length=128)` -/
def titleOk (title : String) : Bool := 1 ≤ title.length ∧ title.length ≤ 128

/-- What the constraint on a title finds -/
def titleProblem (title : String) : List Invalid := if titleOk title then [] else [.title]

/-- What `_aware` finds -/
def awareProblem (field : String) (value : PyDatetime) : List Invalid :=
  if (requireAwareUtc value).isNone then [.naive field] else []

/-- Both ends, aware, and then `_ends_after_starts` -/
def requireWindow (startsAt endsAt : PyDatetime) :
    Except SchedulingError {w : AwareDatetime × AwareDatetime // w.1.instant < w.2.instant} :=
  match requireAwareUtc startsAt, requireAwareUtc endsAt with
  | some s, some e => if h : s.instant < e.instant then .ok ⟨(s, e), h⟩ else .error (.invalid [.endsNotAfterStarts])
  | _, _ => .error (.invalid (awareProblem "starts_at" startsAt ++ awareProblem "ends_at" endsAt))

/-! ## sessions of an event -/

def maxSessionCapacity : Int := 8

def minSessionCapacity : Int := 2

def capacityOk (capacity : Int) : Bool := minSessionCapacity ≤ capacity ∧ capacity ≤ maxSessionCapacity

def maxSessionsPerEvent : Nat := 50

/-- What is read of an `Event` -/
structure Event where
  eventId : String
  tenantId : String

structure EventSession where
  sessionId : String
  eventId : String
  tenantId : String
  title : String
  startsAt : AwareDatetime
  endsAt : AwareDatetime
  capacity : Int
  endsAfterStarts : startsAt.instant < endsAt.instant
  boundedCapacity : capacityOk capacity = true
  boundedTitle : titleOk title = true

def EventSession.window (s : EventSession) : Window Int := ⟨s.startsAt.instant, s.endsAt.instant, s.endsAfterStarts⟩

/-- The arguments of a call, and the id that `new_session_id` mints in it -/
structure SessionCall where
  sessionId : String
  title : String
  startsAt : PyDatetime
  endsAt : PyDatetime
  capacity : Int := maxSessionCapacity

/-- `EventSession(…)`: the window is looked at if all fields are right. -/
def newSession (event : Event) (call : SessionCall) : Except SchedulingError EventSession :=
  if hfields : titleOk call.title = true ∧ capacityOk call.capacity = true then do
    let w ← requireWindow call.startsAt call.endsAt
    return {
      sessionId := call.sessionId
      eventId := event.eventId
      tenantId := event.tenantId
      title := call.title
      startsAt := w.1.1
      endsAt := w.1.2
      capacity := call.capacity
      endsAfterStarts := w.2
      boundedCapacity := hfields.2
      boundedTitle := hfields.1 }
  else
    .error (.invalid (titleProblem call.title ++ awareProblem "starts_at" call.startsAt ++
      awareProblem "ends_at" call.endsAt ++ if capacityOk call.capacity then [] else [.capacity]))

def scheduleSession (event : Event) (existingSessions : List EventSession) (call : SessionCall) :
    Except SchedulingError EventSession :=
  scheduleOn maxSessionsPerEvent .full
    (fun s => raiseIf (s.eventId ≠ event.eventId ∨ s.tenantId ≠ event.tenantId) .otherEvent)
    .overlap EventSession.window existingSessions (newSession event call)

/-! ## sprints of a workspace -/

def maxSprintsPerWorkspace : Nat := 50

/-- What is read of a `Channel` -/
structure Channel where
  channelId : String
  tenantId : String

structure Sprint where
  sprintId : String
  channelId : String
  tenantId : String
  title : String
  startsAt : AwareDatetime
  endsAt : AwareDatetime
  endsAfterStarts : startsAt.instant < endsAt.instant
  boundedTitle : titleOk title = true

def Sprint.window (s : Sprint) : Window Int := ⟨s.startsAt.instant, s.endsAt.instant, s.endsAfterStarts⟩

/-- The arguments of a call, and the id that `new_sprint_id` mints in it -/
structure SprintCall where
  sprintId : String
  title : String
  startsAt : PyDatetime
  endsAt : PyDatetime

def requireSameWorkspace (channel : Channel) (otherTenantId otherChannelId label : String) :
    Except SchedulingError Unit :=
  raiseIf (otherTenantId ≠ channel.tenantId ∨ otherChannelId ≠ channel.channelId) (.crossWorkspace label)

/-- `Sprint(…)` -/
def newSprint (channel : Channel) (call : SprintCall) : Except SchedulingError Sprint :=
  if htitle : titleOk call.title = true then do
    let w ← requireWindow call.startsAt call.endsAt
    return {
      sprintId := call.sprintId
      channelId := channel.channelId
      tenantId := channel.tenantId
      title := call.title
      startsAt := w.1.1
      endsAt := w.1.2
      endsAfterStarts := w.2
      boundedTitle := htitle }
  else
    .error (.invalid (titleProblem call.title ++ awareProblem "starts_at" call.startsAt ++
      awareProblem "ends_at" call.endsAt))

def scheduleSprint (channel : Channel) (existingSprints : List Sprint) (call : SprintCall) :
    Except SchedulingError Sprint :=
  scheduleOn maxSprintsPerWorkspace .full
    (fun s => requireSameWorkspace channel s.tenantId s.channelId "existing sprint")
    .overlap Sprint.window existingSprints (newSprint channel call)

/-! ## what is accepted -/

/-- The window between two datetimes, if both are aware and it is not empty -/
def askedWindow (startsAt endsAt : PyDatetime) : Option (Window Int) := do
  let s ← requireAwareUtc startsAt
  let e ← requireAwareUtc endsAt
  if h : s.instant < e.instant then some ⟨s.instant, e.instant, h⟩ else none

variable {startsAt endsAt : PyDatetime} {w : Window Int} {event : Event} {call : SessionCall} {channel : Channel}

theorem askedWindow_eq_some :
    askedWindow startsAt endsAt = some w ↔ ∃ s e, requireAwareUtc startsAt = some s ∧
      requireAwareUtc endsAt = some e ∧ w.start = s.instant ∧ w.stop = e.instant := by
  obtain ⟨start, stop, hlt⟩ := w
  simp only [askedWindow, Option.bind_eq_bind, Option.bind_eq_some_iff, Option.dite_none_right_eq_some,
    Option.some.injEq, Window.mk.injEq]
  constructor
  · rintro ⟨s, hs, e, he, -, hstart, hstop⟩
    exact ⟨s, e, hs, he, hstart.symm, hstop.symm⟩
  · rintro ⟨s, e, hs, he, rfl, rfl⟩
    exact ⟨s, hs, e, he, hlt, rfl, rfl⟩

theorem requireWindow_eq_ok {w : {w : AwareDatetime × AwareDatetime // w.1.instant < w.2.instant}} :
    requireWindow startsAt endsAt = .ok w ↔
      requireAwareUtc startsAt = some w.1.1 ∧ requireAwareUtc endsAt = some w.1.2 := by
  unfold requireWindow
  split
  · next s e hs he =>
      rw [hs, he]
      obtain ⟨⟨s', e'⟩, hlt⟩ := w
      split
      · next h => simp
      · next h =>
          simp only [reduceCtorEq, Option.some.injEq, false_iff, not_and]
          rintro rfl rfl
          exact h hlt
  · next h =>
      simp only [reduceCtorEq, false_iff, not_and]
      exact fun hs he => h _ _ hs he

theorem exists_requireWindow :
    (∃ ends, requireWindow startsAt endsAt = .ok ends ∧
      (⟨ends.1.1.instant, ends.1.2.instant, ends.2⟩ : Window Int) = w) ↔ askedWindow startsAt endsAt = some w := by
  simp only [askedWindow_eq_some, requireWindow_eq_ok]
  constructor
  · rintro ⟨ends, ⟨hs, he⟩, rfl⟩
    exact ⟨_, _, hs, he, rfl, rfl⟩
  · rintro ⟨s, e, hs, he, hstart, hstop⟩
    exact ⟨⟨(s, e), hstart ▸ hstop ▸ w.start_lt⟩, ⟨hs, he⟩, Window.ext hstart.symm hstop.symm⟩

theorem newSession_window :
    (∃ s, newSession event call = .ok s ∧ s.window = w) ↔
      (titleOk call.title = true ∧ capacityOk call.capacity = true) ∧
        askedWindow call.startsAt call.endsAt = some w := by
  rw [← exists_requireWindow]
  unfold newSession
  split
  · next hfields =>
      simp only [bind_eq_ok, hfields, and_self, true_and]
      constructor
      · rintro ⟨_, ⟨ends, hends, hok⟩, rfl⟩
        exact ⟨ends, hends, by rw [← Except.ok.inj hok]; rfl⟩
      · rintro ⟨ends, hends, hw⟩
        exact ⟨_, ⟨ends, hends, rfl⟩, hw⟩
  · next hfields => simp [hfields]

theorem newSession_own {s : EventSession} (h : newSession event call = .ok s) :
    s.eventId = event.eventId ∧ s.tenantId = event.tenantId := by
  unfold newSession at h
  split at h
  · obtain ⟨_, -, hok⟩ := bind_eq_ok.mp h
    obtain rfl := Except.ok.inj hok
    exact ⟨rfl, rfl⟩
  · simp at h

theorem sessions_track (event : Event) (calls : List SessionCall) :
    Track (scheduleSession event) EventSession.window maxSessionsPerEvent
      (fun call => titleOk call.title = true ∧ capacityOk call.capacity = true)
      (fun call => askedWindow call.startsAt call.endsAt) calls :=
  track_of_scheduleOn (fun _ _ h => by simp [raiseIf_eq_ok, newSession_own h]) (fun _ _ => newSession_window) calls

theorem newSprint_window {call : SprintCall} :
    (∃ s, newSprint channel call = .ok s ∧ s.window = w) ↔
      titleOk call.title = true ∧ askedWindow call.startsAt call.endsAt = some w := by
  rw [← exists_requireWindow]
  unfold newSprint
  split
  · next htitle =>
      simp only [bind_eq_ok, htitle, true_and]
      constructor
      · rintro ⟨_, ⟨ends, hends, hok⟩, rfl⟩
        exact ⟨ends, hends, by rw [← Except.ok.inj hok]; rfl⟩
      · rintro ⟨ends, hends, hw⟩
        exact ⟨_, ⟨ends, hends, rfl⟩, hw⟩
  · next htitle => simp [htitle]

theorem newSprint_own {call : SprintCall} {s : Sprint} (h : newSprint channel call = .ok s) :
    s.tenantId = channel.tenantId ∧ s.channelId = channel.channelId := by
  unfold newSprint at h
  split at h
  · obtain ⟨_, -, hok⟩ := bind_eq_ok.mp h
    obtain rfl := Except.ok.inj hok
    exact ⟨rfl, rfl⟩
  · simp at h

theorem sprints_track (channel : Channel) (calls : List SprintCall) :
    Track (scheduleSprint channel) Sprint.window maxSprintsPerWorkspace (fun call => titleOk call.title = true)
      (fun call => askedWindow call.startsAt call.endsAt) calls :=
  track_of_scheduleOn (fun _ _ h => by simp [requireSameWorkspace, raiseIf_eq_ok, newSprint_own h])
    (fun _ _ => newSprint_window) calls

end Anoryx.Rendly.Scheduling
