import Anoryx.Sentinel.RateLimit

/-!
# Anoryx.Sentinel.StreamSlots

The slots for concurrent streams of the rate limiter (`gateway/middleware/rate_limit.py`):
`check_rate_limit` takes a slot when it admits a stream, `stream_slot` gives it back when
the stream ends.  A slot is counted in Redis, or in the process of the worker when Redis
is degraded there (`gateway/redis_client.py`).

The system is any number of workers that share one Redis.  Each command to Redis is a
step of its own and may fail, with or without having been executed; the health loop
turns a worker's flag at any point.  The verdict of the sliding windows of Redis
(`Anoryx.Sentinel.RateLimit`) is taken as it comes.
-/

namespace Anoryx.Sentinel

open Function System

/-! ## the in-process limiter -/

/-- The state of the in-process limiter, with times in microseconds.  A key without an
entry in `_key_windows` has an empty window. -/
structure InProcess where
  keyWindows : String → List Int
  tenantWindows : String → List Int
  streamCounters : String → Option Int

/-- What `_legacy_check_rate_limit` reads of the clocks. -/
structure LegacyReads where
  now : Int
  epochNow : Int
  pruneNow : Int

def evictOldEntries (now : Int) (window : List Int) : List Int :=
  window.dropWhile fun t => t < now - 60000000

def pruneEmptyWindows (now : Int) (st : InProcess) : InProcess :=
  { st with
    keyWindows := fun key => evictOldEntries now (st.keyWindows key)
    tenantWindows := fun tenant => evictOldEntries now (st.tenantWindows tenant) }

/-- The entries of the last second. -/
def burstCount (now : Int) (window : List Int) : Nat :=
  (window.filter fun t => now - 1000000 ≤ t).length

/-- The slots of a tenant that the process counts. -/
def InProcess.streams (st : InProcess) (tenantId : String) : Int :=
  (st.streamCounters tenantId).getD 0

/-- `_legacy_check_rate_limit`: all of it under the lock. -/
def legacyCheckRateLimit (lim : RateLimits) (reads : LegacyReads) (req : AdmissionRequest)
    (st : InProcess) : Except GatewayError (Int × Int × Int) × InProcess :=
  let keyWindow := evictOldEntries reads.now (st.keyWindows req.virtualKeyId)
  let tenantWindow := evictOldEntries reads.now (st.tenantWindows req.tenantId)
  let st := { st with
    keyWindows := update st.keyWindows req.virtualKeyId keyWindow
    tenantWindows := update st.tenantWindows req.tenantId tenantWindow }
  if lim.rpm ≤ keyWindow.length ∨ lim.rpm ≤ tenantWindow.length ∨
      lim.burst ≤ burstCount reads.now keyWindow ∨ lim.burst ≤ burstCount reads.now tenantWindow then
    let oldest := min (keyWindow.headD reads.now) (tenantWindow.headD reads.now)
    let retryAfter := max 1 ((60000000 - (reads.now - oldest)).tdiv 1000000 + 1)
    (.error ⟨"rate_limit_exceeded", retryAfter.toNat⟩, st)
  else if req.isStream ∧ lim.maxStreams ≤ st.streams req.tenantId then
    (.error ⟨"rate_limit_exceeded", 5⟩, st)
  else
    let streamCounters := if req.isStream then
        update st.streamCounters req.tenantId (some (st.streams req.tenantId + 1))
      else st.streamCounters
    let st := pruneEmptyWindows reads.pruneNow
      { keyWindows := update st.keyWindows req.virtualKeyId (keyWindow ++ [reads.now])
        tenantWindows := update st.tenantWindows req.tenantId (tenantWindow ++ [reads.now])
        streamCounters }
    (.ok (lim.rpm, max 0 (lim.rpm - (st.keyWindows req.virtualKeyId).length), reads.epochNow + 60), st)

/-- The in-process part of `stream_slot`; a tenant without an entry counts as one. -/
def releaseInProcess (tenantId : String) (st : InProcess) : InProcess :=
  let newCount := max 0 ((st.streamCounters tenantId).getD 1 - 1)
  { st with
    streamCounters := update st.streamCounters tenantId
      (if newCount = 0 then none else some newCount) }

/-- The entries of `_stream_counters` are positive. -/
def InProcess.Positive (st : InProcess) : Prop :=
  ∀ tenantId n, st.streamCounters tenantId = some n → 0 < n

variable {st st' : InProcess} {tenantId tenantId' a b : String} {n : Option Int} {lim : RateLimits}
  {r r' : ActiveRequest} {phase : Phase} {w w' : Worker} {redis redis' : Redis} {request : AdmissionRequest}
  {worker i : Nat} {s s' : System} {p q : ActiveRequest → Bool}

theorem InProcess.Positive.streams_nonneg (h : st.Positive) (tenantId : String) : 0 ≤ st.streams tenantId := by
  unfold InProcess.streams
  cases hn : st.streamCounters tenantId with
  | none => simp
  | some n => simpa using (h tenantId n hn).le

theorem InProcess.Positive.eq_none (h : st.Positive) (hzero : st.streams tenantId = 0) :
    st.streamCounters tenantId = none := by
  cases hn : st.streamCounters tenantId with
  | none => rfl
  | some n =>
      have hpos := h tenantId n hn
      simp [InProcess.streams, hn] at hzero
      omega

theorem legacyCheckRateLimit_cases (lim : RateLimits) (reads : LegacyReads) (req : AdmissionRequest)
    (st : InProcess) :
    (∃ error st', legacyCheckRateLimit lim reads req st = (.error error, st') ∧
      st'.streamCounters = st.streamCounters) ∨
    (∃ result st', legacyCheckRateLimit lim reads req st = (.ok result, st') ∧ req.isStream = false ∧
      st'.streamCounters = st.streamCounters) ∨
    (∃ result st', legacyCheckRateLimit lim reads req st = (.ok result, st') ∧ req.isStream = true ∧
      st.streams req.tenantId < lim.maxStreams ∧
      st'.streamCounters =
        update st.streamCounters req.tenantId (some (st.streams req.tenantId + 1))) := by
  unfold legacyCheckRateLimit
  dsimp only
  split
  · exact .inl ⟨_, _, rfl, rfl⟩
  · split
    · exact .inl ⟨_, _, rfl, rfl⟩
    · rename_i hstream
      cases h : req.isStream with
      | false => exact .inr (.inl ⟨_, _, rfl, rfl, by simp [pruneEmptyWindows]⟩)
      | true =>
          refine .inr (.inr ⟨_, _, rfl, rfl, ?_, by simp [pruneEmptyWindows, InProcess.streams]⟩)
          rw [h] at hstream
          simpa [InProcess.streams] using hstream

theorem streams_of_ne {counters : String → Option Int}
    (hcounters : counters = update st.streamCounters tenantId n) (h : tenantId' ≠ tenantId) (st' : InProcess)
    (hst' : st'.streamCounters = counters) : st'.streams tenantId' = st.streams tenantId' := by
  simp [InProcess.streams, hst', hcounters, h]

theorem positive_update (h : st.Positive) (hst' : st'.streamCounters = update st.streamCounters tenantId n)
    (hn : ∀ m, n = some m → 0 < m) : st'.Positive := by
  intro tenantId' m hm
  rw [hst'] at hm
  by_cases he : tenantId' = tenantId
  · rw [he, update_self] at hm
    exact hn m hm
  · rw [update_of_ne he] at hm
    exact h tenantId' m hm

theorem streams_releaseInProcess (h : 1 ≤ st.streams tenantId) :
    (releaseInProcess tenantId st).streams tenantId = st.streams tenantId - 1 := by
  unfold InProcess.streams at h
  cases hn : st.streamCounters tenantId with
  | none => simp [hn] at h
  | some n =>
      simp only [hn, Option.getD_some] at h
      simp only [InProcess.streams, releaseInProcess, hn, update_self, Option.getD_some]
      split <;> simp <;> omega

/-! ## the system -/

namespace StreamSlots

/-- What becomes of a command to Redis: it is answered, it is executed and the answer is
lost, or it is not executed. -/
inductive Reply where
  | answered
  | lost
  | dropped
deriving DecidableEq

/-- Where a slot is counted. -/
inductive Backend where
  | redis
  | inProcess
deriving DecidableEq

/-- A worker: `_redis_degraded`, whether there is a pool, and the in-process limiter. -/
structure Worker where
  degraded : Bool
  pool : Bool
  limiter : InProcess

/-- How far a request has come. -/
inductive Phase where
  /-- `check_rate_limit` is next -/
  | arrived
  /-- the windows of Redis are next -/
  | windows
  /-- the `INCR` of the stream key is next -/
  | incr
  /-- over the cap: the `DECR` that undoes the `INCR` is next -/
  | undo
  /-- the in-process limiter is next -/
  | fallback
  /-- admitted, with a slot -/
  | held (backend : Backend)
  /-- `stream_slot` is at the `DECR` -/
  | decr
  /-- `stream_slot` is at the `DELETE` -/
  | delete
  /-- `stream_slot` is at the in-process counter -/
  | giveBack
  /-- the request is through, or was rejected -/
  | done
deriving DecidableEq

/-- A request in a worker. -/
structure ActiveRequest where
  request : AdmissionRequest
  worker : Nat
  phase : Phase

/-- What the next step of a request meets. -/
inductive Action where
  /-- `check_rate_limit` reads the flag -/
  | check
  /-- the verdict of the windows; `none` if Redis fails -/
  | windows (verdict : Option Bool)
  | incr (reply : Reply)
  | undo (reply : Reply)
  | fallback (reads : LegacyReads)
  /-- the stream ends, `stream_slot` reads the flag and the pool -/
  | finish
  | decr (reply : Reply)
  | delete (reply : Reply)
  | giveBack

/-- The counter of a stream key after a command. -/
def Reply.apply (reply : Reply) (redis : Redis) (key : String) (value : Int) : Redis :=
  match reply with
  | .dropped => redis
  | .answered | .lost => { redis with counters := update redis.counters key value }

/-- Where `stream_slot` gives a slot back. -/
def Worker.releases (w : Worker) : Backend :=
  if w.degraded then .inProcess else if w.pool then .redis else .inProcess

def Worker.handleRedisError (w : Worker) : Worker := { w with degraded := true }

def ActiveRequest.step (lim : RateLimits) (r : ActiveRequest) (w : Worker) (redis : Redis)
    (action : Action) : Option (ActiveRequest × Worker × Redis) :=
  let key := r.request.streamKey
  match r.phase, action with
  | .arrived, .check =>
      some ({ r with phase := if w.degraded then .fallback else .windows }, w, redis)
  | .windows, .windows verdict =>
      -- without a pool `_redis_primary_check` raises what a failing Redis raises
      match if w.pool then verdict else none with
      | none => some ({ r with phase := .fallback }, w.handleRedisError, redis)
      | some false => some ({ r with phase := .done }, w, redis)
      | some true => some ({ r with phase := if r.request.isStream then .incr else .done }, w, redis)
  | .incr, .incr reply =>
      let current := redis.counters key + 1
      let redis := reply.apply redis key current
      if reply = .answered then
        some ({ r with phase := if lim.maxStreams < current then .undo else .held .redis }, w, redis)
      else some ({ r with phase := .fallback }, w.handleRedisError, redis)
  | .undo, .undo reply =>
      let redis := reply.apply redis key (redis.counters key - 1)
      if reply = .answered then some ({ r with phase := .done }, w, redis)
      else some ({ r with phase := .fallback }, w.handleRedisError, redis)
  | .fallback, .fallback reads =>
      match legacyCheckRateLimit lim reads r.request w.limiter with
      | (.error _, limiter) => some ({ r with phase := .done }, { w with limiter }, redis)
      | (.ok _, limiter) =>
          some ({ r with phase := if r.request.isStream then .held .inProcess else .done },
            { w with limiter }, redis)
  | .held _, .finish =>
      some ({ r with phase := if w.releases = .redis then .decr else .giveBack }, w, redis)
  | .decr, .decr reply =>
      let val := redis.counters key - 1
      some ({ r with phase := if reply = .answered ∧ val ≤ 0 then .delete else .done }, w,
        reply.apply redis key val)
  | .delete, .delete reply => some ({ r with phase := .done }, w, reply.apply redis key 0)
  | .giveBack, .giveBack =>
      some ({ r with phase := .done },
        { w with limiter := releaseInProcess r.request.tenantId w.limiter }, redis)
  | _, _ => none

structure System where
  redis : Redis
  workers : Nat → Worker
  requests : List ActiveRequest

inductive Event where
  /-- a request reaches a worker -/
  | arrive (worker : Nat) (request : AdmissionRequest)
  /-- the health loop turns the flag -/
  | health (worker : Nat) (degraded : Bool)
  /-- `init` and `shutdown` -/
  | pool (worker : Nat) (pool : Bool)
  /-- a request goes on -/
  | go (i : Nat) (action : Action)

def System.step (lim : RateLimits) (s : System) : Event → Option System
  | .arrive worker request => some { s with requests := s.requests ++ [⟨request, worker, .arrived⟩] }
  | .health worker degraded =>
      some { s with workers := update s.workers worker { s.workers worker with degraded } }
  | .pool worker pool =>
      some { s with workers := update s.workers worker { s.workers worker with pool } }
  | .go i action => do
      let r ← s.requests[i]?
      let (r', w', redis) ← r.step lim (s.workers r.worker) s.redis action
      pure ⟨redis, update s.workers r.worker w', s.requests.set i r'⟩

/-- The steps of a run. -/
def System.run (lim : RateLimits) : System → List Event → Option System
  | s, [] => some s
  | s, e :: events => do
      let s ← s.step lim e
      s.run lim events

/-! ## the condition -/

/-- A step of a request that keeps the slots in order: a slot is given back where it is
counted, no `INCR` takes effect without its answer, every `DECR` takes effect, and a
`DELETE` finds the counter at zero. -/
def ActiveRequest.Clean (r : ActiveRequest) (w : Worker) (redis : Redis) : Action → Prop
  | .finish => r.phase = .held w.releases
  | .incr reply => reply ≠ .lost
  | .undo reply => reply ≠ .dropped
  | .decr reply => reply ≠ .dropped
  | .delete reply => reply ≠ .dropped → redis.counters r.request.streamKey ≤ 0
  | _ => True

def System.Clean (s : System) : Event → Prop
  | .go i action => ∀ r ∈ s.requests[i]?, r.Clean (s.workers r.worker) s.redis action
  | _ => True

/-- Every step of the run is clean. -/
def System.CleanRun (lim : RateLimits) : System → List Event → Prop
  | _, [] => True
  | s, e :: events => s.Clean e ∧ ∀ s' ∈ s.step lim e, s'.CleanRun lim events

instance (r : ActiveRequest) (w : Worker) (redis : Redis) : DecidablePred (r.Clean w redis)
  | .finish => inferInstanceAs (Decidable (r.phase = _))
  | .incr reply => inferInstanceAs (Decidable (reply ≠ _))
  | .undo reply => inferInstanceAs (Decidable (reply ≠ _))
  | .decr reply => inferInstanceAs (Decidable (reply ≠ _))
  | .delete reply => inferInstanceAs (Decidable (reply ≠ _ → redis.counters _ ≤ 0))
  | .check | .windows _ | .fallback _ | .giveBack => inferInstanceAs (Decidable True)

instance (s : System) : DecidablePred s.Clean
  | .go i action =>
      inferInstanceAs (Decidable (∀ r ∈ s.requests[i]?, r.Clean (s.workers r.worker) s.redis action))
  | .arrive _ _ | .health _ _ | .pool _ _ => inferInstanceAs (Decidable True)

instance decidableCleanRun (lim : RateLimits) :
    (s : System) → (events : List Event) → Decidable (s.CleanRun lim events)
  | _, [] => inferInstanceAs (Decidable True)
  | s, e :: events =>
      let _ : DecidablePred fun s' : System => s'.CleanRun lim events :=
        fun s' => decidableCleanRun lim s' events
      inferInstanceAs (Decidable (s.Clean e ∧ ∀ s' ∈ s.step lim e, s'.CleanRun lim events))

/-! ## one step -/

/-- The request has a slot in the counter of Redis. -/
def Phase.inRedis : Phase → Bool
  | .undo | .held .redis | .decr => true
  | _ => false

/-- The request has a slot in the counter of its worker. -/
def Phase.inProcess : Phase → Bool
  | .held .inProcess | .giveBack => true
  | _ => false

/-- What a clean step does to the counters. -/
structure Effect (lim : RateLimits) (r r' : ActiveRequest) (w w' : Worker) (redis redis' : Redis) :
    Prop where
  request : r'.request = r.request
  worker : r'.worker = r.worker
  counter : redis'.counters r.request.streamKey =
    redis.counters r.request.streamKey + r'.phase.inRedis.toNat - r.phase.inRedis.toNat
  counter_other : ∀ key, key ≠ r.request.streamKey → redis'.counters key = redis.counters key
  streams : w'.limiter.streams r.request.tenantId =
    w.limiter.streams r.request.tenantId + r'.phase.inProcess.toNat - r.phase.inProcess.toNat
  streams_other : ∀ tenantId, tenantId ≠ r.request.tenantId →
    w'.limiter.streams tenantId = w.limiter.streams tenantId
  positive : w.limiter.Positive → w'.limiter.Positive
  heldRedis : r'.phase = .held .redis → redis'.counters r.request.streamKey ≤ lim.maxStreams
  heldInProcess : r'.phase.inProcess → r.phase.inProcess ∨
    w'.limiter.streams r.request.tenantId ≤ lim.maxStreams

theorem Effect.silent (hredis : phase.inRedis = r.phase.inRedis) (hprocess : phase.inProcess = r.phase.inProcess)
    (hheld : phase ≠ .held .redis) (hw : w'.limiter.streamCounters = w.limiter.streamCounters) :
    Effect lim r { r with phase } w w' redis redis where
  request := rfl
  worker := rfl
  counter := by rw [hredis]; omega
  counter_other _ _ := rfl
  streams := by rw [hprocess, InProcess.streams, InProcess.streams, hw]; omega
  streams_other _ _ := by rw [InProcess.streams, InProcess.streams, hw]
  positive hpos tenantId n hn := hpos tenantId n (hw ▸ hn)
  heldRedis h := absurd h hheld
  heldInProcess h := .inl (hprocess ▸ h)

theorem Effect.counted {value : Int} (hvalue : value =
      redis.counters r.request.streamKey + phase.inRedis.toNat - r.phase.inRedis.toNat)
    (hprocess : phase.inProcess = r.phase.inProcess) (hheld : phase = .held .redis → value ≤ lim.maxStreams)
    (hw : w'.limiter = w.limiter) :
    Effect lim r { r with phase } w w' redis
      { redis with counters := update redis.counters r.request.streamKey value } where
  request := rfl
  worker := rfl
  counter := by simpa using hvalue
  counter_other _ h := by simp [h]
  streams := by rw [hprocess, hw]; omega
  streams_other _ _ := by rw [hw]
  positive hpos := by rwa [hw]
  heldRedis h := by simpa using hheld h
  heldInProcess h := .inl (hprocess ▸ h)

theorem Effect.admitted (hst' : st'.streamCounters = update w.limiter.streamCounters request.tenantId
      (some (w.limiter.streams request.tenantId + 1))) (hlt : w.limiter.streams request.tenantId < lim.maxStreams) :
    Effect lim ⟨request, worker, .fallback⟩ ⟨request, worker, .held .inProcess⟩ w
      { w with limiter := st' } redis redis where
  request := rfl
  worker := rfl
  counter := by simp [Phase.inRedis]
  counter_other _ _ := rfl
  streams := by simp [InProcess.streams, hst', Phase.inProcess]
  streams_other _ h := streams_of_ne rfl h _ hst'
  positive hpos := by
    refine positive_update hpos hst' fun m hm => ?_
    have := hpos.streams_nonneg request.tenantId
    cases hm
    omega
  heldRedis h := by simp at h
  heldInProcess _ := by
    right
    simp [InProcess.streams, hst'] at hlt ⊢
    omega

theorem Effect.givenBack (h : 1 ≤ w.limiter.streams request.tenantId) :
    Effect lim ⟨request, worker, .giveBack⟩ ⟨request, worker, .done⟩ w
      { w with limiter := releaseInProcess request.tenantId w.limiter } redis redis where
  request := rfl
  worker := rfl
  counter := by simp [Phase.inRedis]
  counter_other _ _ := rfl
  streams := by simpa [Phase.inProcess] using streams_releaseInProcess h
  streams_other _ h := streams_of_ne rfl h _ rfl
  positive hpos := by
    refine positive_update hpos rfl fun m hm => ?_
    split at hm
    · simp at hm
    · simp at hm
      omega
  heldRedis h := by simp at h
  heldInProcess h := by simp [Phase.inProcess] at h

/-- What a step of a request does to the two counters. -/
theorem ActiveRequest.effect_of_step {action : Action} (h : r.step lim w redis action = some (r', w', redis'))
    (hclean : r.Clean w redis action) (hredis : r.phase.inRedis.toNat ≤ redis.counters r.request.streamKey)
    (hprocess : r.phase.inProcess.toNat ≤ w.limiter.streams r.request.tenantId) :
    Effect lim r r' w w' redis redis' := by
  obtain ⟨request, worker, phase⟩ := r
  unfold ActiveRequest.step at h
  dsimp only at h hredis hprocess
  -- the phase is the one that the action goes with
  cases action with
  | check =>
      cases phase <;> simp only [reduceCtorEq, Option.some.injEq, Prod.mk.injEq] at h
      obtain ⟨rfl, rfl, rfl⟩ := h
      cases hdeg : w.degraded <;> exact Effect.silent rfl rfl (by simp) rfl
  | windows verdict =>
      cases phase <;> simp only [reduceCtorEq] at h
      split at h <;> simp only [Option.some.injEq, Prod.mk.injEq] at h <;> obtain ⟨rfl, rfl, rfl⟩ := h
      · exact Effect.silent rfl rfl (by simp) rfl
      · exact Effect.silent rfl rfl (by simp) rfl
      · cases hstream : request.isStream <;> exact Effect.silent rfl rfl (by simp) rfl
  | incr reply =>
      cases phase <;> simp only [reduceCtorEq] at h
      cases reply with
      | answered =>
          simp only [Reply.apply, reduceIte, Option.some.injEq, Prod.mk.injEq] at h
          obtain ⟨rfl, rfl, rfl⟩ := h
          split
          · exact Effect.counted (by simp [Phase.inRedis]) rfl (by simp) rfl
          · exact Effect.counted (by simp [Phase.inRedis]) rfl (fun _ => by omega) rfl
      | lost => exact absurd rfl hclean
      | dropped =>
          simp only [Reply.apply, reduceCtorEq, reduceIte, Option.some.injEq, Prod.mk.injEq] at h
          obtain ⟨rfl, rfl, rfl⟩ := h
          exact Effect.silent rfl rfl (by simp) rfl
  | undo reply =>
      cases phase <;> simp only [reduceCtorEq] at h
      cases reply with
      | answered =>
          simp only [Reply.apply, reduceIte, Option.some.injEq, Prod.mk.injEq] at h
          obtain ⟨rfl, rfl, rfl⟩ := h
          exact Effect.counted (by simp [Phase.inRedis]) rfl (by simp) rfl
      | lost =>
          simp only [Reply.apply, reduceCtorEq, reduceIte, Option.some.injEq, Prod.mk.injEq] at h
          obtain ⟨rfl, rfl, rfl⟩ := h
          exact Effect.counted (by simp [Phase.inRedis]) rfl (by simp) rfl
      | dropped => exact absurd rfl hclean
  | fallback reads =>
      cases phase <;> simp only [reduceCtorEq] at h
      rcases legacyCheckRateLimit_cases lim reads request w.limiter with
        ⟨error, st', heq, hst'⟩ | ⟨result, st', heq, hstream, hst'⟩ |
          ⟨result, st', heq, hstream, hlt, hst'⟩
      · simp only [heq, Option.some.injEq, Prod.mk.injEq] at h
        obtain ⟨rfl, rfl, rfl⟩ := h
        exact Effect.silent rfl rfl (by simp) hst'
      · simp only [heq, hstream, Bool.false_eq_true, reduceIte, Option.some.injEq, Prod.mk.injEq] at h
        obtain ⟨rfl, rfl, rfl⟩ := h
        exact Effect.silent rfl rfl (by simp) hst'
      · simp only [heq, hstream, reduceIte, Option.some.injEq, Prod.mk.injEq] at h
        obtain ⟨rfl, rfl, rfl⟩ := h
        exact Effect.admitted hst' hlt
  | finish =>
      cases phase <;> simp only [reduceCtorEq, Option.some.injEq, Prod.mk.injEq] at h
      obtain ⟨rfl, rfl, rfl⟩ := h
      obtain rfl := Phase.held.inj hclean
      cases hw : w.releases <;> exact Effect.silent rfl rfl (by simp) rfl
  | decr reply =>
      cases phase <;> simp only [reduceCtorEq, Option.some.injEq, Prod.mk.injEq] at h
      obtain ⟨rfl, rfl, rfl⟩ := h
      cases reply with
      | dropped => exact absurd rfl hclean
      | answered =>
          split <;> exact Effect.counted (by simp [Phase.inRedis]) rfl (by simp) rfl
      | lost => exact Effect.counted (by simp [Phase.inRedis]) rfl (by simp) rfl
  | delete reply =>
      cases phase <;> simp only [reduceCtorEq, Option.some.injEq, Prod.mk.injEq] at h
      obtain ⟨rfl, rfl, rfl⟩ := h
      cases reply with
      | dropped => exact Effect.silent rfl rfl (by simp) rfl
      | answered =>
          have hzero := hclean (by simp)
          exact Effect.counted (by simp [Phase.inRedis] at *; omega) rfl (by simp) rfl
      | lost =>
          have hzero := hclean (by simp)
          exact Effect.counted (by simp [Phase.inRedis] at *; omega) rfl (by simp) rfl
  | giveBack =>
      cases phase <;> simp only [reduceCtorEq, Option.some.injEq, Prod.mk.injEq] at h
      obtain ⟨rfl, rfl, rfl⟩ := h
      exact Effect.givenBack hprocess

/-! ## the whole system -/

/-- The requests of a tenant in a kind of phase. -/
def System.count (s : System) (tenantId : String) (p : ActiveRequest → Bool) : Nat :=
  s.requests.countP fun r => r.request.tenantId = tenantId && p r

/-- The streams of a tenant that are held under Redis. -/
def System.heldRedis (s : System) (tenantId : String) : Nat :=
  s.count tenantId fun r => r.phase = .held .redis

/-- The streams of a tenant that are held under the in-process limiter of a worker. -/
def System.heldInProcess (s : System) (worker : Nat) (tenantId : String) : Nat :=
  s.count tenantId fun r => r.worker = worker && r.phase = .held .inProcess

/-- Every slot that was taken for the tenant has been given back, by a stream that
ended or by an admission over the cap. -/
def System.Settled (s : System) (tenantId : String) : Prop :=
  ∀ r ∈ s.requests, r.request.tenantId = tenantId →
    r.phase.inRedis = false ∧ r.phase.inProcess = false

instance (s : System) (tenantId : String) : Decidable (s.Settled tenantId) :=
  inferInstanceAs (Decidable (∀ r ∈ s.requests, r.request.tenantId = tenantId → _))

/-- The counters count the slots, and no more are held than the cap allows. -/
structure System.Accounted (lim : RateLimits) (s : System) : Prop where
  redis : ∀ tenantId, s.redis.counters (streamPrefix ++ tenantId) =
    s.count tenantId fun r => r.phase.inRedis
  limiter : ∀ worker tenantId, (s.workers worker).limiter.streams tenantId =
    s.count tenantId fun r => r.worker = worker && r.phase.inProcess
  positive : ∀ worker, (s.workers worker).limiter.Positive
  heldRedis : ∀ tenantId, (s.heldRedis tenantId : Int) ≤ max 0 lim.maxStreams
  slotsInProcess : ∀ worker tenantId,
    (s.workers worker).limiter.streams tenantId ≤ max 0 lim.maxStreams

theorem countP_set_add {α : Type*} (p : α → Bool) {l : List α} {a : α} (h : l[i]? = some a) (b : α) :
    (l.set i b).countP p + (p a).toNat = l.countP p + (p b).toNat := by
  induction l generalizing i with
  | nil => simp at h
  | cons x l ih =>
      cases i with
      | zero =>
          obtain rfl : x = a := by simpa using h
          simp only [List.set_cons_zero, List.countP_cons]
          cases p x <;> cases p b <;> simp
      | succ i =>
          have := ih (i := i) (by simpa using h)
          simp only [List.set_cons_succ, List.countP_cons]
          omega

theorem toNat_le_countP {α : Type*} {p : α → Bool} {l : List α} {a : α} (h : l[i]? = some a) :
    (p a).toNat ≤ l.countP p := by
  cases hp : p a with
  | false => simp
  | true => simpa using List.countP_pos_iff.mpr ⟨a, List.mem_of_getElem? h, hp⟩

theorem streamKey_inj (h : streamPrefix ++ a = streamPrefix ++ b) : a = b := by
  have := congrArg String.toList h
  rw [String.toList_append, String.toList_append] at this
  exact String.toList_inj.mp (List.append_cancel_left this)

theorem System.count_set (h : s.requests[i]? = some r) (hs' : s'.requests = s.requests.set i r')
    (hreq : r'.request = r.request) (p : ActiveRequest → Bool) :
    s'.count r.request.tenantId p + (p r).toNat = s.count r.request.tenantId p + (p r').toNat ∧
      ∀ tenantId, tenantId ≠ r.request.tenantId → s'.count tenantId p = s.count tenantId p := by
  refine ⟨?_, fun tenantId hne => ?_⟩
  · have := countP_set_add (fun r' => r'.request.tenantId = r.request.tenantId && p r') h r'
    simpa [count, hs', hreq] using this
  · have := countP_set_add (fun r' => r'.request.tenantId = tenantId && p r') h r'
    simpa [count, hs', hreq, hne.symm] using this

theorem System.count_le_count (s : System) (tenantId : String) (h : ∀ r, p r → q r) :
    s.count tenantId p ≤ s.count tenantId q := by
  refine List.countP_mono_left fun r _ hr => ?_
  rw [Bool.and_eq_true] at hr ⊢
  exact ⟨hr.1, h r hr.2⟩

theorem System.toNat_le_count (h : s.requests[i]? = some r) (p : ActiveRequest → Bool) :
    (p r).toNat ≤ s.count r.request.tenantId p := by
  simpa [count] using
    toNat_le_countP (p := fun r' => r'.request.tenantId = r.request.tenantId && p r') h

section Go

variable {lim : RateLimits} {s s' : System} {i : Nat} {r r' : ActiveRequest} {w' : Worker}
  {redis' : Redis} (hs : s.Accounted lim) (hi : s.requests[i]? = some r)
  (h : Effect lim r r' (s.workers r.worker) w' s.redis redis')
  (hs' : s' = ⟨redis', update s.workers r.worker w', s.requests.set i r'⟩)

include hs hi h hs'

theorem System.Accounted.go_redis (tenantId : String) :
    s'.redis.counters (streamPrefix ++ tenantId) = s'.count tenantId fun r => r.phase.inRedis := by
  obtain ⟨hsame, hother⟩ :=
    count_set hi (hs' ▸ rfl : s'.requests = _) h.request fun r => r.phase.inRedis
  have hold := hs.redis tenantId
  have hredis' : s'.redis = redis' := by rw [hs']
  rw [hredis']
  by_cases he : tenantId = r.request.tenantId
  · subst he
    have heff : redis'.counters (streamPrefix ++ r.request.tenantId) =
        s.redis.counters (streamPrefix ++ r.request.tenantId) + r'.phase.inRedis.toNat -
          r.phase.inRedis.toNat := h.counter
    omega
  · rw [hother tenantId he, h.counter_other _ fun hkey => he (streamKey_inj hkey), hold]

theorem System.Accounted.go_limiter (worker : Nat) (tenantId : String) :
    (s'.workers worker).limiter.streams tenantId =
      s'.count tenantId fun r => r.worker = worker && r.phase.inProcess := by
  obtain ⟨hsame, hother⟩ := count_set hi (hs' ▸ rfl : s'.requests = _) h.request
    fun r => r.worker = worker && r.phase.inProcess
  have hold := hs.limiter worker tenantId
  have hworkers : s'.workers = update s.workers r.worker w' := by rw [hs']
  rw [hworkers]
  by_cases hw : worker = r.worker
  · subst hw
    rw [update_self]
    by_cases he : tenantId = r.request.tenantId
    · subst he
      have heff := h.streams
      simp only [h.worker, decide_true, Bool.true_and] at hsame hold ⊢
      omega
    · rw [hother tenantId he, h.streams_other tenantId he, hold]
  · rw [update_of_ne hw]
    by_cases he : tenantId = r.request.tenantId
    · subst he
      simp only [h.worker, Ne.symm hw, decide_false, Bool.false_and, Bool.toNat_false] at hsame hold ⊢
      omega
    · rw [hother tenantId he, hold]

theorem System.Accounted.go_heldRedis (tenantId : String) :
    (s'.heldRedis tenantId : Int) ≤ max 0 lim.maxStreams := by
  obtain ⟨hsame, hother⟩ :=
    count_set hi (hs' ▸ rfl : s'.requests = _) h.request fun r => r.phase = .held .redis
  have hold := hs.heldRedis tenantId
  by_cases he : tenantId = r.request.tenantId
  · subst he
    by_cases hheld : r'.phase = .held .redis
    · -- the answer of the `INCR` bounds all the slots
      have hle : s'.heldRedis r.request.tenantId ≤
          s'.count r.request.tenantId fun r => r.phase.inRedis := by
        refine s'.count_le_count _ fun r hr => ?_
        rw [of_decide_eq_true hr]
        rfl
      have hmax : s'.redis.counters (streamPrefix ++ r.request.tenantId) ≤ lim.maxStreams := by
        rw [hs']
        exact h.heldRedis hheld
      have hcounter := hs.go_redis hi h hs' r.request.tenantId
      omega
    · unfold System.heldRedis at hold ⊢
      simp only [hheld, decide_false, Bool.toNat_false] at hsame
      omega
  · unfold System.heldRedis at hold ⊢
    rwa [hother tenantId he]

omit hi in
theorem System.Accounted.go_slotsInProcess (worker : Nat) (tenantId : String) :
    (s'.workers worker).limiter.streams tenantId ≤ max 0 lim.maxStreams := by
  have hold := hs.slotsInProcess worker tenantId
  have hworkers : s'.workers = update s.workers r.worker w' := by rw [hs']
  rw [hworkers]
  by_cases hw : worker = r.worker
  · subst hw
    rw [update_self]
    by_cases he : tenantId = r.request.tenantId
    · subst he
      have heff := h.streams
      cases hnew : r'.phase.inProcess with
      | false =>
          simp only [hnew, Bool.toNat_false] at heff
          omega
      | true =>
          rcases h.heldInProcess hnew with hthen | hmax
          · simp only [hnew, hthen, Bool.toNat_true] at heff
            omega
          · omega
    · rwa [h.streams_other tenantId he]
  · rwa [update_of_ne hw]

theorem System.Accounted.go : s'.Accounted lim where
  redis := hs.go_redis hi h hs'
  limiter := hs.go_limiter hi h hs'
  positive worker := by
    rw [hs']
    by_cases hw : worker = r.worker
    · subst hw
      simpa using h.positive (hs.positive r.worker)
    · simpa [hw] using hs.positive worker
  heldRedis := hs.go_heldRedis hi h hs'
  slotsInProcess := hs.go_slotsInProcess h hs'

end Go

theorem System.Accounted.setWorker (hs : s.Accounted lim) (hw : w.limiter = (s.workers worker).limiter) :
    Accounted lim { s with workers := update s.workers worker w } := by
  have hlimiter : ∀ worker', (update s.workers worker w worker').limiter =
      (s.workers worker').limiter := by
    intro worker'
    by_cases he : worker' = worker
    · subst he
      rw [update_self, hw]
    · rw [update_of_ne he]
  refine ⟨hs.redis, fun worker' tenantId => ?_, fun worker' => ?_, hs.heldRedis,
    fun worker' tenantId => ?_⟩
  · rw [hlimiter]
    exact hs.limiter worker' tenantId
  · rw [hlimiter]
    exact hs.positive worker'
  · rw [hlimiter]
    exact hs.slotsInProcess worker' tenantId

theorem System.Accounted.arrive (hs : s.Accounted lim) (worker : Nat) (request : AdmissionRequest) :
    Accounted lim { s with requests := s.requests ++ [⟨request, worker, .arrived⟩] } where
  redis tenantId := by
    simpa [count, Phase.inRedis] using hs.redis tenantId
  limiter worker' tenantId := by
    simpa [count, Phase.inProcess] using hs.limiter worker' tenantId
  positive := hs.positive
  heldRedis tenantId := by
    simpa [System.heldRedis, System.count] using hs.heldRedis tenantId
  slotsInProcess := hs.slotsInProcess

theorem System.Accounted.step {e : Event} (hs : s.Accounted lim) (hclean : s.Clean e) (h : s.step lim e = some s') :
    s'.Accounted lim := by
  cases e with
  | arrive worker request =>
      obtain rfl := Option.some.inj h
      exact hs.arrive worker request
  | health worker degraded =>
      obtain rfl := Option.some.inj h
      exact hs.setWorker rfl
  | pool worker pool =>
      obtain rfl := Option.some.inj h
      exact hs.setWorker rfl
  | go i action =>
      simp only [System.step, Option.bind_eq_bind, Option.bind_eq_some_iff, Option.pure_def,
        Option.some.injEq] at h
      obtain ⟨r, hi, ⟨r', w', redis'⟩, hstep, rfl⟩ := h
      have hredis : r.phase.inRedis.toNat ≤ s.redis.counters r.request.streamKey := by
        have := s.toNat_le_count hi fun r => r.phase.inRedis
        have := hs.redis r.request.tenantId
        unfold AdmissionRequest.streamKey
        omega
      have hprocess : r.phase.inProcess.toNat ≤
          (s.workers r.worker).limiter.streams r.request.tenantId := by
        have hle := s.toNat_le_count hi fun r' => r'.worker = r.worker && r'.phase.inProcess
        have := hs.limiter r.worker r.request.tenantId
        simp only [decide_true, Bool.true_and] at hle
        omega
      exact hs.go hi (r.effect_of_step hstep (hclean r hi) hredis hprocess) rfl

theorem System.Accounted.run {events : List Event} (hs : s.Accounted lim) (hclean : s.CleanRun lim events)
    (h : s.run lim events = some s') : s'.Accounted lim := by
  induction events generalizing s with
  | nil =>
      obtain rfl := Option.some.inj h
      exact hs
  | cons e events ih =>
      simp only [System.run, Option.bind_eq_bind, Option.bind_eq_some_iff] at h
      obtain ⟨s₁, hstep, hrun⟩ := h
      exact ih (hs.step hclean.1 hstep) (hclean.2 s₁ hstep) hrun

/-- No request has come yet. -/
structure System.Initial (s : System) : Prop where
  requests : s.requests = []
  counters : ∀ tenantId, s.redis.counters (streamPrefix ++ tenantId) = 0
  limiters : ∀ worker tenantId, (s.workers worker).limiter.streamCounters tenantId = none

theorem System.Initial.accounted (h : s.Initial) (lim : RateLimits) : s.Accounted lim where
  redis tenantId := by simp [h.counters, count, h.requests]
  limiter worker tenantId := by simp [InProcess.streams, h.limiters, count, h.requests]
  positive worker tenantId n hn := by simp [h.limiters] at hn
  heldRedis tenantId := by simp [heldRedis, count, h.requests]
  slotsInProcess worker tenantId := by simp [InProcess.streams, h.limiters]

theorem System.Settled.count_eq_zero (hp : ∀ r ∈ s.requests, r.request.tenantId = tenantId → p r = false) :
    s.count tenantId p = 0 := by
  refine List.countP_eq_zero.mpr fun r hr => ?_
  by_cases he : r.request.tenantId = tenantId
  · simp [hp r hr he]
  · simp [he]

theorem System.Accounted.settled (hs : s.Accounted lim) (hsettled : s.Settled tenantId) :
    s.redis.counters (streamPrefix ++ tenantId) = 0 ∧
      ∀ worker, (s.workers worker).limiter.streamCounters tenantId = none := by
  refine ⟨?_, fun worker => ?_⟩
  · rw [hs.redis tenantId, Settled.count_eq_zero fun r hr he => (hsettled r hr he).1]
    rfl
  · apply (hs.positive worker).eq_none
    rw [hs.limiter worker tenantId,
      Settled.count_eq_zero fun r hr he => by simp [(hsettled r hr he).2]]
    rfl

/-- **The slots add up** in every state of a clean run: neither under Redis nor under the
in-process limiter of a worker does a tenant hold more streams than the cap (none, if
the cap is negative), and once its slots are given back the counters are at zero. -/
theorem slots_accounted (lim : RateLimits) (s s' : System) (events : List Event) (hs : s.Initial)
    (hclean : s.CleanRun lim events) (h : s.run lim events = some s') (tenantId : String) :
    (s'.heldRedis tenantId : Int) ≤ max 0 lim.maxStreams ∧
    (∀ worker, (s'.heldInProcess worker tenantId : Int) ≤ max 0 lim.maxStreams) ∧
    (s'.Settled tenantId → s'.redis.counters (streamPrefix ++ tenantId) = 0 ∧
      ∀ worker, (s'.workers worker).limiter.streamCounters tenantId = none) := by
  have hacc := (hs.accounted lim).run hclean h
  refine ⟨hacc.heldRedis tenantId, fun worker => ?_, hacc.settled⟩
  have hle : s'.heldInProcess worker tenantId ≤
      s'.count tenantId fun r => r.worker = worker && r.phase.inProcess := by
    refine s'.count_le_count _ fun r hr => ?_
    rw [Bool.and_eq_true] at hr ⊢
    rw [of_decide_eq_true hr.2]
    exact ⟨hr.1, rfl⟩
  have hcount := hacc.limiter worker tenantId
  have hmax := hacc.slotsInProcess worker tenantId
  omega

section Sample

def sampleCap : RateLimits := ⟨600, 60, 1, none⟩

/-- Two workers, or any number, that have not started. -/
def idleSystem : System where
  redis := idleRedis
  workers _ := ⟨false, true, ⟨fun _ => [], fun _ => [], fun _ => none⟩⟩
  requests := []

theorem idleSystem_initial : idleSystem.Initial := ⟨rfl, fun _ => rfl, fun _ _ => rfl⟩

/-- The request number `i` is admitted by Redis. -/
def admitEvents (i : Nat) : List Event :=
  [.arrive 0 sampleRequest, .go i .check, .go i (.windows (some true)), .go i (.incr .answered)]

/-- A stream under Redis, an outage, a stream under the in-process limiter, which ends,
the recovery, and the end of the first stream. -/
def outageEvents : List Event :=
  admitEvents 0 ++ [.health 0 true, .arrive 0 sampleRequest, .go 1 .check,
    .go 1 (.fallback ⟨0, 1782898200, 1⟩), .go 1 .finish, .go 1 .giveBack, .health 0 false, .go 0 .finish,
    .go 0 (.decr .answered), .go 0 (.delete .answered)]

theorem exists_reached {run : Option System} {P : System → Prop} (hsome : run.isSome)
    (h : ∀ s ∈ run, P s) : ∃ s, run = some s ∧ P s :=
  ⟨run.get hsome, (Option.some_get hsome).symm, h _ (Option.get_mem hsome)⟩

theorem slots_accounted_outage : ∃ s', idleSystem.run sampleCap outageEvents = some s' ∧
    s'.Settled sampleRequest.tenantId ∧
    s'.redis.counters (streamPrefix ++ sampleRequest.tenantId) = 0 := by
  obtain ⟨s', hrun, hsettled⟩ := exists_reached
    (P := fun s' => s'.Settled sampleRequest.tenantId)
    (show (idleSystem.run sampleCap outageEvents).isSome by decide +kernel) (by decide +kernel)
  exact ⟨s', hrun, hsettled, ((slots_accounted sampleCap idleSystem s' outageEvents idleSystem_initial
    (by decide +kernel) hrun sampleRequest.tenantId).2.2 hsettled).1⟩

/-- The stream is admitted by Redis and ends when the worker is degraded. -/
def switchEvents : List Event :=
  admitEvents 0 ++ [.health 0 true, .go 0 .finish, .go 0 .giveBack]

/-- The first stream has ended and its `DELETE` is on the way when the second is
admitted; then comes the third. -/
def deleteEvents : List Event :=
  admitEvents 0 ++ [.go 0 .finish, .go 0 (.decr .answered)] ++ admitEvents 1 ++
    [.go 0 (.delete .answered)] ++ admitEvents 2

/-- A slot that is given back elsewhere stays taken in Redis, and a `DELETE` that comes
late takes a slot out of the count: two streams are held where one is allowed. -/
theorem slots_leak_and_overrun :
    (∃ s', idleSystem.run sampleCap switchEvents = some s' ∧ s'.Settled sampleRequest.tenantId ∧
      s'.redis.counters (streamPrefix ++ sampleRequest.tenantId) = 1) ∧
    (∃ s', idleSystem.run sampleCap deleteEvents = some s' ∧
      sampleCap.maxStreams < s'.heldRedis sampleRequest.tenantId) := by
  constructor
  · exact exists_reached (by decide +kernel) (by decide +kernel)
  · exact exists_reached (by decide +kernel) (by decide +kernel)

end Sample

end StreamSlots

end Anoryx.Sentinel
