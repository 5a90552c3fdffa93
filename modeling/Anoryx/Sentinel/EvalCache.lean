import Anoryx.Sentinel.EffectivePolicy
import Anoryx.Sentinel.ModelPolicy

/-!
# Anoryx.Sentinel.EvalCache

The cache of model decisions (`policy/eval_cache.py`) between the intake of policies
(`policy/intake.py`) and the lookups of the router (`gateway/router/selection.py`).

A decision is cached under the version of its tenant.  An intake of a model policy
increments the version, which orphans what is cached; but it does so inside its
database transaction, so there is a time when the version is new and the tables are old.

Every command to Redis, every SELECT of an evaluation, and the commit of an intake is a
step of its own.  Redis answers all of them; an entry may run out at any time.

An intake updates the head row under its policy id, whatever type the row has had: a record
of another type takes a model policy out of the rows that an evaluation reads, and
increments no version.

Three fields are read by no step: `generations` counts, for each tenant, the commits of its
model policies and of whatever else changes a row that its evaluations read; a lookup has
the generation at its start (`floor`), and the generation at the first SELECT that a
decision rests on goes with the decision (`basis`).  A decision is stale for a lookup if its
basis is below the floor.
-/

namespace Anoryx.Sentinel.EvalCache

open ReadCommitted Function

/-! ## the system -/

def modelDecisionPolicyTypes : List PolicyType := [.modelAllowlist, .modelDenylist, .modelApproval]

structure Query where
  scope : RequestScope
  modelId : String

/-- Tenant, version, and the rest of the key: the tenant is a UUID, so it ends at the
first colon. -/
abbrev DecisionKey := String × Nat × String

def decisionKey (q : Query) (version : Nat) : DecisionKey :=
  (q.scope.tenantId, version,
    q.scope.teamId ++ ":" ++ q.scope.projectId ++ ":" ++ q.scope.agentId ++ ":" ++ q.modelId)

/-- A cached decision. -/
structure Entry where
  decision : ModelDecision
  basis : Nat
deriving DecidableEq

inductive IntakePhase
  /-- persisted, in its transaction -/
  | persisted
  /-- `invalidate_tenant` has made this the version -/
  | bumped (version : Nat)
  /-- committed, with its version if it has one, at this generation -/
  | committed (version : Option Nat) (generation : Nat)
  | rolledBack
deriving DecidableEq

/-- The version that an open intake has set. -/
def IntakePhase.opened : IntakePhase → Option Nat
  | bumped version => some version
  | _ => none

structure Intake where
  record : PolicyRecord
  phase : IntakePhase

/-- How far `_enforce_policies_pre_request` is with the model decision. -/
inductive LookupPhase
  | started
  | versioned (version : Nat)
  | missed (version : Nat)
  | evaluating (version : Nat) (readings : List Reading) (basis : Nat)
  | evaluated (version : Nat) (decision : ModelDecision) (basis : Nat)
  | returned (decision : ModelDecision) (basis : Nat)
  | failed

/-- The version under which a lookup reads the tables. -/
def LookupPhase.selecting : LookupPhase → Option Nat
  | missed version | evaluating version _ _ => some version
  | _ => none

structure Lookup where
  query : Query
  now : DateTime
  floor : Nat
  phase : LookupPhase

structure System where
  versions : String → Nat
  entries : DecisionKey → Option Entry
  store : PolicyDb
  inventory : String × String → Option InventoryRow
  generations : String → Nat
  intakes : List Intake
  lookups : List Lookup

inductive Event
  /-- a record has passed its checks and is persisted -/
  | persist (record : PolicyRecord)
  /-- `INCR` -/
  | bump (i : Nat)
  | commit (i : Nat)
  | rollback (i : Nat)
  | start (query : Query) (now : DateTime)
  /-- `GET` of the version -/
  | getVersion (i : Nat)
  /-- `GET` of the decision -/
  | getDecision (i : Nat)
  /-- the next SELECT of the evaluation -/
  | select (i : Nat) (now : DateTime) (readable : Bool)
  /-- `SET` of the decision -/
  | setDecision (i : Nat)
  /-- an entry runs out -/
  | expire (key : DecisionKey)
  /-- the inventory changes -/
  | adopt (inventory : String × String → Option InventoryRow)

/-- The store once an accepted record is committed. -/
def accept (t : Txn) (record : PolicyRecord) (store : PolicyDb) : PolicyDb :=
  Database.commit t ((store.withHead t record).withVersion t record)

/-- The tenant whose version an intake increments. -/
def invalidated (record : PolicyRecord) : Option String :=
  if record.policyType ∈ modelDecisionPolicyTypes then some record.tenantId else none

/-- The tenant whose evaluations read a head row. -/
def readBy (row : PolicyRow) : Option String :=
  if row.policyType ∈ modelDecisionPolicyTypes then some row.tenantId else none

/-- The tenants whose evaluations read the head row that a commit updates, as it was or as it is
from then on. -/
def changed (record : PolicyRecord) (store : PolicyDb) : List String :=
  let row := store.policies.committed record.policyId
  (nextHead record row :: row.toList).filterMap readBy

variable {record : PolicyRecord} {store : PolicyDb} {tenantId a : String} {s s' : System}
  {version basis generation version' i n : Nat} {intake : Intake} {phase : IntakePhase}
  {fromisoformat : String → Option DateTime}

/-- A commit that does not count for a tenant leaves what its evaluations read as it was. -/
theorem getActivePoliciesForScope_accept {t : Txn} {policyType : PolicyType} (hquiet : store.policies.Quiet)
    (hchanged : tenantId ∉ changed record store) (htype : policyType ∈ modelDecisionPolicyTypes) (now : DateTime) :
    getActivePoliciesForScope (accept t record store) tenantId policyType now =
      getActivePoliciesForScope store tenantId policyType now := by
  have hread : ∀ row, row ∈ nextHead record (store.policies.committed record.policyId) ::
      (store.policies.committed record.policyId).toList →
      ¬ (row.tenantId = tenantId ∧ row.policyType = policyType ∧ row.effectiveFrom ≤ now) := by
    rintro row hrow ⟨rfl, rfl, -⟩
    exact hchanged (List.mem_filterMap.mpr ⟨row, hrow, if_pos htype⟩)
  unfold getActivePoliciesForScope
  congr 1
  apply hquiet.filter_rows_commit_write
  · intro row hrow
    exact decide_eq_false (hread row (List.mem_cons_of_mem _ (Option.mem_toList.mpr hrow)))
  · exact decide_eq_false (hread _ List.mem_cons_self)

namespace System

def setIntake (s : System) (i : Nat) (intake : Intake) : System :=
  { s with intakes := s.intakes.set i intake }

def setLookup (s : System) (i : Nat) (lookup : Lookup) : System :=
  { s with lookups := s.lookups.set i lookup }

/-- The lookup goes on to a phase. -/
def advance (s : System) (i : Nat) (lookup : Lookup) (phase : LookupPhase) : System :=
  s.setLookup i { lookup with phase }

section Step

variable (fromisoformat : String → Option DateTime) (s : System)

/-- The generations once a record is committed. -/
def counted (record : PolicyRecord) (tenantId : String) : Nat :=
  if tenantId ∈ changed record s.store ∨ invalidated record = some tenantId then s.generations tenantId + 1
  else s.generations tenantId

/-- One more reading of an evaluation. -/
def selectStep (i : Nat) (lookup : Lookup) (version : Nat) (readings : List Reading) (basis : Nat) :
    System :=
  match evaluateModelPolicies fromisoformat lookup.query.scope lookup.query.modelId lookup.now readings with
  | .more => s.advance i lookup (.evaluating version readings basis)
  | .decided decision => s.advance i lookup (.evaluated version decision basis)
  | .raised => s.advance i lookup .failed

def commitStep (i : Nat) (intake : Intake) : Option System :=
  let generations := s.counted intake.record
  let s' := { s with store := accept i intake.record s.store, generations }
  let generation := generations intake.record.tenantId
  match intake.phase with
  | .persisted =>
      if intake.record.policyType ∈ modelDecisionPolicyTypes then none
      else some (s'.setIntake i { intake with phase := .committed none generation })
  | .bumped version => some (s'.setIntake i { intake with phase := .committed (some version) generation })
  | _ => none

def step : Event → Option System
  | .persist record => some { s with intakes := s.intakes ++ [⟨record, .persisted⟩] }
  | .bump i => do
      let intake ← s.intakes[i]?
      let tenantId := intake.record.tenantId
      if intake.phase = .persisted ∧ intake.record.policyType ∈ modelDecisionPolicyTypes then
        let version := s.versions tenantId + 1
        pure ({ s with versions := update s.versions tenantId version }.setIntake i
          { intake with phase := .bumped version })
      else none
  | .commit i => do
      let intake ← s.intakes[i]?
      s.commitStep i intake
  | .rollback i => do
      let intake ← s.intakes[i]?
      match intake.phase with
      | .persisted | .bumped _ => pure (s.setIntake i { intake with phase := .rolledBack })
      | _ => none
  | .start query now =>
      let lookup : Lookup := ⟨query, now, s.generations query.scope.tenantId, .started⟩
      some { s with lookups := s.lookups ++ [lookup] }
  | .getVersion i => do
      let lookup ← s.lookups[i]?
      match lookup.phase with
      | .started => pure (s.advance i lookup (.versioned (s.versions lookup.query.scope.tenantId)))
      | _ => none
  | .getDecision i => do
      let lookup ← s.lookups[i]?
      match lookup.phase with
      | .versioned version =>
          match s.entries (decisionKey lookup.query version) with
          | some entry => pure (s.advance i lookup (.returned entry.decision entry.basis))
          | none => pure (s.advance i lookup (.missed version))
      | _ => none
  | .select i now readable => do
      let lookup ← s.lookups[i]?
      let reading : Reading := ⟨now, s.store, if readable then some s.inventory else none⟩
      match lookup.phase with
      | .missed version =>
          pure (s.selectStep fromisoformat i lookup version [reading]
            (s.generations lookup.query.scope.tenantId))
      | .evaluating version readings basis =>
          pure (s.selectStep fromisoformat i lookup version (readings ++ [reading]) basis)
      | _ => none
  | .setDecision i => do
      let lookup ← s.lookups[i]?
      match lookup.phase with
      | .evaluated version decision basis =>
          pure ({ s with
            entries := update s.entries (decisionKey lookup.query version)
              (some ⟨decision, basis⟩) }.advance i lookup (.returned decision basis))
      | _ => none
  | .expire key => some { s with entries := update s.entries key none }
  | .adopt inventory => some { s with inventory }

/-- The steps of a run. -/
def run : System → List Event → Option System
  | s, [] => some s
  | s, e :: events => do
      let s ← s.step fromisoformat e
      s.run events

end Step

/-! ## the condition -/

/-- Whenever a lookup reads the tables, no intake of its tenant that is still open had
incremented the version before the lookup read it; and an intake that is committed has
incremented the version of whoever reads the head row that it updates. -/
def Clean (s : System) : Event → Prop
  | .select i _ _ => ∀ lookup ∈ s.lookups[i]?, ∀ version ∈ lookup.phase.selecting,
      ∀ intake ∈ s.intakes, intake.record.tenantId = lookup.query.scope.tenantId →
        ∀ n ∈ intake.phase.opened, version < n
  | .commit i => ∀ intake ∈ s.intakes[i]?, ∀ tenantId ∈ changed intake.record s.store,
      invalidated intake.record = some tenantId
  | _ => True

def CleanRun (fromisoformat : String → Option DateTime) : System → List Event → Prop
  | _, [] => True
  | s, e :: events => s.Clean e ∧ ∀ s' ∈ s.step fromisoformat e, s'.CleanRun fromisoformat events

instance (s : System) : DecidablePred s.Clean
  | .select i _ _ => inferInstanceAs (Decidable (∀ lookup ∈ s.lookups[i]?,
      ∀ version ∈ lookup.phase.selecting, ∀ intake ∈ s.intakes,
        intake.record.tenantId = lookup.query.scope.tenantId → ∀ n ∈ intake.phase.opened, version < n))
  | .commit i => inferInstanceAs (Decidable (∀ intake ∈ s.intakes[i]?,
      ∀ tenantId ∈ changed intake.record s.store, invalidated intake.record = some tenantId))
  | .persist _ | .bump _ | .rollback _ | .start _ _ | .getVersion _ | .getDecision _
  | .setDecision _ | .expire _ | .adopt _ => inferInstanceAs (Decidable True)

instance decidableCleanRun (fromisoformat : String → Option DateTime) :
    (s : System) → (events : List Event) → Decidable (s.CleanRun fromisoformat events)
  | _, [] => inferInstanceAs (Decidable True)
  | s, e :: events =>
      let _ : DecidablePred fun s' : System => s'.CleanRun fromisoformat events :=
        fun s' => decidableCleanRun fromisoformat s' events
      inferInstanceAs
        (Decidable (s.Clean e ∧ ∀ s' ∈ s.step fromisoformat e, s'.CleanRun fromisoformat events))

/-! ## what the intakes do -/

def HasIntake (s : System) (tenantId : String) (phase : IntakePhase) : Prop :=
  ∃ intake ∈ s.intakes, intake.record.tenantId = tenantId ∧ intake.phase = phase

/-- What a step may do to versions, generations and intakes. -/
structure Moves (s s' : System) : Prop where
  versions : ∀ tenantId, s.versions tenantId ≤ s'.versions tenantId
  generations : ∀ tenantId, s.generations tenantId ≤ s'.generations tenantId
  bumped : ∀ tenantId n, s'.HasIntake tenantId (.bumped n) →
    s.HasIntake tenantId (.bumped n) ∨ s.versions tenantId < n
  committed : ∀ tenantId n g, s'.HasIntake tenantId (.committed (some n) g) →
    s.HasIntake tenantId (.committed (some n) g) ∨ s.HasIntake tenantId (.bumped n)
  kept : ∀ tenantId n g, s.HasIntake tenantId (.committed (some n) g) →
    s'.HasIntake tenantId (.committed (some n) g)

/-- A decision with this basis may stand under this version. -/
structure Supports (s : System) (tenantId : String) (version basis : Nat) : Prop where
  opened : ∀ n, s.HasIntake tenantId (.bumped n) → version < n
  done : ∀ n g, s.HasIntake tenantId (.committed (some n) g) → n ≤ version → g ≤ basis
  known : version ≤ s.versions tenantId

/-- A generation is none, or that of an intake with no higher version. -/
def Reaches (s : System) (tenantId : String) (generation version : Nat) : Prop :=
  generation = 0 ∨ ∃ n, s.HasIntake tenantId (.committed (some n) generation) ∧ n ≤ version

theorem Supports.moves (h : s.Supports tenantId version basis) (hm : Moves s s') :
    s'.Supports tenantId version basis where
  opened n hj := by
    rcases hm.bumped tenantId n hj with hold | hnew
    · exact h.opened n hold
    · exact Nat.lt_of_le_of_lt h.known hnew
  done n g hj hle := by
    rcases hm.committed tenantId n g hj with hold | hopen
    · exact h.done n g hold hle
    · exact absurd (h.opened n hopen) (Nat.not_lt_of_le hle)
  known := h.known.trans (hm.versions tenantId)

theorem Reaches.moves (h : s.Reaches tenantId generation version) (hm : Moves s s') :
    s'.Reaches tenantId generation version := by
  rcases h with h | ⟨n, hj, hle⟩
  · exact .inl h
  · exact .inr ⟨n, hm.kept tenantId n generation hj, hle⟩

theorem Reaches.mono (h : s.Reaches tenantId generation version) (hle : version ≤ version') :
    s.Reaches tenantId generation version' := by
  rcases h with h | ⟨n, hj, hn⟩
  · exact .inl h
  · exact .inr ⟨n, hj, hn.trans hle⟩

theorem Supports.le_basis (h : s.Supports tenantId version basis) (hr : s.Reaches tenantId generation version) :
    generation ≤ basis := by
  rcases hr with hr | ⟨n, hj, hle⟩
  · omega
  · exact h.done n generation hj hle

/-- Where a lookup stands. -/
def LookupOk (s : System) (lookup : Lookup) : Prop :=
  let tenantId := lookup.query.scope.tenantId
  match lookup.phase with
  | .started =>
      lookup.floor ≤ s.generations tenantId ∧
        s.Reaches tenantId lookup.floor (s.versions tenantId)
  | .versioned version =>
      lookup.floor ≤ s.generations tenantId ∧ version ≤ s.versions tenantId ∧
        s.Reaches tenantId lookup.floor version
  | .missed version => lookup.floor ≤ s.generations tenantId ∧ version ≤ s.versions tenantId
  | .evaluating version _ basis | .evaluated version _ basis =>
      lookup.floor ≤ basis ∧ s.Supports tenantId version basis
  | .returned _ basis => lookup.floor ≤ basis
  | .failed => True

theorem LookupOk.moves {lookup : Lookup} (h : s.LookupOk lookup) (hm : Moves s s') : s'.LookupOk lookup := by
  unfold LookupOk at h ⊢
  have hgen := hm.generations lookup.query.scope.tenantId
  have hver := hm.versions lookup.query.scope.tenantId
  cases hphase : lookup.phase with
  | started =>
      simp only [hphase] at h ⊢
      exact ⟨h.1.trans hgen, (h.2.moves hm).mono hver⟩
  | versioned version =>
      simp only [hphase] at h ⊢
      exact ⟨h.1.trans hgen, h.2.1.trans hver, h.2.2.moves hm⟩
  | missed version =>
      simp only [hphase] at h ⊢
      exact ⟨h.1.trans hgen, h.2.trans hver⟩
  | evaluating version readings basis =>
      simp only [hphase] at h ⊢
      exact ⟨h.1, h.2.moves hm⟩
  | evaluated version decision basis =>
      simp only [hphase] at h ⊢
      exact ⟨h.1, h.2.moves hm⟩
  | returned decision basis =>
      simp only [hphase] at h ⊢
      exact h
  | failed => trivial

/-- The invariant of a clean run. -/
structure Fresh (s : System) : Prop where
  bumps : ∀ tenantId n, s.HasIntake tenantId (.bumped n) → n ≤ s.versions tenantId
  commits : ∀ tenantId n g, s.HasIntake tenantId (.committed (some n) g) →
    n ≤ s.versions tenantId ∧ g ≤ s.generations tenantId
  reached : ∀ tenantId, s.Reaches tenantId (s.generations tenantId) (s.versions tenantId)
  entries : ∀ key entry, s.entries key = some entry → s.Supports key.1 key.2.1 entry.basis
  lookups : ∀ lookup ∈ s.lookups, s.LookupOk lookup

/-! ## the steps -/

theorem mem_set_of_ne {α : Type} {l : List α} {old new a : α} (hi : l[i]? = some old) (ha : a ∈ l) (hne : a ≠ old) :
    a ∈ l.set i new := by
  obtain ⟨k, hk⟩ := List.mem_iff_getElem?.mp ha
  have hki : i ≠ k := by
    rintro rfl
    exact hne (Option.some.inj (hk.symm.trans hi))
  exact List.mem_iff_getElem?.mpr ⟨k, by rw [List.getElem?_set_ne hki, hk]⟩

theorem Moves.of_eq (hversions : s'.versions = s.versions) (hgenerations : s'.generations = s.generations)
    (hintakes : s'.intakes = s.intakes) : Moves s s' where
  versions tenantId := by rw [hversions]
  generations tenantId := by rw [hgenerations]
  bumped _ _ h := .inl (by rwa [HasIntake, hintakes] at h)
  committed _ _ _ h := .inl (by rwa [HasIntake, hintakes] at h)
  kept _ _ _ h := by rwa [HasIntake, hintakes]

theorem Moves.setIntake (hi : s.intakes[i]? = some intake) (hs' : s'.intakes = s.intakes.set i { intake with phase })
    (hversions : ∀ tenantId, s.versions tenantId ≤ s'.versions tenantId)
    (hgenerations : ∀ tenantId, s.generations tenantId ≤ s'.generations tenantId)
    (hopen : ∀ n g, intake.phase ≠ .committed (some n) g)
    (hbumped : ∀ n, phase = .bumped n → s.versions intake.record.tenantId < n)
    (hcommitted : ∀ n g, phase = .committed (some n) g → intake.phase = .bumped n) : Moves s s' where
  versions := hversions
  generations := hgenerations
  bumped tenantId n := by
    rintro ⟨other, hmem, rfl, hphase⟩
    rw [hs'] at hmem
    rcases List.mem_or_eq_of_mem_set hmem with hmem | rfl
    · exact .inl ⟨other, hmem, rfl, hphase⟩
    · exact .inr (hbumped n hphase)
  committed tenantId n g := by
    rintro ⟨other, hmem, rfl, hphase⟩
    rw [hs'] at hmem
    rcases List.mem_or_eq_of_mem_set hmem with hmem | rfl
    · exact .inl ⟨other, hmem, rfl, hphase⟩
    · exact .inr ⟨intake, List.mem_of_getElem? hi, rfl, hcommitted n g hphase⟩
  kept tenantId n g := by
    rintro ⟨other, hmem, rfl, hphase⟩
    refine ⟨other, ?_, rfl, hphase⟩
    rw [hs']
    refine mem_set_of_ne hi hmem ?_
    rintro rfl
    exact hopen n g hphase

/-- The invariant survives whatever intakes may do. -/
theorem Fresh.moves (h : s.Fresh) (hm : Moves s s')
    (hbumps : ∀ tenantId n, s'.HasIntake tenantId (.bumped n) → n ≤ s'.versions tenantId)
    (hcommits : ∀ tenantId n g, s'.HasIntake tenantId (.committed (some n) g) →
      g ≤ s'.generations tenantId) (hreached : ∀ tenantId, s'.generations tenantId = s.generations tenantId ∨
      ∃ n, s'.HasIntake tenantId (.committed (some n) (s'.generations tenantId))) (hentries : s'.entries = s.entries)
    (hlookups : s'.lookups = s.lookups) : s'.Fresh where
  bumps := hbumps
  commits tenantId n g hg := by
    refine ⟨?_, hcommits tenantId n g hg⟩
    rcases hm.committed tenantId n g hg with hold | hopen
    · exact (h.commits tenantId n g hold).1.trans (hm.versions tenantId)
    · exact (h.bumps tenantId n hopen).trans (hm.versions tenantId)
  reached tenantId := by
    rcases hreached tenantId with heq | ⟨n, hn⟩
    · rw [heq]
      exact ((h.reached tenantId).moves hm).mono (hm.versions tenantId)
    · refine .inr ⟨n, hn, ?_⟩
      rcases hm.committed tenantId n _ hn with hold | hopen
      · exact (h.commits tenantId n _ hold).1.trans (hm.versions tenantId)
      · exact (h.bumps tenantId n hopen).trans (hm.versions tenantId)
  entries key entry hentry := (h.entries key entry (hentries ▸ hentry)).moves hm
  lookups lookup hlookup := (h.lookups lookup (hlookups ▸ hlookup)).moves hm

/-- And what lookups do, if their new phase is in order. -/
theorem Fresh.of_eq (h : s.Fresh) (hversions : s'.versions = s.versions)
    (hgenerations : s'.generations = s.generations) (hintakes : s'.intakes = s.intakes)
    (hentries : ∀ key entry, s'.entries key = some entry → s.entries key = some entry ∨
      s.Supports key.1 key.2.1 entry.basis) (hlookups : ∀ lookup ∈ s'.lookups, lookup ∈ s.lookups ∨ s.LookupOk lookup) :
    s'.Fresh := by
  have hm : Moves s s' := .of_eq hversions hgenerations hintakes
  have hhas : ∀ tenantId phase, s'.HasIntake tenantId phase → s.HasIntake tenantId phase := by
    intro tenantId phase hp
    rwa [HasIntake, hintakes] at hp
  refine ⟨?_, ?_, ?_, ?_, ?_⟩
  · intro tenantId n hn
    rw [hversions]
    exact h.bumps tenantId n (hhas _ _ hn)
  · intro tenantId n g hg
    rw [hversions, hgenerations]
    exact h.commits tenantId n g (hhas _ _ hg)
  · intro tenantId
    rw [hversions, hgenerations]
    exact (h.reached tenantId).moves hm
  · intro key entry hentry
    rcases hentries key entry hentry with hold | hnew
    · exact (h.entries key entry hold).moves hm
    · exact hnew.moves hm
  · intro lookup hlookup
    rcases hlookups lookup hlookup with hold | hnew
    · exact (h.lookups lookup hold).moves hm
    · exact hnew.moves hm

theorem Fresh.advance (h : s.Fresh) (i : Nat) (lookup : Lookup) (phase : LookupPhase)
    (hok : s.LookupOk { lookup with phase }) : (s.advance i lookup phase).Fresh := by
  refine h.of_eq rfl rfl rfl (fun key entry hentry => .inl hentry) fun other hother => ?_
  rcases List.mem_or_eq_of_mem_set hother with hold | rfl
  · exact .inl hold
  · exact .inr hok

theorem Fresh.persist (h : s.Fresh) (record : PolicyRecord) :
    Fresh { s with intakes := s.intakes ++ [⟨record, .persisted⟩] } := by
  have hhas : ∀ tenantId phase, phase ≠ .persisted →
      (HasIntake { s with intakes := s.intakes ++ [⟨record, .persisted⟩] } tenantId phase ↔
        s.HasIntake tenantId phase) := by
    intro tenantId phase hphase
    simp [HasIntake, or_and_right, exists_or, Ne.symm hphase]
  refine h.moves ⟨fun _ => le_rfl, fun _ => le_rfl, ?_, ?_, ?_⟩ ?_ ?_ (fun _ => .inl rfl) rfl rfl
  · exact fun tenantId n hn => .inl ((hhas _ _ (by simp)).mp hn)
  · exact fun tenantId n g hg => .inl ((hhas _ _ (by simp)).mp hg)
  · exact fun tenantId n g hg => (hhas _ _ (by simp)).mpr hg
  · exact fun tenantId n hn => h.bumps tenantId n ((hhas _ _ (by simp)).mp hn)
  · exact fun tenantId n g hg => (h.commits tenantId n g ((hhas _ _ (by simp)).mp hg)).2

theorem le_update {f : String → Nat} (h : f a ≤ n) (b : String) : f b ≤ update f a n b := by
  by_cases he : b = a
  · rwa [he, update_self]
  · rw [update_of_ne he]

theorem Fresh.bump (h : s.Fresh) (hi : s.intakes[i]? = some intake) (hphase : intake.phase = .persisted)
    (hversion : s.versions intake.record.tenantId < version) :
    Fresh ({ s with
      versions := update s.versions intake.record.tenantId version }.setIntake i
        { intake with phase := .bumped version }) := by
  have hversions := le_update hversion.le
  refine h.moves (.setIntake hi rfl hversions (fun _ => le_rfl) (by simp [hphase]) ?_ (by simp)) ?_ ?_
    (fun _ => .inl rfl) rfl rfl
  · rintro n hn
    obtain rfl := IntakePhase.bumped.inj hn
    exact hversion
  · rintro tenantId n ⟨other, hmem, rfl, hother⟩
    rcases List.mem_or_eq_of_mem_set hmem with hmem | rfl
    · exact (h.bumps _ n ⟨other, hmem, rfl, hother⟩).trans (hversions _)
    · obtain rfl := IntakePhase.bumped.inj hother
      exact (update_self intake.record.tenantId _ s.versions).ge
  · rintro tenantId n g ⟨other, hmem, rfl, hother⟩
    rcases List.mem_or_eq_of_mem_set hmem with hmem | rfl
    · exact (h.commits _ n g ⟨other, hmem, rfl, hother⟩).2
    · simp at hother

theorem Fresh.ends (h : s.Fresh) (hi : s.intakes[i]? = some intake)
    (hopen : ∀ n g, intake.phase ≠ .committed (some n) g) (hbumped : ∀ n, phase ≠ .bumped n)
    (hcommitted : ∀ n g, phase ≠ .committed (some n) g) :
    Fresh ({ s with store }.setIntake i { intake with phase }) := by
  refine h.moves (.setIntake hi rfl (fun _ => le_rfl) (fun _ => le_rfl) hopen
    (fun n hn => absurd hn (hbumped n)) fun n g hg => absurd hg (hcommitted n g)) ?_ ?_
    (fun _ => .inl rfl) rfl rfl
  · rintro tenantId n ⟨other, hmem, rfl, hother⟩
    rcases List.mem_or_eq_of_mem_set hmem with hmem | rfl
    · exact h.bumps _ n ⟨other, hmem, rfl, hother⟩
    · exact absurd hother (hbumped n)
  · rintro tenantId n g ⟨other, hmem, rfl, hother⟩
    rcases List.mem_or_eq_of_mem_set hmem with hmem | rfl
    · exact (h.commits _ n g ⟨other, hmem, rfl, hother⟩).2
    · exact absurd hother (hcommitted n g)

theorem Fresh.commit (h : s.Fresh) (hi : s.intakes[i]? = some intake) (hphase : intake.phase = .bumped version)
    (hgeneration : s.generations intake.record.tenantId ≤ generation) :
    Fresh ({ s with
      store
      generations := update s.generations intake.record.tenantId generation }.setIntake i
        { intake with phase := .committed (some version) generation }) := by
  have hgenerations := le_update hgeneration
  refine h.moves (.setIntake hi rfl (fun _ => le_rfl) hgenerations (by simp [hphase]) (by simp)
    fun n g hg => ?_) ?_ ?_ ?_ rfl rfl
  · simp only [IntakePhase.committed.injEq, Option.some.injEq] at hg
    rw [hphase, hg.1]
  · rintro tenantId n ⟨other, hmem, rfl, hother⟩
    rcases List.mem_or_eq_of_mem_set hmem with hmem | rfl
    · exact h.bumps _ n ⟨other, hmem, rfl, hother⟩
    · simp at hother
  · rintro tenantId n g ⟨other, hmem, rfl, hother⟩
    rcases List.mem_or_eq_of_mem_set hmem with hmem | rfl
    · exact (h.commits _ n g ⟨other, hmem, rfl, hother⟩).2.trans (hgenerations _)
    · simp only [IntakePhase.committed.injEq] at hother
      rw [← hother.2]
      exact (update_self intake.record.tenantId _ s.generations).ge
  · intro tenantId
    by_cases he : tenantId = intake.record.tenantId
    · subst he
      refine .inr ⟨version, _, List.mem_set (List.getElem?_eq_some_iff.mp hi).1 _, rfl, ?_⟩
      simp [System.setIntake]
    · exact .inl (update_of_ne he _ _)

theorem le_counted (s : System) (record : PolicyRecord) (tenantId : String) :
    s.generations tenantId ≤ s.counted record tenantId := by
  unfold counted
  split
  · exact Nat.le_succ _
  · exact le_rfl

theorem counted_of_ne (hclean : ∀ tenantId ∈ changed record s.store, invalidated record = some tenantId)
    (hne : invalidated record ≠ some tenantId) : s.counted record tenantId = s.generations tenantId := by
  rw [counted, if_neg]
  rintro (hchanged | hinvalidated)
  · exact hne (hclean tenantId hchanged)
  · exact hne hinvalidated

/-- In a clean run a commit counts for the tenant whose version its intake has incremented, and for
nobody else. -/
theorem counted_eq_update (hclean : ∀ tenantId ∈ changed record s.store, invalidated record = some tenantId) :
    s.counted record = update s.generations record.tenantId (s.counted record record.tenantId) := by
  funext tenantId
  by_cases he : tenantId = record.tenantId
  · subst he
    rw [update_self]
  · rw [update_of_ne he]
    refine counted_of_ne hclean fun hinvalidated => he ?_
    unfold invalidated at hinvalidated
    split at hinvalidated
    · exact (Option.some.inj hinvalidated).symm
    · contradiction

section Lookups

variable {fromisoformat : String → Option DateTime} {s s' : System} {i : Nat} {lookup : Lookup}

theorem Fresh.start (h : s.Fresh) (query : Query) (now : DateTime) :
    Fresh { s with
      lookups := s.lookups ++ [⟨query, now, s.generations query.scope.tenantId, .started⟩] } := by
  refine h.of_eq rfl rfl rfl (fun key entry hentry => .inl hentry) fun other hother => ?_
  rcases List.mem_append.mp hother with hold | hnew
  · exact .inl hold
  · rw [List.mem_singleton.mp hnew]
    exact .inr ⟨le_rfl, h.reached _⟩

theorem Fresh.supports (h : s.Fresh) (hknown : version ≤ s.versions tenantId)
    (hclean : ∀ n, s.HasIntake tenantId (.bumped n) → version < n) :
    s.Supports tenantId version (s.generations tenantId) :=
  ⟨hclean, fun n g hg _ => (h.commits tenantId n g hg).2, hknown⟩

theorem Fresh.selectStep (h : s.Fresh) (readings : List Reading) (hfloor : lookup.floor ≤ basis)
    (hsupports : s.Supports lookup.query.scope.tenantId version basis) :
    (s.selectStep fromisoformat i lookup version readings basis).Fresh := by
  unfold System.selectStep
  split
  · exact h.advance i lookup _ ⟨hfloor, hsupports⟩
  · exact h.advance i lookup _ ⟨hfloor, hsupports⟩
  · exact h.advance i lookup _ trivial

theorem Fresh.select (h : s.Fresh) {now : DateTime} {readable : Bool}
    (hclean : s.Clean (.select i now readable))
    (hstep : s.step fromisoformat (.select i now readable) = some s') : s'.Fresh := by
  simp only [step, Option.bind_eq_bind, Option.bind_eq_some_iff] at hstep
  obtain ⟨lookup, hi, hstep⟩ := hstep
  have hok := h.lookups lookup (List.mem_of_getElem? hi)
  have hopen : ∀ version, lookup.phase.selecting = some version →
      ∀ n, s.HasIntake lookup.query.scope.tenantId (.bumped n) → version < n := by
    rintro version hversion n ⟨intake, hmem, htenant, hphase⟩
    exact hclean lookup hi version hversion intake hmem htenant n (by rw [hphase]; rfl)
  unfold LookupOk at hok
  cases hphase : lookup.phase with
  | missed version =>
      simp only [hphase, Option.pure_def, Option.some.injEq] at hstep hok
      rw [← hstep]
      exact h.selectStep _ hok.1 (h.supports hok.2 (hopen version (by rw [hphase]; rfl)))
  | evaluating version readings basis =>
      simp only [hphase, Option.pure_def, Option.some.injEq] at hstep hok
      rw [← hstep]
      exact h.selectStep _ hok.1 hok.2
  | _ => simp [hphase] at hstep

theorem Fresh.getVersion (h : s.Fresh) (hstep : s.step fromisoformat (.getVersion i) = some s') :
    s'.Fresh := by
  simp only [step, Option.bind_eq_bind, Option.bind_eq_some_iff] at hstep
  obtain ⟨lookup, hi, hstep⟩ := hstep
  have hok := h.lookups lookup (List.mem_of_getElem? hi)
  unfold LookupOk at hok
  cases hphase : lookup.phase with
  | started =>
      simp only [hphase, Option.pure_def, Option.some.injEq] at hstep hok
      rw [← hstep]
      exact h.advance i lookup _ ⟨hok.1, le_rfl, hok.2⟩
  | _ => simp [hphase] at hstep

theorem Fresh.getDecision (h : s.Fresh) (hstep : s.step fromisoformat (.getDecision i) = some s') :
    s'.Fresh := by
  simp only [step, Option.bind_eq_bind, Option.bind_eq_some_iff] at hstep
  obtain ⟨lookup, hi, hstep⟩ := hstep
  have hok := h.lookups lookup (List.mem_of_getElem? hi)
  unfold LookupOk at hok
  cases hphase : lookup.phase with
  | versioned version =>
      simp only [hphase] at hstep hok
      cases hentry : s.entries (decisionKey lookup.query version) with
      | none =>
          simp only [hentry, Option.pure_def, Option.some.injEq] at hstep
          rw [← hstep]
          exact h.advance i lookup _ ⟨hok.1, hok.2.1⟩
      | some entry =>
          -- the version reaches the floor, and the entry is under the version
          have hsupports := h.entries _ entry hentry
          simp only [hentry, Option.pure_def, Option.some.injEq] at hstep
          rw [← hstep]
          exact h.advance i lookup (.returned entry.decision entry.basis)
            (hsupports.le_basis hok.2.2)
  | _ => simp [hphase] at hstep

theorem Fresh.setDecision (h : s.Fresh) (hstep : s.step fromisoformat (.setDecision i) = some s') :
    s'.Fresh := by
  simp only [step, Option.bind_eq_bind, Option.bind_eq_some_iff] at hstep
  obtain ⟨lookup, hi, hstep⟩ := hstep
  have hok := h.lookups lookup (List.mem_of_getElem? hi)
  unfold LookupOk at hok
  cases hphase : lookup.phase with
  | evaluated version decision basis =>
      simp only [hphase, Option.pure_def, Option.some.injEq] at hstep hok
      rw [← hstep]
      refine h.of_eq rfl rfl rfl (fun key entry hentry => ?_) fun other hother => ?_
      · by_cases hkey : key = decisionKey lookup.query version
        · subst hkey
          obtain rfl : (⟨decision, basis⟩ : Entry) = entry := by
            simpa [System.advance, System.setLookup] using hentry
          exact .inr hok.2
        · exact .inl (by simpa [System.advance, System.setLookup, hkey] using hentry)
      · rcases List.mem_or_eq_of_mem_set hother with hold | rfl
        · exact .inl hold
        · exact .inr hok.1
  | _ => simp [hphase] at hstep

theorem Fresh.expire (h : s.Fresh) (key : DecisionKey) :
    Fresh { s with entries := update s.entries key none } := by
  refine h.of_eq rfl rfl rfl (fun key' entry hentry => .inl ?_) fun other hother => .inl hother
  by_cases hkey : key' = key
  · simp [hkey] at hentry
  · simpa [hkey] using hentry

end Lookups

/-- One step of a clean run. -/
theorem Fresh.step {e : Event} (h : s.Fresh) (hclean : s.Clean e) (hstep : s.step fromisoformat e = some s') :
    s'.Fresh := by
  cases e with
  | persist record =>
      obtain rfl := Option.some.inj hstep
      exact h.persist record
  | bump i =>
      simp only [System.step, Option.bind_eq_bind, Option.bind_eq_some_iff] at hstep
      obtain ⟨intake, hi, hstep⟩ := hstep
      split at hstep
      · next hphase =>
          obtain rfl := Option.some.inj hstep
          exact h.bump hi hphase.1 (Nat.lt_succ_self _)
      · contradiction
  | commit i =>
      simp only [System.step, Option.bind_eq_bind, Option.bind_eq_some_iff] at hstep
      obtain ⟨intake, hi, hstep⟩ := hstep
      unfold commitStep at hstep
      cases hphase : intake.phase with
      | persisted =>
          simp only [hphase] at hstep
          split at hstep
          · contradiction
          · next htype =>
              obtain rfl := Option.some.inj hstep
              have hcounted : s.counted intake.record = s.generations :=
                funext fun tenantId => counted_of_ne (hclean intake hi) (by simp [invalidated, htype])
              rw [hcounted]
              exact h.ends hi (by simp [hphase]) (by simp) (by simp)
      | bumped version =>
          simp only [hphase, Option.some.injEq] at hstep
          rw [counted_eq_update (hclean intake hi)] at hstep
          rw [← hstep, update_self]
          exact h.commit hi hphase (le_counted s intake.record _)
      | _ => simp [hphase] at hstep
  | rollback i =>
      simp only [System.step, Option.bind_eq_bind, Option.bind_eq_some_iff] at hstep
      obtain ⟨intake, hi, hstep⟩ := hstep
      cases hphase : intake.phase with
      | persisted =>
          simp only [hphase, Option.pure_def, Option.some.injEq] at hstep
          rw [← hstep]
          exact h.ends hi (by simp [hphase]) (by simp) (by simp)
      | bumped version =>
          simp only [hphase, Option.pure_def, Option.some.injEq] at hstep
          rw [← hstep]
          exact h.ends hi (by simp [hphase]) (by simp) (by simp)
      | _ => simp [hphase] at hstep
  | start query now =>
      obtain rfl := Option.some.inj hstep
      exact h.start query now
  | getVersion i => exact h.getVersion hstep
  | getDecision i => exact h.getDecision hstep
  | select i now readable => exact h.select hclean hstep
  | setDecision i => exact h.setDecision hstep
  | expire key =>
      obtain rfl := Option.some.inj hstep
      exact h.expire key
  | adopt inventory =>
      obtain rfl := Option.some.inj hstep
      exact h.of_eq rfl rfl rfl (fun _ _ hentry => .inl hentry) fun _ hother => .inl hother

theorem Fresh.run {events : List Event} (h : s.Fresh) (hclean : s.CleanRun fromisoformat events)
    (hrun : s.run fromisoformat events = some s') : s'.Fresh := by
  induction events generalizing s with
  | nil =>
      obtain rfl := Option.some.inj hrun
      exact h
  | cons e events ih =>
      simp only [System.run, Option.bind_eq_bind, Option.bind_eq_some_iff] at hrun
      obtain ⟨s₁, hstep, hrun⟩ := hrun
      exact ih (h.step hclean.1 hstep) (hclean.2 s₁ hstep) hrun

/-- Nothing is cached and nothing is under way. -/
structure Initial (s : System) : Prop where
  versions : ∀ tenantId, s.versions tenantId = 0
  generations : ∀ tenantId, s.generations tenantId = 0
  entries : ∀ key, s.entries key = none
  intakes : s.intakes = []
  lookups : s.lookups = []

theorem Initial.fresh (h : s.Initial) : s.Fresh where
  bumps tenantId n := by simp [HasIntake, h.intakes]
  commits tenantId n g := by simp [HasIntake, h.intakes]
  reached tenantId := .inl (h.generations tenantId)
  entries key entry hentry := by simp [h.entries] at hentry
  lookups lookup hlookup := by simp [h.lookups] at hlookup

/-- **Decisions are fresh** in every state of a clean run: what a lookup returns rests on
tables that had every intake of its tenant that was committed when the lookup started. -/
theorem cached_decisions_fresh (fromisoformat : String → Option DateTime) (s s' : System) (events : List Event)
    (hs : s.Initial) (hclean : s.CleanRun fromisoformat events)
    (hrun : s.run fromisoformat events = some s') (lookup : Lookup) (hlookup : lookup ∈ s'.lookups)
    (decision : ModelDecision) (basis : Nat) (hreturned : lookup.phase = .returned decision basis) :
    lookup.floor ≤ basis := by
  have hok := (hs.fresh.run hclean hrun).lookups lookup hlookup
  simpa only [LookupOk, hreturned] using hok

end System

section Sample

def sampleScope : RequestScope where
  tenantId := "11111111-1111-4111-8111-111111111111"
  teamId := "22222222-2222-4222-8222-222222222222"
  projectId := "33333333-3333-4333-8333-333333333333"
  agentId := "billing-agent"

def sampleQuery : Query := ⟨sampleScope, "model-x"⟩

def sampleDenylist : PolicyRecord :=
  { samplePolicy 0 samplePolicyTime with
    teamId := wildcardUuid
    projectId := wildcardUuid
    agentId := wildcardAgent
    body := .modelDenylist ["model-x"] "withdrawn" }

def idleSystem : System where
  versions _ := 0
  entries _ := none
  store := PolicyDb.empty
  inventory _ := none
  generations _ := 0
  intakes := []
  lookups := []

theorem idleSystem_initial : idleSystem.Initial :=
  ⟨fun _ => rfl, fun _ => rfl, fun _ => rfl, rfl, rfl⟩

/-- The decision a lookup has returned, with its basis. -/
def LookupPhase.outcome : LookupPhase → Option (ModelDecision × Nat)
  | returned decision basis => some (decision, basis)
  | _ => none

def lookupEvents (i : Nat) : List Event :=
  [.start sampleQuery samplePolicyTime, .getVersion i, .getDecision i, .select i samplePolicyTime true,
    .select i samplePolicyTime true, .select i samplePolicyTime true, .setDecision i]

/-- The first lookup runs while the deny-list waits for its commit; the second one starts
after the commit, and hits. -/
def staleEvents : List Event :=
  [.persist sampleDenylist, .bump 0] ++ lookupEvents 0 ++
    [.commit 0, .start sampleQuery samplePolicyTime, .getVersion 1, .getDecision 1]

/-- The first lookup ends before the increment. -/
def freshEvents : List Event :=
  [.persist sampleDenylist] ++ lookupEvents 0 ++
    [.bump 0, .commit 0, .start sampleQuery samplePolicyTime, .getVersion 1, .getDecision 1,
      .select 1 samplePolicyTime true, .select 1 samplePolicyTime true, .setDecision 1]

theorem some_of_forall_mem {run : Option System} {P : System → Prop} (hsome : run.isSome)
    (h : ∀ s ∈ run, P s) : ∃ s, run = some s ∧ P s :=
  ⟨run.get hsome, (Option.some_get hsome).symm, h _ (Option.get_mem hsome)⟩

theorem cached_decisions_fresh_sample : ∃ s' lookup,
    idleSystem.run (fun _ => none) freshEvents = some s' ∧ s'.lookups[1]? = some lookup ∧
      lookup.phase.outcome =
        some (.deny "55555555-5555-4555-8555-555555555555" .modelDenied, 1) ∧
      lookup.floor ≤ 1 := by
  obtain ⟨s', hrun, hreached⟩ := some_of_forall_mem
    (P := fun s' => s'.lookups[1]?.map (fun lookup => lookup.phase.outcome) =
      some (some (.deny "55555555-5555-4555-8555-555555555555" .modelDenied, 1)))
    (show (idleSystem.run (fun _ => none) freshEvents).isSome by decide +kernel) (by decide +kernel)
  obtain ⟨lookup, hlookup, houtcome⟩ := Option.map_eq_some_iff.mp hreached
  refine ⟨s', lookup, hrun, hlookup, houtcome, ?_⟩
  cases hphase : lookup.phase with
  | returned decision basis =>
      rw [hphase, LookupPhase.outcome, Option.some.injEq, Prod.mk.injEq] at houtcome
      rw [← houtcome.2]
      exact System.cached_decisions_fresh (fun _ => none) idleSystem s' freshEvents idleSystem_initial
        (by decide +kernel) hrun lookup (List.mem_of_getElem? hlookup) decision basis hphase
  | _ => simp [hphase, LookupPhase.outcome] at houtcome

/-- A denial is cached, and then the deny-list becomes a budget. -/
def retypedEvents : List Event :=
  [.persist sampleDenylist, .bump 0, .commit 0, .start sampleQuery samplePolicyTime, .getVersion 0, .getDecision 0,
    .select 0 samplePolicyTime true, .select 0 samplePolicyTime true, .setDecision 0,
    .persist (samplePolicy 1 samplePolicyTime), .commit 1,
    .start sampleQuery samplePolicyTime, .getVersion 1, .getDecision 1]

/-- The second lookup is told that the model is allowed, though the deny-list was in the
tables when it started; or that it is denied, by a deny-list that is none any more. -/
theorem stale_after_commit :
    (∃ s', idleSystem.run (fun _ => none) staleEvents = some s' ∧
      (s'.intakes.map fun intake => intake.phase) = [.committed (some 1) 1] ∧
      ∃ lookup ∈ s'.lookups[1]?, lookup.floor = 1 ∧ lookup.phase.outcome = some (.allow none, 0)) ∧
    ∃ s', idleSystem.run (fun _ => none) retypedEvents = some s' ∧
      (s'.intakes.map fun intake => intake.phase) = [.committed (some 1) 1, .committed none 2] ∧
      (s'.store.policies.committed sampleDenylist.policyId).map PolicyRow.policyType = some .budgetLimit ∧
      ∃ lookup ∈ s'.lookups[1]?, lookup.floor = 2 ∧
        lookup.phase.outcome = some (.deny sampleDenylist.policyId .modelDenied, 1) :=
  ⟨some_of_forall_mem (by decide +kernel) (by decide +kernel), some_of_forall_mem (by decide +kernel) (by decide +kernel)⟩

end Sample

end Anoryx.Sentinel.EvalCache
