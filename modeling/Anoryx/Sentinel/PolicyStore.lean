import Anoryx.Calendar
import Anoryx.ReadCommitted.RelyGuarantee

/-!
# Anoryx.Sentinel.PolicyStore

The policy store of Sentinel: the records of the policy contract
(`contracts/policy.schema.json`, `policy/variants/`), the tables `policies` (one
head row per policy) and `policy_versions` (every version ever accepted) with the
trigger of migration 0004, and the intake of a verified record
(`policy/intake.py` from the replay check on, `policy_repository.py`).

The session does not flush on its own, so `upsert_policy` reads first and writes
at its end: the head row, then — its foreign key makes it the child — the version
row.  An UPDATE names only the columns whose value differs from the one the
session has loaded, and `updated_at` always differs, so there is always an UPDATE
and with it a row lock.

Schema, signature and scope have been checked when a `PolicyRecord` gets here,
which makes `upsert_policy`'s own checks of type, version and signature idle.  The
audit event of an intake is appended to a table of its own.
-/

namespace Anoryx.Sentinel

open ReadCommitted

/-! ## records -/

inductive BudgetPeriod
  | hourly
  | daily
  | monthly
deriving DecidableEq

inductive BudgetScope
  | tenant
  | team
  | project
  | agent
deriving DecidableEq

inductive PolicyType
  | budgetLimit
  | modelAllowlist
  | modelDenylist
  | codeScan
  | dataLock
  | modelApproval
deriving DecidableEq

/-- The fields of a record's own variant.  The fields of a code scan and a data lock
are read elsewhere; here they are one text. -/
inductive PolicyBody
  | budgetLimit (period : BudgetPeriod) (scope : BudgetScope) (maxTokensPerPeriod : Option Nat)
      (maxCostCentsPerPeriod : Option ℚ)
  | modelAllowlist (allowedModelIds : List String) (effectiveUntil : Option String)
  | modelDenylist (deniedModelIds : List String) (reason : String)
  | codeScan (fields : String)
  | dataLock (fields : String)
  | modelApproval
deriving DecidableEq

/-- The `policy_type` const of each variant. -/
def PolicyBody.policyType : PolicyBody → PolicyType
  | budgetLimit .. => .budgetLimit
  | modelAllowlist .. => .modelAllowlist
  | modelDenylist .. => .modelDenylist
  | codeScan _ => .codeScan
  | dataLock _ => .dataLock
  | modelApproval => .modelApproval

/-- A policy record that passed schema, signature and scope. -/
structure PolicyRecord where
  policyId : String
  policyVersion : Nat
  tenantId : String
  teamId : String
  projectId : String
  agentId : String
  effectiveFrom : DateTime
  signature : String
  body : PolicyBody
  version_pos : 0 < policyVersion := by decide
deriving DecidableEq

def PolicyRecord.policyType (record : PolicyRecord) : PolicyType := record.body.policyType

/-! ## the tables -/

/-- A row of `policies`, under its `policy_id`. -/
structure PolicyRow where
  policyType : PolicyType
  tenantId : String
  teamId : String
  projectId : String
  agentId : String
  currentVersion : Nat
  effectiveFrom : DateTime
  signature : String
  policyPayload : PolicyRecord
deriving DecidableEq

/-- A row of `policy_versions`, under `(policy_id, policy_version)`. -/
structure PolicyVersionRow where
  policyType : PolicyType
  tenantId : String
  teamId : String
  projectId : String
  agentId : String
  effectiveFrom : DateTime
  signature : String
  policyPayload : PolicyRecord
deriving DecidableEq

structure PolicyDb where
  policies : Table String PolicyRow
  versions : Table (String × Nat) PolicyVersionRow

namespace PolicyDb

def empty : PolicyDb := ⟨.empty, .empty⟩

instance : Database PolicyDb where
  commit t d := ⟨d.policies.commit t, d.versions.commit t⟩
  rollback t d := ⟨d.policies.rollback t, d.versions.rollback t⟩

end PolicyDb

inductive PolicyError
  | monotonicity (policyVersion currentMax : Nat)
  | uniqueViolation (constraint : String)
  | foreignKeyViolation
  | staleData
deriving DecidableEq

/-! ## statements -/

/-- `get_max_version`: the highest stored version of a policy. -/
def getMaxVersion (policyId : String) (t : Txn) (d : PolicyDb) : Option Nat :=
  (((d.versions.scan t).filter fun p => p.1.1 = policyId).map fun p => p.1.2).max?

/-- The head row of a first version. -/
def PolicyRecord.toRow (record : PolicyRecord) : PolicyRow where
  policyType := record.policyType
  tenantId := record.tenantId
  teamId := record.teamId
  projectId := record.projectId
  agentId := record.agentId
  currentVersion := record.policyVersion
  effectiveFrom := record.effectiveFrom
  signature := record.signature
  policyPayload := record

def PolicyRecord.toVersionRow (record : PolicyRecord) : PolicyVersionRow where
  policyType := record.policyType
  tenantId := record.tenantId
  teamId := record.teamId
  projectId := record.projectId
  agentId := record.agentId
  effectiveFrom := record.effectiveFrom
  signature := record.signature
  policyPayload := record

/-- `INSERT INTO policies` -/
def insertPolicy (record : PolicyRecord) (t : Txn) (d : PolicyDb) :
    Option (Except PolicyError Unit × PolicyDb) :=
  match d.policies.insertOrIgnore t record.policyId record.toRow with
  | none => none
  | some (false, _) => some (.error (.uniqueViolation "pk_policies"), d)
  | some (true, policies) => some (.ok (), { d with policies })

/-- A column after the UPDATE: set when the new value differs from the loaded one. -/
def flushed {α : Type} [DecidableEq α] (loaded new current : α) : α :=
  if new = loaded then current else new

/-- The head row after the UPDATE; the scope columns are never assigned. -/
def PolicyRow.flush (loaded : PolicyRow) (record : PolicyRecord) (row : PolicyRow) : PolicyRow :=
  { row with
    currentVersion := flushed loaded.currentVersion record.policyVersion row.currentVersion
    policyType := flushed loaded.policyType record.policyType row.policyType
    effectiveFrom := flushed loaded.effectiveFrom record.effectiveFrom row.effectiveFrom
    signature := flushed loaded.signature record.signature row.signature
    policyPayload := flushed loaded.policyPayload record row.policyPayload }

/-- `UPDATE policies SET … WHERE policy_id = …`, for the row that was loaded. -/
def updatePolicy (loaded : PolicyRow) (record : PolicyRecord) (t : Txn) (d : PolicyDb) :
    Option (Except PolicyError Unit × PolicyDb) :=
  match d.policies.updateWhere t record.policyId (fun _ => true) (loaded.flush record) with
  | none => none
  | some (none, _) => some (.error .staleData, d)
  | some (some _, policies) => some (.ok (), { d with policies })

/-- `INSERT INTO policy_versions`: the monotonicity trigger, the unique index, the
foreign key. -/
def insertPolicyVersion (record : PolicyRecord) (t : Txn) (d : PolicyDb) :
    Option (Except PolicyError Unit × PolicyDb) :=
  match (getMaxVersion record.policyId t d).filter (record.policyVersion ≤ ·) with
  | some currentMax => some (.error (.monotonicity record.policyVersion currentMax), d)
  | none =>
      match d.versions.insertOrIgnore t (record.policyId, record.policyVersion)
        record.toVersionRow with
      | none => none
      | some (false, _) => some (.error (.uniqueViolation "uq_policy_versions_id_ver"), d)
      | some (true, versions) =>
          if (d.policies.visible t record.policyId).isSome then some (.ok (), { d with versions })
          else some (.error .foreignKeyViolation, d)

/-! ## intake -/

/-- The head row's part of the flush: an INSERT, or an UPDATE of the row loaded. -/
def flushPolicy (record : PolicyRecord) : Option PolicyRow → Prog PolicyDb PolicyError Unit
  | none => Prog.checked (insertPolicy record)
  | some row => Prog.checked (updatePolicy row record)

def upsertPolicy (record : PolicyRecord) : Prog PolicyDb PolicyError Unit := do
  let currentMax ← Prog.query (getMaxVersion record.policyId)
  match currentMax.filter (record.policyVersion ≤ ·) with
  | some currentMax => .raise (.monotonicity record.policyVersion currentMax)
  | none => do
      let loaded ← Prog.query fun t d => d.policies.visible t record.policyId
      flushPolicy record loaded
      Prog.checked (insertPolicyVersion record)

inductive IntakeResult
  | accepted (policyId : String) (policyVersion : Nat) (policyType : PolicyType)
  | rejectedReplay (policyId : String) (attemptedVersion currentMaxVersion : Nat)
deriving DecidableEq

/-- `_run_intake`, from the replay check on. -/
def intakePolicy (record : PolicyRecord) : Prog PolicyDb PolicyError IntakeResult := do
  let currentMax ← Prog.query (getMaxVersion record.policyId)
  match currentMax.filter (record.policyVersion ≤ ·) with
  | some currentMax => pure (.rejectedReplay record.policyId record.policyVersion currentMax)
  | none => do
      upsertPolicy record
      pure (.accepted record.policyId record.policyVersion record.policyType)

/-- The store and its intakes. -/
abbrev PolicySys := Sys PolicyDb PolicyError PolicyRecord IntakeResult

def PolicySys.init : PolicySys := Sys.start PolicyDb.empty

/-! ## reads -/

/-- `get_active_policies_for_scope`: the committed head rows of a tenant and type that
are in effect, by policy id. -/
def getActivePoliciesForScope (d : PolicyDb) (tenantId : String) (policyType : PolicyType)
    (now : DateTime) : List (String × PolicyRow) :=
  (d.policies.rows.filter fun p => p.2.tenantId = tenantId ∧ p.2.policyType = policyType ∧
    p.2.effectiveFrom ≤ now).insertionSort fun p q => p.1 ≤ q.1

end Anoryx.Sentinel
