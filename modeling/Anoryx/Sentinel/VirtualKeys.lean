import Anoryx.ReadCommitted.Evolving
import Anoryx.ReadCommitted.Exclusive
import Anoryx.Sentinel.PolicyStore

/-!
# Anoryx.Sentinel.VirtualKeys

Virtual API keys: they are minted, rotated and revoked by operators (`admin/keys.py`), and
deactivated with their tenant (`deactivate_tenant` of `admin/tenants.py`), over
`virtual_api_key_repository.py` and `tenant_repository.py`; the gateway decides from the row
of a key alone (`gateway/middleware/auth.py`).

A call here is one whose body is valid.  The ids and secrets that are drawn come with it, and
a moment is a number of microseconds.  Teams and projects are fixed.  The audit events, the
timestamps of the rows and the metadata in the answers are left out.
-/

namespace Anoryx.Sentinel

open ReadCommitted

/-! ## rows -/

/-- A row of `virtual_api_keys`, under its `key_id`. -/
structure VirtualApiKey where
  keyFingerprint : String
  tenantId : String
  teamId : String
  projectId : String
  agentId : String
  label : Option String
  isActive : Bool
  expiresAt : Option Int
deriving DecidableEq

/-- A row of `tenants`, under its `tenant_id`. -/
structure TenantRow where
  isActive : Bool
deriving DecidableEq

structure KeyDb where
  tenants : Table String TenantRow
  keys : Table String VirtualApiKey
  /-- The key that a rotation has loaded and not yet cleared.  No statement reads it. -/
  rotating : Txn → Option String
  /-- The tenant whose active keys a deactivation has selected.  No statement reads it. -/
  cascading : Txn → Option String

instance : Database KeyDb where
  commit t d :=
    { tenants := d.tenants.commit t
      keys := d.keys.commit t
      rotating := Function.update d.rotating t none
      cascading := Function.update d.cascading t none }
  rollback t d :=
    { tenants := d.tenants.rollback t
      keys := d.keys.rollback t
      rotating := Function.update d.rotating t none
      cascading := Function.update d.cascading t none }

/-- The teams and projects of the tenants. -/
structure ScopeDirectory where
  team : String → String → Bool
  project : String → String → String → Bool

/-! ## requests -/

/-- `POST /tenants/{tenant_id}/keys` -/
structure MintKey where
  tenantId : String
  teamId : String
  projectId : String
  agentId : String
  label : Option String
  expiresAt : Option Int
  plaintext : String
  keyId : String

/-- `POST /tenants/{tenant_id}/keys/{key_id}/rotate` -/
structure RotateKey where
  tenantId : String
  keyId : String
  plaintext : String
  newKeyId : String

inductive KeyRequest
  | mint (call : MintKey)
  | rotate (call : RotateKey)
  | revoke (tenantId keyId : String)
  | deactivateTenant (tenantId : String)

inductive KeyAnswer
  /-- with the secret and the id of the new key -/
  | minted (secret keyId : String)
  | revoked (keyId : String)
  | deactivated (tenantId : String)
deriving DecidableEq

inductive KeyError
  | teamNotInTenant
  | projectNotInTenant
  | keyNotFound
  | tenantNotFound
  /-- `IntegrityError` -/
  | integrity
  /-- the row that was loaded is gone -/
  | staleData
deriving DecidableEq

/-! ## statements -/

/-- `get_by_id` of a key -/
def getById (keyId tenantId : String) (t : Txn) (d : KeyDb) : Option VirtualApiKey :=
  (d.keys.visible t keyId).filter fun row => row.tenantId = tenantId

/-- `get_by_id`, of a key that is to be rotated -/
def loadForRotation (keyId tenantId : String) (t : Txn) (d : KeyDb) : Option (Option VirtualApiKey × KeyDb) :=
  match getById keyId tenantId t d with
  | none => some (none, d)
  | some row => some (some row, { d with rotating := Function.update d.rotating t (some keyId) })

/-- `UPDATE virtual_api_keys SET is_active = false WHERE key_id = …` -/
def clearActive (keyId tenantId : String) (t : Txn) (d : KeyDb) : Option (Option VirtualApiKey × KeyDb) :=
  (d.keys.updateWhere t keyId (fun row => row.tenantId = tenantId) fun row => { row with isActive := false }).map fun p =>
    (p.1, { d with keys := p.2, rotating := Function.update d.rotating t none })

/-- `INSERT INTO virtual_api_keys`: `false` when there is such a key. -/
def insertKey (keyId : String) (row : VirtualApiKey) (t : Txn) (d : KeyDb) : Option (Bool × KeyDb) :=
  if d.keys.keys.any fun k => !d.keys.free t k && (d.keys.newest k).any fun other => other.keyFingerprint = row.keyFingerprint then
    none
  else if (d.keys.scan t).any fun p => p.2.keyFingerprint = row.keyFingerprint then some (false, d)
  else (d.keys.insertOrIgnore t keyId row).map fun p => (p.1, { d with keys := p.2 })

/-- `UPDATE tenants SET is_active = …, updated_at = …`, for the row that was loaded -/
def updateTenant (tenantId : String) (loaded : TenantRow) (t : Txn) (d : KeyDb) : Option (Option TenantRow × KeyDb) :=
  (d.tenants.updateWhere t tenantId (fun _ => true) fun row =>
    { row with isActive := flushed loaded.isActive false row.isActive }).map fun p => (p.1, { d with tenants := p.2 })

/-- The rows that `UPDATE virtual_api_keys … WHERE tenant_id = … AND is_active` finds when it starts -/
def selectActive (tenantId : String) (t : Txn) (d : KeyDb) : Option (List String × KeyDb) :=
  some (((d.keys.scan t).filter fun p => p.2.tenantId = tenantId && p.2.isActive).map Prod.fst,
    { d with cascading := Function.update d.cascading t (some tenantId) })

/-- … and what it does to one of them, when it has its lock -/
def deactivateKey (tenantId keyId : String) (t : Txn) (d : KeyDb) : Option (Option VirtualApiKey × KeyDb) :=
  (d.keys.updateWhere t keyId (fun row => row.tenantId = tenantId && row.isActive) fun row =>
    { row with isActive := false }).map fun p => (p.1, { d with keys := p.2 })

/-! ## the repository -/

section Repository

variable (fingerprint : String → String)

/-- The flush of a key that was loaded and made inactive: nothing, if it was inactive. -/
def flushInactive (keyId tenantId : String) (loaded : VirtualApiKey) : Prog KeyDb KeyError Unit :=
  if loaded.isActive then do
    let updated ← Prog.exec (clearActive keyId tenantId)
    match updated with
    | none => Prog.raise .staleData
    | some _ => pure ()
  else pure ()

/-- `create` -/
def createKey (keyId : String) (row : VirtualApiKey) : Prog KeyDb KeyError Unit :=
  Prog.inserting .integrity (insertKey keyId row)

def rotate (call : RotateKey) : Prog KeyDb KeyError Unit := do
  let found ← Prog.exec (loadForRotation call.keyId call.tenantId)
  match found with
  | none => Prog.raise .keyNotFound
  | some old => do
      flushInactive call.keyId call.tenantId old
      createKey call.newKeyId { old with
        keyFingerprint := fingerprint call.plaintext
        isActive := true
        expiresAt := none }

def deactivate (keyId tenantId : String) : Prog KeyDb KeyError Unit := do
  let found ← Prog.query (getById keyId tenantId)
  match found with
  | none => Prog.raise .keyNotFound
  | some row => flushInactive keyId tenantId row

/-- The rows of `deactivate_all_for_tenant`, one after another -/
def deactivateKeys (tenantId : String) : List String → Prog KeyDb KeyError Unit
  | [] => pure ()
  | keyId :: keyIds => do
      let _ ← Prog.exec (deactivateKey tenantId keyId)
      deactivateKeys tenantId keyIds

def deactivateAllForTenant (tenantId : String) : Prog KeyDb KeyError Unit := do
  let keyIds ← Prog.exec (selectActive tenantId)
  deactivateKeys tenantId keyIds

/-- `deactivate` of a tenant; its `updated_at` is new in any case. -/
def deactivateTenantRow (tenantId : String) : Prog KeyDb KeyError Unit := do
  let found ← Prog.query fun t (d : KeyDb) => d.tenants.visible t tenantId
  match found with
  | none => Prog.raise .tenantNotFound
  | some loaded => do
      let updated ← Prog.exec (updateTenant tenantId loaded)
      match updated with
      | none => Prog.raise .staleData
      | some _ => pure ()

/-! ## the routes -/

def MintKey.row (call : MintKey) : VirtualApiKey :=
  ⟨fingerprint call.plaintext, call.tenantId, call.teamId, call.projectId, call.agentId, call.label, true, call.expiresAt⟩

def mintKey (directory : ScopeDirectory) (call : MintKey) : Prog KeyDb KeyError KeyAnswer :=
  if !directory.team call.teamId call.tenantId then Prog.raise .teamNotInTenant
  else if !directory.project call.projectId call.teamId call.tenantId then Prog.raise .projectNotInTenant
  else do
    createKey call.keyId (call.row fingerprint)
    pure (.minted call.plaintext call.keyId)

def rotateKey (call : RotateKey) : Prog KeyDb KeyError KeyAnswer := do
  rotate fingerprint call
  pure (.minted call.plaintext call.newKeyId)

def revokeKey (tenantId keyId : String) : Prog KeyDb KeyError KeyAnswer := do
  deactivate keyId tenantId
  pure (.revoked keyId)

def deactivateTenant (tenantId : String) : Prog KeyDb KeyError KeyAnswer := do
  deactivateTenantRow tenantId
  deactivateAllForTenant tenantId
  pure (.deactivated tenantId)

def serveKeys (directory : ScopeDirectory) : KeyRequest → Prog KeyDb KeyError KeyAnswer
  | .mint call => mintKey fingerprint directory call
  | .rotate call => rotateKey fingerprint call
  | .revoke tenantId keyId => revokeKey tenantId keyId
  | .deactivateTenant tenantId => deactivateTenant tenantId

abbrev KeySys := Sys KeyDb KeyError KeyRequest KeyAnswer

/-! ## the gateway -/

/-- Whether a key is accepted at this moment -/
def VirtualApiKey.accepts (row : VirtualApiKey) (candidate : String) (now : Int) : Bool :=
  row.keyFingerprint = candidate && row.isActive && row.expiresAt.all fun expiresAt => now < expiresAt

/-- `lookup_by_plaintext`, in a transaction of its own -/
def lookupByPlaintext (plaintext : String) (now : Int) (d : KeyDb) : Option (String × VirtualApiKey) :=
  d.keys.rows.find? fun p => p.2.accepts (fingerprint plaintext) now

/-- The token of an `Authorization` header -/
def bearerToken (header : String) : Option String :=
  if "Bearer ".toList.isPrefixOf header.toList then some (String.ofList (header.toList.drop "Bearer ".length)) else none

/-- `AuthMiddleware.dispatch`: the row for an `Authorization` header, or `invalid_api_key` -/
def authenticate (header : String) (now : Int) (d : KeyDb) : Option (String × VirtualApiKey) :=
  (bearerToken header).bind fun plaintext => if plaintext = "" then none else lookupByPlaintext fingerprint plaintext now d

theorem authenticate_eq_some {header : String} {now : Int} {d : KeyDb} {keyId : String} {row : VirtualApiKey}
    (h : authenticate fingerprint header now d = some (keyId, row)) :
    d.keys.committed keyId = some row ∧ row.isActive = true := by
  obtain ⟨plaintext, -, hlookup⟩ := Option.bind_eq_some_iff.mp h
  split at hlookup
  · contradiction
  · have haccepts := List.find?_some hlookup
    simp only [VirtualApiKey.accepts, Bool.and_eq_true] at haccepts
    exact ⟨Table.mem_rows.mp (List.mem_of_find?_eq_some hlookup), haccepts.1.2⟩

end Repository

end Anoryx.Sentinel
