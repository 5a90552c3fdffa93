import Anoryx.Sentinel.Enforcement

/-!
# Anoryx.Sentinel.ModelPolicy

The model half of request-time enforcement (`policy/enforcement.py`,
`evaluate_model_policies`): deny-lists, allow-lists and the default-deny switch with
the model inventory.

The evaluation makes two to four SELECTs, each of which sees what is committed when it
starts.  So it is a function of the readings it has made: it asks for another one, or
it is done.

`fromisoformat` is `datetime.fromisoformat`, after the replacement of `Z`.
-/

namespace Anoryx.Sentinel

def wildcardUuid : String := "00000000-0000-0000-0000-000000000000"

def wildcardAgent : String := "all-agents"

inductive ModelDenyReason
  | modelDenied
  | modelNotInAllowlist
  | modelNotApproved
  | modelRetired
deriving DecidableEq

inductive ModelDecision
  | allow (policyId : Option String)
  | deny (policyId : String) (reason : ModelDenyReason)
deriving DecidableEq

/-! ## matching -/

def modelMatchesScope (view : PolicyRecord) (scope : RequestScope) : Bool :=
  view.tenantId = scope.tenantId ∧ view.teamId ∈ [scope.teamId, wildcardUuid] ∧
    view.projectId ∈ [scope.projectId, wildcardUuid] ∧ view.agentId ∈ [scope.agentId, wildcardAgent]

def modelSpecificity (view : PolicyRecord) : Nat :=
  (decide (view.teamId ≠ wildcardUuid)).toNat + (decide (view.projectId ≠ wildcardUuid)).toNat +
    (decide (view.agentId ≠ wildcardAgent)).toNat

/-- The order of the keys `(specificity, policy_version, policy_id)`. -/
def lessSpecific (v w : PolicyRecord) : Bool :=
  modelSpecificity v < modelSpecificity w ∨ modelSpecificity v = modelSpecificity w ∧
    (v.policyVersion < w.policyVersion ∨ v.policyVersion = w.policyVersion ∧ v.policyId < w.policyId)

/-- `max` under that order: the first of the greatest. -/
def mostSpecific : List PolicyRecord → Option PolicyRecord
  | [] => none
  | v :: views => some (views.foldl (fun best w => if lessSpecific best w then w else best) v)

def isDenied (view : PolicyRecord) (modelId : String) : Bool :=
  match view.body with
  | .modelDenylist deniedModelIds _ => modelId ∈ deniedModelIds
  | _ => false

def isAllowed (view : PolicyRecord) (modelId : String) : Bool :=
  match view.body with
  | .modelAllowlist allowedModelIds _ => modelId ∈ allowedModelIds
  | _ => false

def resolveModelDecision (allowViews denyViews : List PolicyRecord) (modelId : String) : ModelDecision :=
  match denyViews.find? fun view => isDenied view modelId with
  | some view => .deny view.policyId .modelDenied
  | none =>
      match mostSpecific allowViews with
      | none => .allow none
      | some chosen =>
          if isAllowed chosen modelId then .allow (some chosen.policyId)
          else .deny chosen.policyId .modelNotInAllowlist

/-! ## the evaluation -/

inductive InventoryState
  | pending
  | approved
  | denied
deriving DecidableEq

/-- A row of `model_inventory`, under tenant and model. -/
structure InventoryRow where
  state : InventoryState
  retireAt : Option DateTime
deriving DecidableEq

/-- What one SELECT finds: the clock, the policy store, and the inventory unless it
cannot be read. -/
structure Reading where
  now : DateTime
  store : PolicyDb
  inventory : Option (String × String → Option InventoryRow)

/-- How far an evaluation is. -/
inductive Progress
  | more
  | decided (decision : ModelDecision)
  | raised

section Evaluate

variable (fromisoformat : String → Option DateTime)

def allowlistActive (view : PolicyRecord) (now : DateTime) : Bool :=
  match view.body with
  | .modelAllowlist _ (some effectiveUntil) =>
      (fromisoformat effectiveUntil).any fun stop => now < stop
  | _ => true

/-- The views of the rows of a type that match the scope; `none` if a payload does not
validate as that type. -/
def matchingViews (policyType : PolicyType) (scope : RequestScope) (r : Reading) :
    Option (List PolicyRecord) :=
  let views := (getActivePoliciesForScope r.store scope.tenantId policyType r.now).map
    fun p => p.2.policyPayload
  if views.all fun view => view.policyType = policyType then
    some (views.filter fun view => modelMatchesScope view scope)
  else none

/-- The default-deny gate, once the inventory has been read. -/
def approvalDecision (approval : PolicyRecord) (scope : RequestScope) (modelId : String)
    (now : DateTime) (r : Reading) : ModelDecision :=
  match r.inventory with
  | none => .deny approval.policyId .modelNotApproved
  | some inventory =>
      match inventory (scope.tenantId, modelId) with
      | none => .deny approval.policyId .modelNotApproved
      | some row =>
          if row.state ≠ .approved then .deny approval.policyId .modelNotApproved
          else if row.retireAt.any (fun retireAt => retireAt < now) then
            .deny approval.policyId .modelRetired
          else .allow (some approval.policyId)

/-- `evaluate_model_policies`, on the readings of its SELECTs so far. -/
def evaluateModelPolicies (scope : RequestScope) (modelId : String) (now : DateTime) :
    List Reading → Progress
  | deny :: allow :: rest =>
      match matchingViews .modelDenylist scope deny, matchingViews .modelAllowlist scope allow with
      | some denyViews, some allowViews =>
          let allowViews := allowViews.filter fun view => allowlistActive fromisoformat view now
          match resolveModelDecision allowViews denyViews modelId, rest with
          | .deny policyId reason, _ => .decided (.deny policyId reason)
          | .allow _, [] => .more
          | .allow policyId, approval :: rest =>
              match matchingViews .modelApproval scope approval with
              | none => .raised
              | some approvalViews =>
                  match mostSpecific approvalViews, rest with
                  | none, _ => .decided (.allow policyId)
                  | some _, [] => .more
                  | some approval, inventory :: _ =>
                      .decided (approvalDecision approval scope modelId now inventory)
      | _, _ => .raised
  | _ => .more

end Evaluate

end Anoryx.Sentinel
