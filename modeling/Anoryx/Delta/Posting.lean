import Anoryx.Delta.Ledger

/-!
# Anoryx.Delta.Posting

The postings that ingest makes of usage and revenue events
(`ingest/resolver.py`, `ingest/posting.py`), and the system of all ledger
writers: any number of `post_usage`, `post_revenue`, `append_transaction` and
`reverse_transaction` calls, each one database transaction.

`uuid5` is the name-based hash of the standard library and stays a parameter:
nothing below depends on which id it returns.
-/

namespace Anoryx.Delta

open ReadCommitted

/-! ## event identifiers -/

def isHexDigit (c : Char) : Bool :=
  ('0' ≤ c && c ≤ '9') || ('a' ≤ c && c ≤ 'f') || ('A' ≤ c && c ≤ 'F')

/-- Characters of a dashed UUID from position `i` on. -/
def uuidChars : Nat → List Char → Bool
  | i, [] => i == 36
  | i, c :: cs =>
      (if i == 8 || i == 13 || i == 18 || i == 23 then c == '-' else isHexDigit c) &&
        uuidChars (i + 1) cs

/-- `_UUID_PATTERN`: the canonical dashed form, 8-4-4-4-12 hex digits. -/
def isUuid (s : String) : Bool := uuidChars 0 s.toList

/-! ## records -/

/-- A validated usage event. -/
structure UsageRecord where
  tenantId : String
  teamId : String
  projectId : String
  agentId : String
  model : String
  costEstimateCents : Nat
  currency : String
  eventId : String
  eventTimestamp : DateTime
  model_le : model.length ≤ 256 := by decide
  cost_le : costEstimateCents ≤ maxUsageCostCents := by decide
  eventId_uuid : isUuid eventId = true := by decide
deriving DecidableEq

/-- A validated `subscription_granted` event. -/
structure RevenueRecord where
  tenantId : String
  tier : String
  amountCents : Nat
  currency : String
  idempotencyKey : String
  occurredAt : DateTime
  tier_le : tier.length ≤ 64 := by decide
  amount_le : amountCents ≤ maxMoneyMinorUnits := by decide

def revenueSourceProduct : String := "rendly"

def revenueUnattributedId : String := "00000000-0000-0000-0000-000000000000"

/-- `revenue_idempotency_key`: the ledger key of a revenue event. -/
def revenueIdempotencyKey (r : RevenueRecord) : String :=
  "revenue:" ++ revenueSourceProduct ++ ":" ++ r.idempotencyKey

theorem eventId_ne_revenueIdempotencyKey (u : UsageRecord) (r : RevenueRecord) :
    u.eventId ≠ revenueIdempotencyKey r := by
  intro h
  have huuid := u.eventId_uuid
  rw [h] at huuid
  simp [isUuid, revenueIdempotencyKey, uuidChars, isHexDigit] at huuid

/-! ## accounts -/

section Uuid5

variable (uuid5 : String → String → String)

def deltaAccountNamespace : String := "d0e1f2a3-0004-4000-8000-000000000004"
def postingNamespace : String := "d0e1f2a3-0004-4000-8000-00000000d004"
def revenuePostingNamespace : String := "d0e1f2a3-0005-4000-8000-00000000d005"

def accountId (tenantId currency role : String) : String :=
  uuid5 deltaAccountNamespace (tenantId ++ ":" ++ currency ++ ":" ++ role)

structure ResolvedAccounts where
  expenseAccountId : String
  contraAccountId : String

structure ResolvedRevenueAccounts where
  receivableAccountId : String
  revenueAccountId : String

def resolveAccountIds (tenantId currency : String) : ResolvedAccounts where
  expenseAccountId := accountId uuid5 tenantId currency "expense"
  contraAccountId := accountId uuid5 tenantId currency "spend_clearing"

def resolveRevenueAccountIds (tenantId currency : String) : ResolvedRevenueAccounts where
  receivableAccountId := accountId uuid5 tenantId currency "subscription_receivable"
  revenueAccountId := accountId uuid5 tenantId currency "subscription_revenue"

/-- `_ensure_account`: get-or-create, in a session of the account's own tenant. -/
def ensureAccount (account : String) (row : AccountRow) : Prog LedgerDb LedgerError Unit :=
  .exec fun t d => (d.accounts.insertOrIgnore t account row).map fun p =>
    ((), { d with accounts := p.2 })

def ensureAccounts (tenantId currency : String) : Prog LedgerDb LedgerError ResolvedAccounts := do
  let resolved := resolveAccountIds uuid5 tenantId currency
  ensureAccount resolved.expenseAccountId
    ⟨tenantId, .expense, currency, "AI Spend Expense (" ++ currency ++ ")"⟩
  ensureAccount resolved.contraAccountId
    ⟨tenantId, .liability, currency, "AI Spend Clearing (" ++ currency ++ ")"⟩
  pure resolved

def ensureRevenueAccounts (tenantId currency : String) :
    Prog LedgerDb LedgerError ResolvedRevenueAccounts := do
  let resolved := resolveRevenueAccountIds uuid5 tenantId currency
  ensureAccount resolved.receivableAccountId
    ⟨tenantId, .asset, currency, "Subscription Receivable (" ++ currency ++ ")"⟩
  ensureAccount resolved.revenueAccountId
    ⟨tenantId, .revenue, currency, "Subscription Revenue (" ++ currency ++ ")"⟩
  pure resolved

/-! ## two-leg transactions -/

/-- A debit and a credit of one amount make a transaction. -/
def twoLegs (txnId : String) (debit : LedgerEntry) (creditId creditAccount description : String)
    (hdebit : debit.direction = .debit) (hdesc : description.length ≤ 512) : Transaction where
  txnId := txnId
  tenantId := debit.tenantId
  entries := [debit,
    { debit with entryId := creditId, accountId := creditAccount, direction := .credit }]
  timestamp := debit.timestamp
  description := description
  two_le_length := by simp
  length_le := by simp
  description_le := hdesc
  one_currency := by simp
  one_tenant := by simp
  balanced := by simp [sideTotal, hdebit]

/-- `build_transaction`: DEBIT the expense account, CREDIT the clearing account. -/
def buildTransaction (r : UsageRecord) (accounts : ResolvedAccounts) : Transaction :=
  let base := r.tenantId ++ ":" ++ r.eventId
  twoLegs (uuid5 postingNamespace base)
    { entryId := uuid5 postingNamespace (base ++ ":debit")
      tenantId := r.tenantId
      accountId := accounts.expenseAccountId
      direction := .debit
      amount := ⟨r.costEstimateCents, r.currency,
        Nat.le_trans r.cost_le (by decide : maxUsageCostCents ≤ maxMoneyMinorUnits)⟩
      teamId := r.teamId
      projectId := r.projectId
      agentId := r.agentId
      timestamp := r.eventTimestamp }
    (uuid5 postingNamespace (base ++ ":credit")) accounts.contraAccountId
    ("AI usage: " ++ r.model) rfl
    (by
      have hlen : ("AI usage: " ++ r.model).length = 10 + r.model.length := by
        rw [String.length_append]
        rfl
      have := r.model_le
      omega)

/-- `build_revenue_transaction`: DEBIT the receivable, CREDIT the revenue account. -/
def buildRevenueTransaction (r : RevenueRecord) (accounts : ResolvedRevenueAccounts) : Transaction :=
  let base := r.tenantId ++ ":" ++ revenueSourceProduct ++ ":" ++ r.idempotencyKey
  twoLegs (uuid5 revenuePostingNamespace base)
    { entryId := uuid5 revenuePostingNamespace (base ++ ":debit")
      tenantId := r.tenantId
      accountId := accounts.receivableAccountId
      direction := .debit
      amount := ⟨r.amountCents, r.currency, r.amount_le⟩
      teamId := revenueUnattributedId
      projectId := revenueUnattributedId
      agentId := revenueSourceProduct
      timestamp := r.occurredAt }
    (uuid5 revenuePostingNamespace (base ++ ":credit")) accounts.revenueAccountId
    ("Rendly subscription revenue: " ++ r.tier) rfl
    (by
      have hlen : ("Rendly subscription revenue: " ++ r.tier).length = 29 + r.tier.length := by
        rw [String.length_append]
        rfl
      have := r.tier_le
      omega)

/-! ## the postings -/

/-- `post_usage`: accounts and posting in one transaction, keyed by the event id. -/
def postUsage (r : UsageRecord) : Prog LedgerDb LedgerError AppendResult := do
  let accounts ← ensureAccounts uuid5 r.tenantId r.currency
  appendTransaction r.tenantId (buildTransaction uuid5 r accounts) (some r.eventId) none

/-- `post_revenue`: the same, keyed by the namespaced revenue key. -/
def postRevenue (r : RevenueRecord) : Prog LedgerDb LedgerError AppendResult := do
  let accounts ← ensureRevenueAccounts uuid5 r.tenantId r.currency
  appendTransaction r.tenantId (buildRevenueTransaction uuid5 r accounts)
    (some (revenueIdempotencyKey r)) none

/-- The calls that write the ledger.  A session belongs to `tenant`. -/
inductive LedgerCall
  | postUsage (r : UsageRecord)
  | postRevenue (r : RevenueRecord)
  | appendTransaction (tenant : String) (txn : Transaction) (idempotencyKey reversalOf : Option String)
  | reverseTransaction (tenant originalTxnId newTxnId : String) (timestamp : DateTime)
      (description : String) (idempotencyKey : Option String) (uuid4 : Nat → String)

/-- The transaction program of a call. -/
def ledgerProg : LedgerCall → Prog LedgerDb LedgerError AppendResult
  | .postUsage r => postUsage uuid5 r
  | .postRevenue r => postRevenue uuid5 r
  | .appendTransaction tenant txn key reversalOf => appendTransaction tenant txn key reversalOf
  | .reverseTransaction tenant original new timestamp description key uuid4 =>
      reverseTransaction tenant original new timestamp description key uuid4

end Uuid5

/-- The ledger and its writers. -/
abbrev LedgerSys := Sys LedgerDb LedgerError LedgerCall AppendResult

/-- The ledger before the first call. -/
def LedgerSys.init : LedgerSys := Sys.start LedgerDb.empty

end Anoryx.Delta
