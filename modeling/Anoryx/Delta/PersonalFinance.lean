import Anoryx.ReadCommitted.ReferringTable

/-!
# Anoryx.Delta.PersonalFinance

Delta's personal ledger (`personal_finance/store.py`): the accounts, which no statement
changes, and the transactions, which are only ever inserted.

The rows that explain a transaction (an execution, an imported statement line) stand in a
table of their own, that refers to the ledger: `PersonalDb`.
-/

namespace Anoryx.Delta

open ReadCommitted

inductive TransactionCategory
  | groceries
  | rent
  | utilities
  | dining
  | transport
  | entertainment
  | subscriptions
  | healthcare
  | income
  | transfer
  | other
deriving DecidableEq

/-- Who has written a transaction: its owner, the execution engine, or a statement import. -/
inductive TransactionSource
  | manual
  | execution
  | statement
deriving DecidableEq

/-- A row of `personal_accounts`, under its `account_id`. -/
structure PersonalAccountRow where
  tenantId : String
  currency : String

/-- A row of `personal_transactions`, under its `txn_id`. -/
structure PersonalTransactionRow where
  tenantId : String
  accountId : String
  category : TransactionCategory
  amountMinorUnits : Int
  currency : String
  description : String
  merchant : Option String
  occurredAt : Int
  createdAt : Int
  source : TransactionSource
deriving DecidableEq

/-- `get_account`, in a session of the tenant. -/
def getAccount (accounts : String → Option PersonalAccountRow) (tenantId accountId : String) :
    Option PersonalAccountRow :=
  (accounts accountId).filter fun account => account.tenantId = tenantId

/-- The ledger, under the rows that explain it. -/
abbrev PersonalDb (K V : Type) := ReferringTable K V Int String PersonalTransactionRow

theorem getAccount_eq_some {accounts : String → Option PersonalAccountRow} {tenantId accountId : String}
    {account : PersonalAccountRow} (h : getAccount accounts tenantId accountId = some account) :
    accounts accountId = some account ∧ account.tenantId = tenantId := by
  obtain ⟨haccount, htenant⟩ := Option.filter_eq_some_iff.mp h
  exact ⟨haccount, of_decide_eq_true htenant⟩

end Anoryx.Delta
