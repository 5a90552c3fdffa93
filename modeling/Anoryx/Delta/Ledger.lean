import Anoryx.Calendar
import Anoryx.ReadCommitted.Transaction

/-!
# Anoryx.Delta.Ledger

The double-entry ledger of Delta: the validated domain types (`ledger.py`,
`money.py`, `accounts.py`), the three append-only tables with their
constraints and triggers (migrations 0001 and 0002), and the write path
(`ledger_store.py`, `ingest/resolver.py`, `ingest/posting.py`) as transaction
programs.

A `Transaction` is balanced by construction: the fields of the structure are
the checks of the Pydantic validator, so every value of the type has passed
them.  The database checks again — `trg_le_in_txn_creation` before each entry
insert, the deferred `trg_le_balanced` at the end of the transaction — and
these triggers are statements of the programs below.

Every session is bound to one tenant (`get_tenant_session`); row-level
security confines what it reads and what it may insert to that tenant.
Constraint checks (primary and unique keys, foreign keys) see every row.
-/

namespace Anoryx.Delta

open ReadCommitted

/-! ## money and accounts -/

/-- `MAX_MONEY_MINOR_UNITS`: 1e11 cents, the largest amount a wire contract carries. -/
def maxMoneyMinorUnits : Nat := 100000000000

/-- `MAX_USAGE_COST_CENTS`: 1e8 cents. -/
def maxUsageCostCents : Nat := 100000000

/-- An exact monetary amount in integer cents. -/
structure Money where
  minorUnits : Nat
  currency : String
  bounded : minorUnits ≤ maxMoneyMinorUnits := by decide
deriving DecidableEq

/-- The five classical account types. -/
inductive AccountType
  | asset
  | liability
  | equity
  | revenue
  | expense
deriving DecidableEq

/-- A row of `accounts`; the primary key is the account id. -/
structure AccountRow where
  tenantId : String
  type : AccountType
  currency : String
  name : String
deriving DecidableEq

inductive EntryDirection
  | debit
  | credit
deriving DecidableEq

def EntryDirection.opposite : EntryDirection → EntryDirection
  | debit => credit
  | credit => debit

/-! ## the domain types -/

/-- One side of a transaction, attributed to the four stable ids. -/
structure LedgerEntry where
  entryId : String
  tenantId : String
  accountId : String
  direction : EntryDirection
  amount : Money
  teamId : String
  projectId : String
  agentId : String
  timestamp : DateTime
deriving DecidableEq

def sideTotal (side : EntryDirection) (entries : List LedgerEntry) : Nat :=
  ((entries.filter fun e => e.direction = side).map fun e => e.amount.minorUnits).sum

/-- A balanced set of ledger entries. -/
structure Transaction where
  txnId : String
  tenantId : String
  entries : List LedgerEntry
  timestamp : DateTime
  description : String
  two_le_length : 2 ≤ entries.length
  length_le : entries.length ≤ 1024
  description_le : description.length ≤ 512
  one_currency : ∀ e ∈ entries, ∀ e' ∈ entries, e.amount.currency = e'.amount.currency
  one_tenant : ∀ e ∈ entries, e.tenantId = tenantId
  balanced : sideTotal .debit entries = sideTotal .credit entries

/-- What a write of the ledger can be refused with. -/
inductive LedgerError
  | mixedCurrency
  | crossTenant
  | unbalanced (debit credit : Nat)
  | invalidShape
  | transactionNotFound (originalTxnId : String)
  | uniqueViolation (key : String)
  | foreignKeyViolation (constraint : String)
  | checkViolation (constraint : String)
  | rowSecurity
  | orphanEntry (txnId : String)
  | committedTransaction (txnId : String)
  | tooFewEntries (txnId : String) (count : Nat)
deriving DecidableEq

/-- The `Transaction(...)` constructor: the checks of the model in their order. -/
def Transaction.validate (txnId tenantId : String) (entries : List LedgerEntry)
    (timestamp : DateTime) (description : String) : Except LedgerError Transaction :=
  if hlen : 2 ≤ entries.length ∧ entries.length ≤ 1024 ∧ description.length ≤ 512 then
    if hcur : ∀ e ∈ entries, ∀ e' ∈ entries, e.amount.currency = e'.amount.currency then
      if hten : ∀ e ∈ entries, e.tenantId = tenantId then
        if hbal : sideTotal .debit entries = sideTotal .credit entries then
          .ok ⟨txnId, tenantId, entries, timestamp, description, hlen.1, hlen.2.1, hlen.2.2,
            hcur, hten, hbal⟩
        else .error (.unbalanced (sideTotal .debit entries) (sideTotal .credit entries))
      else .error .crossTenant
    else .error .mixedCurrency
  else .error .invalidShape

/-- `_txn_currency` -/
def Transaction.currency (txn : Transaction) : String :=
  match txn.entries with
  | [] => ""
  | e :: _ => e.amount.currency

/-! ## the tables -/

/-- A row of `transactions`; `xmin` is the database transaction that inserted it. -/
structure TransactionRow where
  tenantId : String
  currency : String
  timestamp : DateTime
  description : String
  reversalOf : Option String
  idempotencyKey : Option String
  xmin : Txn
deriving DecidableEq

/-- A row of `ledger_entries`. -/
structure EntryRow where
  txnId : String
  tenantId : String
  accountId : String
  direction : EntryDirection
  amountMinorUnits : Nat
  currency : String
  teamId : String
  projectId : String
  agentId : String
  timestamp : DateTime
deriving DecidableEq

/-- The ledger schema: three tables by primary key, and the partial unique
index `ux_txn_idempotency`. -/
structure LedgerDb where
  accounts : Table String AccountRow
  transactions : Table String TransactionRow
  idempotency : Table (String × String) String
  entries : Table String EntryRow

namespace LedgerDb

/-- The ledger before the first posting. -/
def empty : LedgerDb := ⟨.empty, .empty, .empty, .empty⟩

instance : Database LedgerDb where
  commit t d := ⟨d.accounts.commit t, d.transactions.commit t, d.idempotency.commit t,
    d.entries.commit t⟩
  rollback t d := ⟨d.accounts.rollback t, d.transactions.rollback t, d.idempotency.rollback t,
    d.entries.rollback t⟩

/-- The entries `t` sees of one ledger transaction, in a session of `tenant`. -/
def entriesOf (d : LedgerDb) (t : Txn) (tenant txnId : String) : List EntryRow :=
  ((d.entries.scan t).filter fun p => p.2.tenantId = tenant ∧ p.2.txnId = txnId).map Prod.snd

end LedgerDb

/-! ## statements -/

/-- The row goes in under its primary key, and its `reversal_of` must exist. -/
def insertTransactionRow (txnId : String) (row : TransactionRow) (t : Txn) (d : LedgerDb) :
    Option (Except LedgerError Bool × LedgerDb) :=
  match d.transactions.insertOrIgnore t txnId row with
  | none => none
  | some (false, _) => some (.error (.uniqueViolation txnId), d)
  | some (true, transactions) =>
      if row.reversalOf.all fun r => (d.transactions.visible t r).isSome then
        some (.ok true, { d with transactions })
      else some (.error (.foreignKeyViolation "fk_txn_reversal_of"), d)

/-- `INSERT INTO transactions … [ON CONFLICT (tenant_id, idempotency_key) DO NOTHING]`:
whether a row was inserted. -/
def insertTransaction (tenant txnId : String) (row : TransactionRow) (t : Txn) (d : LedgerDb) :
    Option (Except LedgerError Bool × LedgerDb) :=
  if row.tenantId ≠ tenant then some (.error .rowSecurity, d)
  else if row.reversalOf = some txnId then some (.error (.checkViolation "ck_txn_no_self_rev"), d)
  else
    match row.idempotencyKey with
    | none => insertTransactionRow txnId row t d
    | some key =>
        match d.idempotency.insertOrIgnore t (row.tenantId, key) txnId with
        | none => none
        | some (false, _) => some (.ok false, d)
        | some (true, idempotency) =>
            match insertTransactionRow txnId row t d with
            | none => none
            | some (.error e, _) => some (.error e, d)
            | some (.ok b, d') => some (.ok b, { d' with idempotency })

/-- `assert_entry_in_txn_creation`: an entry may only join a transaction row that
this database transaction inserted (ids compared in their low 32 bits). -/
def assertEntryInTxnCreation (tenant txnId : String) (t : Txn) (d : LedgerDb) :
    Except LedgerError Unit :=
  match d.transactions.visible t txnId with
  | none => .error (.orphanEntry txnId)
  | some row =>
      if row.tenantId ≠ tenant then .error (.orphanEntry txnId)
      else if row.xmin % 4294967296 ≠ t % 4294967296 then .error (.committedTransaction txnId)
      else .ok ()

/-- `fk_entry_account`: the account exists in the entry's tenant. -/
def accountExists (d : LedgerDb) (t : Txn) (tenant accountId : String) : Bool :=
  match d.accounts.visible t accountId with
  | none => false
  | some account => account.tenantId = tenant

/-- The table row of a domain entry. -/
def LedgerEntry.toRow (txnId : String) (e : LedgerEntry) : EntryRow where
  txnId := txnId
  tenantId := e.tenantId
  accountId := e.accountId
  direction := e.direction
  amountMinorUnits := e.amount.minorUnits
  currency := e.amount.currency
  teamId := e.teamId
  projectId := e.projectId
  agentId := e.agentId
  timestamp := e.timestamp

/-- `INSERT INTO ledger_entries`, one entry. -/
def insertEntry (tenant txnId : String) (e : LedgerEntry) (t : Txn) (d : LedgerDb) :
    Option (Except LedgerError Unit × LedgerDb) :=
  match assertEntryInTxnCreation tenant txnId t d with
  | .error err => some (.error err, d)
  | .ok () =>
      if e.tenantId ≠ tenant then some (.error .rowSecurity, d)
      else
        match d.entries.insertOrIgnore t e.entryId (e.toRow txnId) with
        | none => none
        | some (false, _) => some (.error (.uniqueViolation e.entryId), d)
        | some (true, entries) =>
            if accountExists d t e.tenantId e.accountId then some (.ok (), { d with entries })
            else some (.error (.foreignKeyViolation "fk_entry_account"), d)

def rowTotal (side : EntryDirection) (rows : List EntryRow) : Nat :=
  ((rows.filter fun e => e.direction = side).map EntryRow.amountMinorUnits).sum

/-- What `assert_txn_balanced` checks of a transaction row and its entries. -/
structure BalancedRows (tenant currency : String) (rows : List EntryRow) : Prop where
  two_le : 2 ≤ rows.length
  currency : ∀ e ∈ rows, e.currency = currency
  tenant : ∀ e ∈ rows, e.tenantId = tenant
  balanced : rowTotal .debit rows = rowTotal .credit rows

/-- `assert_txn_balanced`, the deferred trigger, for one ledger transaction. -/
def assertTxnBalanced (tenant txnId : String) (t : Txn) (d : LedgerDb) :
    Except LedgerError Unit :=
  let rows := d.entriesOf t tenant txnId
  if rows.length < 2 then .error (.tooFewEntries txnId rows.length)
  else if ¬ ∀ e ∈ rows, ∀ e' ∈ rows, e.currency = e'.currency then .error .mixedCurrency
  else if ¬ ∀ e ∈ rows, ∀ e' ∈ rows, e.tenantId = e'.tenantId then .error .crossTenant
  else if rowTotal .debit rows ≠ rowTotal .credit rows then
    .error (.unbalanced (rowTotal .debit rows) (rowTotal .credit rows))
  else
    match d.transactions.visible t txnId with
    | none => .error (.orphanEntry txnId)
    | some row =>
        if row.tenantId ≠ tenant then .error (.orphanEntry txnId)
        else if ¬ ∀ e ∈ rows, row.tenantId = e.tenantId then .error .crossTenant
        else if ¬ ∀ e ∈ rows, row.currency = e.currency then .error .mixedCurrency
        else .ok ()

/-! ## the write path -/

/-- Outcome of an append; `applied` is false on an idempotent replay. -/
structure AppendResult where
  txnId : String
  applied : Bool
  idempotentReplay : Bool
  entryCount : Nat
deriving DecidableEq

/-- The entries of a transaction, one insert after the other. -/
def insertEntries (tenant txnId : String) : List LedgerEntry → Prog LedgerDb LedgerError Unit
  | [] => pure ()
  | e :: es => do
      Prog.checked (insertEntry tenant txnId e)
      insertEntries tenant txnId es

/-- `append_transaction`, up to the COMMIT that ends it; the deferred trigger is
its last statement. -/
def appendTransaction (tenant : String) (txn : Transaction) (idempotencyKey reversalOf : Option String) :
    Prog LedgerDb LedgerError AppendResult := do
  let inserted ← Prog.checked fun t => insertTransaction tenant txn.txnId
    { tenantId := txn.tenantId
      currency := txn.currency
      timestamp := txn.timestamp
      description := txn.description
      reversalOf := reversalOf
      idempotencyKey := idempotencyKey
      xmin := t } t
  if idempotencyKey.isSome ∧ ¬ inserted then
    pure ⟨txn.txnId, false, true, 0⟩
  else do
    insertEntries tenant txn.txnId txn.entries
    Prog.checked fun t d => some (assertTxnBalanced tenant txn.txnId t d, d)
    pure ⟨txn.txnId, true, false, txn.entries.length⟩

/-- The compensating entry of a stored row, under a fresh entry id. -/
def compensatingEntry (timestamp : DateTime) (entryId : String) (r : EntryRow)
    (h : r.amountMinorUnits ≤ maxMoneyMinorUnits) : LedgerEntry where
  entryId := entryId
  tenantId := r.tenantId
  accountId := r.accountId
  direction := r.direction.opposite
  amount := ⟨r.amountMinorUnits, r.currency, h⟩
  teamId := r.teamId
  projectId := r.projectId
  agentId := r.agentId
  timestamp := timestamp

/-- The compensating entries; `Money(...)` refuses an amount out of bounds. -/
def compensatingEntries (timestamp : DateTime) (uuid4 : Nat → String) :
    Nat → List EntryRow → Except LedgerError (List LedgerEntry)
  | _, [] => .ok []
  | i, r :: rs =>
      if h : r.amountMinorUnits ≤ maxMoneyMinorUnits then
        match compensatingEntries timestamp uuid4 (i + 1) rs with
        | .ok es => .ok (compensatingEntry timestamp (uuid4 i) r h :: es)
        | .error e => .error e
      else .error .invalidShape

/-- `reverse_transaction`: a new transaction with every direction swapped.
`uuid4 i` is the i-th random id drawn. -/
def reverseTransaction (tenant originalTxnId newTxnId : String) (timestamp : DateTime)
    (description : String) (idempotencyKey : Option String) (uuid4 : Nat → String) :
    Prog LedgerDb LedgerError AppendResult := do
  let rows ← Prog.query fun t d => LedgerDb.entriesOf d t tenant originalTxnId
  match rows with
  | [] => .raise (.transactionNotFound originalTxnId)
  | r :: _ =>
      match compensatingEntries timestamp uuid4 0 rows with
      | .error e => .raise e
      | .ok entries =>
          match Transaction.validate newTxnId r.tenantId entries timestamp
            (if description = "" then s!"reversal of {originalTxnId}" else description) with
          | .error e => .raise e
          | .ok compensating =>
              appendTransaction tenant compensating idempotencyKey (some originalTxnId)

end Anoryx.Delta
