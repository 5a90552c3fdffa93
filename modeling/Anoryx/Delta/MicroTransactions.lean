import Anoryx.Delta.PersonalFinance

/-!
# Anoryx.Delta.MicroTransactions

The execution of micro-transactions (`micro_transactions/service.py`, `store.py`): a request
is executed or rejected under the advisory lock of its account, and answered from the row
under its idempotency key when there is one.

`micro_transaction_cap` — whatever the clocks of the calls say, no 24 hours of an account
take more than the daily cap.  A call adds up everything since 24 hours before its own
moment, without an upper bound; so among the rows of a window, the one that came in last
has counted all the others.

Timestamps are microseconds since the epoch, which is how finely they are kept.
-/

namespace Anoryx.Delta

open ReadCommitted ReferringTable

/-! ## the tables -/

inductive RejectionReason
  | dailyCapExceeded
  | currencyMismatch
deriving DecidableEq

/-- `status`, with what the row has because of it. -/
inductive ExecutionOutcome
  | executed (txnId : String)
  | rejected (reason : RejectionReason)
deriving DecidableEq

/-- A row of `micro_transaction_executions`, under its tenant and idempotency key. -/
structure ExecutionRow where
  executionId : String
  accountId : String
  amountMinorUnits : Nat
  currency : String
  category : TransactionCategory
  merchant : Option String
  description : String
  outcome : ExecutionOutcome
  requestedBy : String
  executedAt : Int
deriving DecidableEq

abbrev MicroDb := PersonalDb (String × String) ExecutionRow

def ExecutionRow.txnId (row : ExecutionRow) : Option String :=
  match row.outcome with
  | .executed txnId => some txnId
  | .rejected _ => none

/-- `account_id = …` -/
def ofAccount (accountId : String) (row : ExecutionRow) : Bool := row.accountId = accountId

def maxMicroTransactionMinorUnits : Nat := 10000

def dailyCapMinorUnits : Nat := 50000

/-- `_DAILY_WINDOW`, 24 hours. -/
def dailyWindow : Int := 24 * 60 * 60 * 1000000

/-! ## a call -/

/-- A valid `ExecutionRequest`, with the ids and the moment that the call takes. -/
structure ExecutionRequest where
  tenantId : String
  accountId : String
  idempotencyKey : String
  amountMinorUnits : Nat
  currency : String
  category : TransactionCategory
  merchant : Option String
  description : String
  requestedBy : String
  executionId : String
  txnId : String
  now : Int
  amount_pos : 0 < amountMinorUnits
  amount_le : amountMinorUnits ≤ maxMicroTransactionMinorUnits
  category_ne : category ≠ .income

structure ExecutionView where
  tenantId : String
  idempotencyKey : String
  record : ExecutionRow
  idempotentReplay : Bool

inductive ExecutionError
  | accountNotFound (accountId : String)
  | uniqueViolation
deriving DecidableEq

def ExecutionRequest.row (req : ExecutionRequest) (outcome : ExecutionOutcome) : ExecutionRow where
  executionId := req.executionId
  accountId := req.accountId
  amountMinorUnits := req.amountMinorUnits
  currency := req.currency
  category := req.category
  merchant := req.merchant
  description := req.description
  outcome := outcome
  requestedBy := req.requestedBy
  executedAt := req.now

/-- What an execution writes to the ledger: an expense. -/
def ExecutionRequest.transaction (req : ExecutionRequest) : PersonalTransactionRow where
  tenantId := req.tenantId
  accountId := req.accountId
  category := req.category
  amountMinorUnits := -(req.amountMinorUnits : Int)
  currency := req.currency
  description := req.description
  merchant := req.merchant
  occurredAt := req.now
  createdAt := req.now
  source := .execution

/-- `_execution_to_view` -/
def ExecutionRequest.view (req : ExecutionRequest) (record : ExecutionRow) (replay : Bool) : ExecutionView where
  tenantId := req.tenantId
  idempotencyKey := req.idempotencyKey
  record := record
  idempotentReplay := replay

/-- `get_by_idempotency_key`, in a session of the tenant. -/
def getByIdempotencyKey (req : ExecutionRequest) (t : Txn) (d : MicroDb) : Option ExecutionRow :=
  d.rows.table.visible t (req.tenantId, req.idempotencyKey)

/-- `executed_total_since`, in a session of the tenant. -/
def executedTotalSince (tenantId accountId : String) (since : Int) (t : Txn) (d : MicroDb) : Nat :=
  let rows := (d.rows.table.rowsOf (d.rows.table.visible t) (ofAccount accountId)).filter fun p =>
    p.1.1 = tenantId ∧ p.2.txnId.isSome ∧ since ≤ p.2.executedAt
  (rows.map fun p => p.2.amountMinorUnits).sum

def createExecution (req : ExecutionRequest) (outcome : ExecutionOutcome) :
    Prog MicroDb ExecutionError ExecutionView := do
  Prog.inserting .uniqueViolation
    (insert (req.tenantId, req.idempotencyKey) (req.row outcome))
  pure (req.view (req.row outcome) false)

section Execute

variable (hashtext : String → Int) (accounts : String → Option PersonalAccountRow)

def executeMicroTransaction (req : ExecutionRequest) : Prog MicroDb ExecutionError ExecutionView := do
  let existing ← Prog.query (getByIdempotencyKey req)
  match existing with
  | some record => pure (req.view record true)
  | none =>
    let account ← Prog.query fun _ _ => getAccount accounts req.tenantId req.accountId
    match account with
    | none => Prog.raise (.accountNotFound req.accountId)
    | some account =>
      Prog.exec (advisoryXactLock (hashtext req.accountId))
      if req.currency ≠ account.currency then
        createExecution req (.rejected .currencyMismatch)
      else
        let executed ← Prog.query (executedTotalSince req.tenantId req.accountId (req.now - dailyWindow))
        if executed + req.amountMinorUnits > dailyCapMinorUnits then
          createExecution req (.rejected .dailyCapExceeded)
        else
          Prog.inserting .uniqueViolation (ReferringTable.insertTarget req.txnId req.transaction)
          createExecution req (.executed req.txnId)

end Execute

/-! ## the cap -/

/-- What a row takes of the 24 hours from `start`. -/
def ExecutionRow.takes (start : Int) (row : ExecutionRow) : Nat :=
  if row.txnId.isSome ∧ start ≤ row.executedAt ∧ row.executedAt ≤ start + dailyWindow then
    row.amountMinorUnits
  else 0

/-- What these 24 hours take of the cap. -/
def windowTotal (start : Int) (rows : Multiset ((String × String) × ExecutionRow)) : Nat :=
  (rows.map fun p => p.2.takes start).sum

/-- The rows of an account: they are of its tenant, and no 24 hours of them exceed the cap. -/
structure WithinCap (accounts : String → Option PersonalAccountRow) (accountId : String)
    (rows : Multiset ((String × String) × ExecutionRow)) : Prop where
  tenant : ∀ p ∈ rows, ∃ account, accounts accountId = some account ∧ account.tenantId = p.1.1
  capped : ∀ start, windowTotal start rows ≤ dailyCapMinorUnits

/-- The transaction of an execution: the negated amount, on its account. -/
structure Pays (row : ExecutionRow) (target : PersonalTransactionRow) : Prop where
  amount : target.amountMinorUnits = -(row.amountMinorUnits : Int)
  account : target.accountId = row.accountId
  currency : target.currency = row.currency
  occurredAt : target.occurredAt = row.executedAt
  source : target.source = .execution

def IsExecution (target : PersonalTransactionRow) : Prop := target.source = .execution

variable {accountId : String} {accounts : String → Option PersonalAccountRow} {account : PersonalAccountRow} {t : Txn}
  {d : MicroDb} {req : ExecutionRequest} {outcome : ExecutionOutcome}

theorem ofAccount_iff {row : ExecutionRow} :
    ofAccount accountId row = true ↔ row.accountId = accountId := decide_eq_true_iff

/-- What a session finds of an account. -/
abbrev accountRows (accountId : String) (t : Txn) (d : MicroDb) : Multiset ((String × String) × ExecutionRow) :=
  d.rows.table.rowsOf (d.rows.table.visible t) (ofAccount accountId)

theorem windowTotal_le_executedTotalSince {start since : Int} (haccount : accounts accountId = some account)
    (hsince : since ≤ start) (h : WithinCap accounts accountId (accountRows accountId t d)) :
    windowTotal start (accountRows accountId t d) ≤ executedTotalSince account.tenantId accountId since t d := by
  have hcounted : executedTotalSince account.tenantId accountId since t d =
      ((accountRows accountId t d).map fun p =>
        if p.1.1 = account.tenantId ∧ p.2.txnId.isSome ∧ since ≤ p.2.executedAt then
          p.2.amountMinorUnits
        else 0).sum := by
    rw [Multiset.map_coe, Multiset.sum_coe, List.sum_map_ite]
    simp [executedTotalSince]
  rw [hcounted, windowTotal]
  refine Multiset.sum_map_le_sum_map _ _ fun p hp => ?_
  obtain ⟨account', haccount', htenant⟩ := h.tenant p hp
  obtain rfl : account = account' := Option.some.inj (haccount.symm.trans haccount')
  unfold ExecutionRow.takes
  grind

/-- **A row that has been counted in.**  Every window with the new row in it began at most 24
hours before it, so its rows were counted. -/
theorem withinCap_cons (haccount : getAccount accounts req.tenantId req.accountId = some account)
    (h : WithinCap accounts req.accountId (accountRows req.accountId t d))
    (hcap : (req.row outcome).txnId.isSome → executedTotalSince req.tenantId req.accountId
      (req.now - dailyWindow) t d + req.amountMinorUnits ≤ dailyCapMinorUnits) :
    WithinCap accounts req.accountId
      (((req.tenantId, req.idempotencyKey), req.row outcome) ::ₘ accountRows req.accountId t d) := by
  obtain ⟨hfound, htenant⟩ := getAccount_eq_some haccount
  refine ⟨fun p hp => ?_, fun start => ?_⟩
  · rcases Multiset.mem_cons.mp hp with rfl | hp
    · exact ⟨account, hfound, htenant⟩
    · exact h.tenant p hp
  · rw [windowTotal, Multiset.map_cons, Multiset.sum_cons]
    unfold ExecutionRow.takes
    split
    case isFalse =>
      rw [Nat.zero_add]
      exact h.capped start
    case isTrue hwithin =>
      obtain ⟨hexecuted, -, hstop⟩ := hwithin
      have hsince : req.now - dailyWindow ≤ start := Int.sub_right_le_of_le_add hstop
      have hcounted := windowTotal_le_executedTotalSince hfound hsince h
      have htotal := hcap hexecuted
      rw [← htenant] at htotal
      show req.amountMinorUnits + windowTotal start (accountRows req.accountId t d) ≤ dailyCapMinorUnits
      omega

/-! ## every schedule -/

section Schedule

variable {hashtext : String → Int} {accounts : String → Option PersonalAccountRow}

/-- The answer to a call is the row under its key. -/
def Answers (_ : Txn) (req : ExecutionRequest) (view : ExecutionView)
    (read : String × String → Option ExecutionRow) : Prop :=
  read (req.tenantId, req.idempotencyKey) = some view.record

abbrev Capped (hashtext : String → Int) (accounts : String → Option PersonalAccountRow) : MicroDb → Prop :=
  Consistent (WithinCap accounts) ofAccount hashtext ExecutionRow.txnId Pays IsExecution

abbrev executionLogic (hashtext : String → Int) (accounts : String → Option PersonalAccountRow) :
    Logic MicroDb ExecutionRequest ExecutionView :=
  logic (WithinCap accounts) ofAccount hashtext ExecutionRow.txnId Pays IsExecution Answers

/-- What a call commits. -/
abbrev Done (t : Txn) (req : ExecutionRequest) (view : ExecutionView) (d : MicroDb) : Prop :=
  Owes ExecutionRow.txnId t [] d ∧ Answers t req view (d.rows.table.visible t)

theorem wp_createExecution {owed : List (String × PersonalTransactionRow)}
    (hlock : d.rows.locks (hashtext req.accountId) = some t) (hcapped : WithinCap accounts req.accountId
      (((req.tenantId, req.idempotencyKey), req.row outcome) ::ₘ accountRows req.accountId t d))
    (howes : Owes ExecutionRow.txnId t owed d)
    (hsettles : ReferringTable.Settles ExecutionRow.txnId Pays (req.row outcome) owed []) :
    (executionLogic hashtext accounts).wp t (Done t req) (createExecution req outcome) d := by
  refine Logic.wp_inserting_bind fun d₁ h₁ hr₁ b d₂ hins _ => ?_
  have hrows : accountRows req.accountId t d = accountRows req.accountId t d₁ :=
    Multiset.coe_eq_coe.mpr (hr₁.rows.rowsOf_perm hlock)
  have hrow : ∀ accountId, ofAccount accountId (req.row outcome) = true → WithinCap accounts accountId
      (((req.tenantId, req.idempotencyKey), req.row outcome) ::ₘ accountRows accountId t d₁) := by
    intro accountId hof
    obtain rfl : req.accountId = accountId := ofAccount_iff.mp hof
    rwa [← hrows]
  obtain ⟨h₂, hmoves, -, hdone⟩ := Consistent.insert h₁ hins
    (fun accountId hof => by rw [← ofAccount_iff.mp hof]; exact hr₁.rows.locks _ hlock) hrow
    (howes.rely hr₁) hsettles
  refine ⟨⟨h₂, hmoves.relies⟩, fun hb d₃ h₃ hr₃ => ?_⟩
  obtain ⟨hpaid, hvisible, -⟩ := hdone hb
  exact ⟨hpaid.rely hr₃, hr₃.visible h₃.guarded.insertOnly hvisible⟩

theorem wp_executeMicroTransaction (hfresh : ∀ x target, d.targets.inflight x ≠ some (t, target)) :
    (executionLogic hashtext accounts).wp t (Done t req) (executeMicroTransaction hashtext accounts req) d := by
  have howes : Owes ExecutionRow.txnId t [] d := owes_nil hfresh
  refine Logic.wp_query_bind Relies.refl fun d₁ h₁ hr₁ => ?_
  split
  case h_1 record hexisting =>
    exact fun d₂ h₂ hr₂ => ⟨(howes.rely hr₁).rely hr₂, hr₂.visible h₂.guarded.insertOnly hexisting⟩
  refine Logic.wp_query_bind Relies.refl fun d₂ h₂ hr₂ => ?_
  split
  case h_1 => trivial
  next account haccount =>
  refine Logic.wp_exec_bind fun d₃ h₃ hr₃ _ d₄ hlocked _ => ?_
  obtain ⟨h₄, hrelies, hlock⟩ := Consistent.advisoryXactLock h₃ hlocked
  have howes₄ := (((howes.rely hr₁).rely hr₂).rely hr₃).rely (hrelies t)
  refine ⟨⟨h₄, fun u _ => hrelies u⟩, ?_⟩
  split
  case isTrue =>
    exact wp_createExecution hlock (withinCap_cons haccount (h₄.guarded.visible t req.accountId)
      fun hexecuted => absurd hexecuted Bool.false_ne_true) howes₄ (.inl ⟨rfl, rfl⟩)
  refine Logic.wp_query_bind Relies.refl fun d₅ h₅ hr₅ => ?_
  have hlock₅ := hr₅.rows.locks _ hlock
  have howes₅ := howes₄.rely hr₅
  have hcapped := h₅.guarded.visible t req.accountId
  split
  case isTrue =>
    exact wp_createExecution hlock₅ (withinCap_cons haccount hcapped
      fun hexecuted => absurd hexecuted Bool.false_ne_true) howes₅ (.inl ⟨rfl, rfl⟩)
  next hcap =>
  -- the total that was read is still the total, for the lock is held
  have hnew : WithinCap accounts req.accountId (((req.tenantId, req.idempotencyKey),
      req.row (.executed req.txnId)) ::ₘ accountRows req.accountId t d₅) :=
    withinCap_cons haccount hcapped fun _ => Nat.le_of_not_lt hcap
  refine Logic.wp_inserting_bind fun d₆ h₆ hr₆ b d₇ hins _ => ?_
  obtain ⟨h₇, hmoves, hrows₇, howed⟩ := Consistent.insertTarget h₆ hins
  refine ⟨⟨h₇, hmoves.relies⟩, fun hb => wp_createExecution
    (hmoves.locks _ (hr₆.rows.locks _ hlock₅)) ?_ (howed hb [] (howes₅.rely hr₆)) ?_⟩
  · have hrows : accountRows req.accountId t d₅ = accountRows req.accountId t d₇ := by
      rw [accountRows, accountRows, hrows₇]
      exact Multiset.coe_eq_coe.mpr (hr₆.rows.rowsOf_perm hlock₅)
    rwa [← hrows]
  · exact .inr ⟨req.txnId, req.transaction, rfl, ⟨rfl, rfl, rfl, rfl, rfl⟩, rfl⟩

theorem executionLogic_sound :
    (executionLogic hashtext accounts).Sound (executeMicroTransaction hashtext accounts) :=
  logic_sound (fun _ _ _ _ _ hfinds => hfinds _ _) fun _ _ _ _ hfresh =>
    wp_executeMicroTransaction hfresh

end Schedule

/-- A database between calls. -/
structure SettledExecutions (accounts : String → Option PersonalAccountRow) (d : MicroDb) : Prop where
  quiet : d.rows.table.Quiet
  quietTransactions : d.targets.Quiet
  capped : ∀ t accountId, WithinCap accounts accountId (accountRows accountId t d)
  paid : ∀ key row txnId, d.rows.table.committed key = some row → row.txnId = some txnId →
    ∃ target, d.targets.committed txnId = some target ∧ Pays row target
  once : ∀ key key' row row' txnId, d.rows.table.committed key = some row →
    d.rows.table.committed key' = some row' → row.txnId = some txnId → row'.txnId = some txnId → key = key'
  explained : ∀ txnId target, d.targets.committed txnId = some target → IsExecution target →
    ∃ key row, d.rows.table.committed key = some row ∧ row.txnId = some txnId

theorem SettledExecutions.consistent (h : SettledExecutions accounts d) (hashtext : String → Int) :
    Capped hashtext accounts d := by
  refine consistent_of_quiet h.quiet h.quietTransactions (fun accountId => ?_) h.paid h.once h.explained
  rw [show d.rows.table.committed = d.rows.table.visible 0 from
    (funext fun k => Table.visible_of_inflight_none (h.quiet k)).symm]
  exact h.capped 0 accountId

theorem settledExecutions_empty (accounts : String → Option PersonalAccountRow) :
    SettledExecutions accounts empty := by
  refine ⟨fun _ => rfl, fun _ => rfl, fun t accountId => ?_, fun _ _ _ h => ?_, fun _ _ _ _ _ h => ?_, fun _ _ h => ?_⟩
  · exact ⟨fun p hp => absurd hp (Multiset.notMem_zero p), fun start => Nat.zero_le _⟩
  · exact absurd h.symm (Option.some_ne_none _)
  · exact absurd h.symm (Option.some_ne_none _)
  · exact absurd h.symm (Option.some_ne_none _)

/-- **The daily cap**, whatever the order of the calls and whatever their clocks say: no 24 hours
of an account take more than the cap; there is one row under a key, which is what its calls are
answered; and executed rows and the transactions of executions correspond to each other. -/
theorem micro_transaction_cap (hashtext : String → Int) (accounts : String → Option PersonalAccountRow)
    (d : MicroDb) (hd : SettledExecutions accounts d) (schedule : List (Action ExecutionRequest))
    (s : Sys MicroDb ExecutionError ExecutionRequest ExecutionView)
    (hrun : run (executeMicroTransaction hashtext accounts) (Sys.start d) schedule = some s) :
    (∀ t accountId start, windowTotal start (accountRows accountId t s.db) ≤ dailyCapMinorUnits) ∧
      (∀ t, ((s.db.rows.table.scan t).map Prod.fst).Nodup) ∧
      (∀ t req view, s.procs t = .committed req view →
        s.db.rows.table.committed (req.tenantId, req.idempotencyKey) = some view.record) ∧
      (∀ key row txnId, s.db.rows.table.committed key = some row → row.txnId = some txnId →
        (∃ target, s.db.targets.committed txnId = some target ∧ Pays row target) ∧
        ∀ key' row', s.db.rows.table.committed key' = some row' → row'.txnId = some txnId → key' = key) ∧
      ∀ txnId target, s.db.targets.committed txnId = some target → IsExecution target →
        ∃ key row, s.db.rows.table.committed key = some row ∧ row.txnId = some txnId := by
  have hok := executionLogic_sound.run (ok_start (hd.consistent hashtext) hd.quietTransactions)
    (Logic.everyStep_permits (fun _ => trivial) (fun _ _ _ => trivial) schedule) hrun
  have hconsistent : Capped hashtext accounts s.db := hok.inv
  refine ⟨fun t accountId start => (hconsistent.guarded.visible t accountId).capped start,
    fun t => s.db.rows.table.nodup_list _, fun t req view hdone => ?_, fun key row txnId hrow href =>
      ⟨hconsistent.references.committed key row txnId hrow href, fun key' row' hrow' href' =>
        hconsistent.references.injective key' key row' row txnId (.inl hrow') (.inl hrow) href' href⟩,
    hconsistent.referred⟩
  have hproc := hok.procs t
  rw [hdone] at hproc
  exact hproc

section Sample

def sampleAccounts (accountId : String) : Option PersonalAccountRow :=
  if accountId = "account" then some ⟨"tenant", "USD"⟩ else none

def sampleExecution (key : String) (now : Int) : ExecutionRequest where
  tenantId := "tenant"
  accountId := "account"
  idempotencyKey := key
  amountMinorUnits := 9000
  currency := "USD"
  category := .dining
  merchant := none
  description := ""
  requestedBy := "admin"
  executionId := "execution-" ++ key
  txnId := "txn-" ++ key
  now := now
  amount_pos := Nat.le_of_ble_eq_true rfl
  amount_le := Nat.le_of_ble_eq_true rfl
  category_ne := fun h => TransactionCategory.noConfusion h

def sampleExecutions : List (Action ExecutionRequest) :=
  [.begin 1 (sampleExecution "k-1" 2000), .begin 2 (sampleExecution "k-2" 1000), .exec 1, .exec 2, .exec 1, .exec 2,
    .exec 1, .exec 1, .exec 1, .exec 1, .commit 1, .exec 2, .exec 2, .exec 2, .exec 2, .commit 2]

theorem micro_transaction_cap_sample : ∃ s,
    run (executeMicroTransaction (fun _ => 0) sampleAccounts) (Sys.start empty) sampleExecutions =
        some s ∧
      windowTotal 1000 (accountRows "account" 3 s.db) = 18000 ∧
      windowTotal 1000 (accountRows "account" 3 s.db) ≤ dailyCapMinorUnits := by
  have htotal : ((run (executeMicroTransaction (fun _ => 0) sampleAccounts) (Sys.start empty)
      sampleExecutions).map fun s => windowTotal 1000 (accountRows "account" 3 s.db)) = some 18000 := by
    decide +kernel
  obtain ⟨s, hrun, hwindow⟩ := Option.map_eq_some_iff.mp htotal
  exact ⟨s, hrun, hwindow, (micro_transaction_cap (fun _ => 0) sampleAccounts empty
    (settledExecutions_empty sampleAccounts) sampleExecutions s hrun).1 3 "account" 1000⟩

end Sample

end Anoryx.Delta
