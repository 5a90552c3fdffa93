import Anoryx.ReadCommitted.Family
import Anoryx.ReadCommitted.RelyGuarantee
import Anoryx.ReadCommitted.Totals

/-!
# Anoryx.Delta.Invoicing

Invoices against purchase orders and the payments of invoices (`invoicing/service.py`,
`store.py`), with the decision of a purchase order (`erp/service.py`, `erp/store.py`).

An invoice is created under the row lock of its order (`SELECT … FOR UPDATE`), decided by a
conditional UPDATE, and paid by a guarded one that moves the running total and the status
together.  Vendors and tasks are read, and no statement here changes them.
-/

namespace Anoryx.Delta

open ReadCommitted

/-! ## the tables -/

inductive PurchaseOrderStatus
  | requested
  | approved
  | rejected
deriving DecidableEq

/-- A row of `purchase_orders`, under its `po_id`. -/
structure PurchaseOrderRow where
  tenantId : String
  vendorId : String
  assetId : Option String
  description : String
  amountMinorUnits : Nat
  currency : String
  status : PurchaseOrderStatus
  requestedBy : String
  requestedAt : Int
  decidedBy : Option String
  decidedAt : Option Int
deriving DecidableEq

inductive InvoiceStatus
  | submitted
  | approved
  | disputed
  | partiallyPaid
  | paid
deriving DecidableEq

/-- A row of `invoices`, under its `invoice_id`. -/
structure InvoiceRow where
  tenantId : String
  vendorId : String
  poId : String
  milestoneTaskId : Option String
  invoiceNumber : String
  description : String
  amountMinorUnits : Nat
  currency : String
  amountPaidMinorUnits : Nat
  status : InvoiceStatus
  submittedBy : String
  submittedAt : Int
  decidedBy : Option String
  decidedAt : Option Int
  createdAt : Int
  updatedAt : Int
deriving DecidableEq

/-- A row of `invoice_payments`, under its `payment_id`. -/
structure PaymentRow where
  tenantId : String
  invoiceId : String
  amountMinorUnits : Nat
  currency : String
  paidAt : Int
  recordedBy : String
  note : Option String
  createdAt : Int
deriving DecidableEq

structure InvoicingDb where
  orders : Table String PurchaseOrderRow
  invoices : Table String InvoiceRow
  payments : Table String PaymentRow

instance : Database InvoicingDb where
  commit t d := ⟨d.orders.commit t, d.invoices.commit t, d.payments.commit t⟩
  rollback t d := ⟨d.orders.rollback t, d.invoices.rollback t, d.payments.rollback t⟩

/-- `_NON_DISPUTED_INVOICE_STATUSES` -/
def InvoiceStatus.nonDisputed : InvoiceStatus → Bool
  | submitted | approved | partiallyPaid | paid => true
  | disputed => false

/-- `_PAYABLE_INVOICE_STATUSES` -/
def InvoiceStatus.payable : InvoiceStatus → Bool
  | approved | partiallyPaid => true
  | submitted | disputed | paid => false

def maxInvoiceAmountMinorUnits : Nat := 100000000000

/-! ## the requests -/

/-- A valid `InvoiceCreateRequest`, with the id and the moment that the call takes. -/
structure InvoiceCreateRequest where
  tenantId : String
  vendorId : String
  poId : String
  milestoneTaskId : Option String
  invoiceNumber : String
  description : String
  amountMinorUnits : Nat
  currency : String
  submittedBy : String
  invoiceId : String
  now : Int
  amount_pos : 0 < amountMinorUnits
  amount_le : amountMinorUnits ≤ maxInvoiceAmountMinorUnits

inductive InvoiceDecisionAction
  | approve
  | dispute
deriving DecidableEq

/-- A valid `InvoiceDecisionRequest` for an invoice, with the moment of the call. -/
structure InvoiceDecisionRequest where
  invoiceId : String
  tenantId : String
  action : InvoiceDecisionAction
  actor : String
  now : Int

/-- A valid `PaymentRecordRequest` for an invoice, with the id and the moment that the call takes. -/
structure PaymentRecordRequest where
  invoiceId : String
  tenantId : String
  amountMinorUnits : Nat
  currency : String
  paidAt : Int
  recordedBy : String
  note : Option String
  paymentId : String
  now : Int
  amount_pos : 0 < amountMinorUnits
  amount_le : amountMinorUnits ≤ maxInvoiceAmountMinorUnits

inductive OrderDecisionAction
  | approve
  | reject
deriving DecidableEq

/-- A valid `PurchaseOrderDecisionRequest` for an order, with the moment of the call. -/
structure PurchaseOrderDecisionRequest where
  poId : String
  tenantId : String
  action : OrderDecisionAction
  actor : String
  now : Int

inductive InvoicingError
  | vendorNotFound (vendorId : String)
  | purchaseOrderNotFound (poId : String)
  | purchaseOrderVendorMismatch (poId vendorId requested : String)
  | purchaseOrderNotApproved (poId : String) (status : PurchaseOrderStatus)
  | currencyMismatch (currency orderCurrency : String)
  | milestoneTaskNotFound (taskId : String)
  | milestoneTaskNotDone (taskId status : String)
  | invoiceExceedsPurchaseOrder (poId : String) (alreadyInvoiced amount committed : Nat)
  | invoiceNotFound (invoiceId : String)
  | invoiceAlreadyDecided (invoiceId : String)
  | paymentCurrencyMismatch (currency invoiceCurrency : String)
  | invoiceNotPayable (invoiceId : String) (status : InvoiceStatus)
  | paymentExceedsInvoiceBalance (invoiceId : String) (alreadyPaid amount billed : Nat)
  | purchaseOrderAlreadyDecided (poId : String)
  | uniqueViolation
deriving DecidableEq

/-! ## what the statements read and write -/

section Statements

variable (tenantId : String) (t : Txn) (d : InvoicingDb)

/-- `get_purchase_order`, in a session of the tenant. -/
def getPurchaseOrder (poId : String) : Option PurchaseOrderRow :=
  (d.orders.visible t poId).filter fun order => order.tenantId = tenantId

/-- `get_invoice`, in a session of the tenant. -/
def getInvoice (invoiceId : String) : Option InvoiceRow :=
  (d.invoices.visible t invoiceId).filter fun invoice => invoice.tenantId = tenantId

/-- The invoices that a session of the tenant finds. -/
def selectInvoices (p : InvoiceRow → Bool) : List (String × InvoiceRow) :=
  (d.invoices.scan t).filter fun q => q.2.tenantId = tenantId ∧ p q.2

/-- `sum_non_disputed_invoiced_for_po`, in a session of the tenant. -/
def sumNonDisputedInvoicedForPo (poId : String) : Nat :=
  ((selectInvoices tenantId t d fun invoice => invoice.poId = poId ∧ invoice.status.nonDisputed).map
    fun q => q.2.amountMinorUnits).sum

end Statements

/-- `get_purchase_order_summary_for_update`, in a session of the tenant: the row lock is a
version that changes nothing. -/
def getPurchaseOrderForUpdate (tenantId poId : String) (t : Txn) (d : InvoicingDb) :
    Option (Option PurchaseOrderRow × InvoicingDb) :=
  (d.orders.updateWhere t poId (fun order => order.tenantId = tenantId) id).map fun p => (p.1, { d with orders := p.2 })

/-- The INSERT of an invoice; `false` when there is one under the id. -/
def insertInvoice (invoiceId : String) (row : InvoiceRow) (t : Txn) (d : InvoicingDb) : Option (Bool × InvoicingDb) :=
  (d.invoices.insertOrIgnore t invoiceId row).map fun p => (p.1, { d with invoices := p.2 })

def insertPayment (paymentId : String) (row : PaymentRow) (t : Txn) (d : InvoicingDb) : Option (Bool × InvoicingDb) :=
  (d.payments.insertOrIgnore t paymentId row).map fun p => (p.1, { d with payments := p.2 })

/-- An UPDATE of an invoice, in a session of the tenant. -/
def updateInvoice (tenantId invoiceId : String) (p : InvoiceRow → Bool) (f : InvoiceRow → InvoiceRow) (t : Txn)
    (d : InvoicingDb) : Option (Option InvoiceRow × InvoicingDb) :=
  (d.invoices.updateWhere t invoiceId (fun invoice => invoice.tenantId = tenantId ∧ p invoice) f).map
    fun q => (q.1, { d with invoices := q.2 })

def InvoiceDecisionAction.status : InvoiceDecisionAction → InvoiceStatus
  | approve => .approved
  | dispute => .disputed

def OrderDecisionAction.status : OrderDecisionAction → PurchaseOrderStatus
  | approve => .approved
  | reject => .rejected

/-- The values that `try_decide_invoice` sets. -/
def InvoiceDecisionRequest.decide (req : InvoiceDecisionRequest) (row : InvoiceRow) : InvoiceRow :=
  { row with status := req.action.status, decidedBy := some req.actor, decidedAt := some req.now, updatedAt := req.now }

def tryDecideInvoice (req : InvoiceDecisionRequest) : Txn → InvoicingDb → Option (Option InvoiceRow × InvoicingDb) :=
  updateInvoice req.tenantId req.invoiceId (fun invoice => invoice.status = .submitted) req.decide

/-- The guard of `try_record_payment`. -/
def PaymentRecordRequest.fits (req : PaymentRecordRequest) (row : InvoiceRow) : Bool :=
  row.status.payable ∧ row.amountPaidMinorUnits + req.amountMinorUnits ≤ row.amountMinorUnits

/-- The values that `try_record_payment` sets. -/
def PaymentRecordRequest.pay (req : PaymentRecordRequest) (row : InvoiceRow) : InvoiceRow :=
  { row with
    amountPaidMinorUnits := row.amountPaidMinorUnits + req.amountMinorUnits
    status := if row.amountPaidMinorUnits + req.amountMinorUnits = row.amountMinorUnits then .paid else .partiallyPaid
    updatedAt := req.now }

def tryRecordPayment (req : PaymentRecordRequest) : Txn → InvoicingDb → Option (Option InvoiceRow × InvoicingDb) :=
  updateInvoice req.tenantId req.invoiceId req.fits req.pay

/-- The values that `try_decide_purchase_order` sets. -/
def PurchaseOrderDecisionRequest.decide (req : PurchaseOrderDecisionRequest) (row : PurchaseOrderRow) :
    PurchaseOrderRow :=
  { row with status := req.action.status, decidedBy := some req.actor, decidedAt := some req.now }

/-- `try_decide_purchase_order`, in a session of the tenant. -/
def tryDecidePurchaseOrder (req : PurchaseOrderDecisionRequest) (t : Txn) (d : InvoicingDb) :
    Option (Option PurchaseOrderRow × InvoicingDb) :=
  (d.orders.updateWhere t req.poId (fun order => order.tenantId = req.tenantId ∧ order.status = .requested)
    req.decide).map fun p => (p.1, { d with orders := p.2 })

/-- The row of `create_invoice`. -/
def InvoiceCreateRequest.row (req : InvoiceCreateRequest) : InvoiceRow where
  tenantId := req.tenantId
  vendorId := req.vendorId
  poId := req.poId
  milestoneTaskId := req.milestoneTaskId
  invoiceNumber := req.invoiceNumber
  description := req.description
  amountMinorUnits := req.amountMinorUnits
  currency := req.currency
  amountPaidMinorUnits := 0
  status := .submitted
  submittedBy := req.submittedBy
  submittedAt := req.now
  decidedBy := none
  decidedAt := none
  createdAt := req.now
  updatedAt := req.now

/-- The row of `create_invoice_payment`. -/
def PaymentRecordRequest.row (req : PaymentRecordRequest) : PaymentRow where
  tenantId := req.tenantId
  invoiceId := req.invoiceId
  amountMinorUnits := req.amountMinorUnits
  currency := req.currency
  paidAt := req.paidAt
  recordedBy := req.recordedBy
  note := req.note
  createdAt := req.now

/-! ## the calls -/

inductive InvoicingCall
  | createInvoice (req : InvoiceCreateRequest)
  | decideInvoice (req : InvoiceDecisionRequest)
  | recordPayment (req : PaymentRecordRequest)
  | decidePurchaseOrder (req : PurchaseOrderDecisionRequest)

inductive InvoicingView
  | invoice (invoiceId : String) (row : InvoiceRow)
  | payment (paymentId : String) (row : PaymentRow)
  | purchaseOrder (poId : String) (row : PurchaseOrderRow)

abbrev InvoicingProg (A : Type) := Prog InvoicingDb InvoicingError A

section Calls

variable (vendors : String → String → Option String) (tasks : String → String → Option String)

/-- The milestone check of `create_invoice`; `tasks` gives the statuses of a tenant's tasks. -/
def checkMilestone (req : InvoiceCreateRequest) : Except InvoicingError Unit :=
  match req.milestoneTaskId with
  | none => .ok ()
  | some taskId =>
      match tasks req.tenantId taskId with
      | none => .error (.milestoneTaskNotFound taskId)
      | some status => if status ≠ "done" then .error (.milestoneTaskNotDone taskId status) else .ok ()

/-- The checks of `create_invoice` on the order. -/
def checkOrder (req : InvoiceCreateRequest) : Option PurchaseOrderRow → Except InvoicingError PurchaseOrderRow
  | none => .error (.purchaseOrderNotFound req.poId)
  | some order =>
      if order.vendorId ≠ req.vendorId then
        .error (.purchaseOrderVendorMismatch req.poId order.vendorId req.vendorId)
      else if order.status ≠ .approved then .error (.purchaseOrderNotApproved req.poId order.status)
      else if order.currency ≠ req.currency then .error (.currencyMismatch req.currency order.currency)
      else .ok order

/-- `create_invoice`; `vendors` gives the statuses of a tenant's vendors. -/
def createInvoice (req : InvoiceCreateRequest) : InvoicingProg InvoicingView := do
  let vendorStatus ← Prog.query fun _ _ => vendors req.tenantId req.vendorId
  if vendorStatus = none then
    Prog.raise (.vendorNotFound req.vendorId)
  else
    let found ← Prog.exec (getPurchaseOrderForUpdate req.tenantId req.poId)
    let order ← Prog.ofExcept (checkOrder req found)
    Prog.ofExcept (checkMilestone tasks req)
    let alreadyInvoiced ← Prog.query fun t d => sumNonDisputedInvoicedForPo req.tenantId t d req.poId
    if alreadyInvoiced + req.amountMinorUnits > order.amountMinorUnits then
      Prog.raise (.invoiceExceedsPurchaseOrder req.poId alreadyInvoiced req.amountMinorUnits order.amountMinorUnits)
    else
      Prog.inserting .uniqueViolation (insertInvoice req.invoiceId req.row)
      pure (.invoice req.invoiceId req.row)

def decideInvoice (req : InvoiceDecisionRequest) : InvoicingProg InvoicingView := do
  let existing ← Prog.query fun t d => getInvoice req.tenantId t d req.invoiceId
  if existing = none then
    Prog.raise (.invoiceNotFound req.invoiceId)
  else
    let decided ← Prog.exec (tryDecideInvoice req)
    if decided = none then
      Prog.raise (.invoiceAlreadyDecided req.invoiceId)
    else
      let record ← Prog.query fun t d => getInvoice req.tenantId t d req.invoiceId
      match record with
      | none => Prog.raise (.invoiceNotFound req.invoiceId)
      | some row => pure (.invoice req.invoiceId row)

/-- Why `try_record_payment` has matched nothing. -/
def whyNotPaid (req : PaymentRecordRequest) : Option InvoiceRow → InvoicingError
  | none => .invoiceNotFound req.invoiceId
  | some current =>
      if current.status.payable = false then .invoiceNotPayable req.invoiceId current.status
      else .paymentExceedsInvoiceBalance req.invoiceId current.amountPaidMinorUnits req.amountMinorUnits
        current.amountMinorUnits

def recordPayment (req : PaymentRecordRequest) : InvoicingProg InvoicingView := do
  let existing ← Prog.query fun t d => getInvoice req.tenantId t d req.invoiceId
  match existing with
  | none => Prog.raise (.invoiceNotFound req.invoiceId)
  | some existing =>
    if req.currency ≠ existing.currency then
      Prog.raise (.paymentCurrencyMismatch req.currency existing.currency)
    else
      let paid ← Prog.exec (tryRecordPayment req)
      if paid = none then
        let current ← Prog.query fun t d => getInvoice req.tenantId t d req.invoiceId
        Prog.raise (whyNotPaid req current)
      else
        Prog.inserting .uniqueViolation (insertPayment req.paymentId req.row)
        pure (.payment req.paymentId req.row)

def decidePurchaseOrder (req : PurchaseOrderDecisionRequest) : InvoicingProg InvoicingView := do
  let existing ← Prog.query fun t d => getPurchaseOrder req.tenantId t d req.poId
  if existing = none then
    Prog.raise (.purchaseOrderNotFound req.poId)
  else
    let decided ← Prog.exec (tryDecidePurchaseOrder req)
    if decided = none then
      Prog.raise (.purchaseOrderAlreadyDecided req.poId)
    else
      let record ← Prog.query fun t d => getPurchaseOrder req.tenantId t d req.poId
      match record with
      | none => Prog.raise (.purchaseOrderNotFound req.poId)
      | some row => pure (.purchaseOrder req.poId row)

/-- The transaction of a call. -/
def InvoicingCall.prog : InvoicingCall → InvoicingProg InvoicingView
  | createInvoice req => Delta.createInvoice vendors tasks req
  | decideInvoice req => Delta.decideInvoice req
  | recordPayment req => Delta.recordPayment req
  | decidePurchaseOrder req => Delta.decidePurchaseOrder req

/-! ## the report -/

structure VendorReconciliationView where
  vendorId : String
  currency : String
  committedMinorUnits : Nat
  invoicedMinorUnits : Nat
  paidMinorUnits : Nat
  outstandingMinorUnits : Int
  disputedInvoiceCount : Nat
  overInvoiced : Bool
  overPaid : Bool

section Report

variable (tenantId vendorId currency : String) (t : Txn) (d : InvoicingDb)

/-- `committed_stmt` -/
def committedTotal : Nat :=
  (((d.orders.scan t).filter fun q => q.2.tenantId = tenantId ∧ q.2.vendorId = vendorId ∧ q.2.status = .approved ∧
    q.2.currency = currency).map fun q => q.2.amountMinorUnits).sum

/-- `invoiced_stmt` -/
def invoicedTotal : Nat :=
  ((selectInvoices tenantId t d fun invoice => invoice.vendorId = vendorId ∧ invoice.status.nonDisputed ∧
    invoice.currency = currency).map fun q => q.2.amountMinorUnits).sum

/-- `paid_stmt` -/
def paidTotal : Nat :=
  ((selectInvoices tenantId t d fun invoice => invoice.vendorId = vendorId ∧ invoice.currency = currency).map
    fun q => q.2.amountPaidMinorUnits).sum

/-- `disputed_count_stmt` -/
def disputedCount : Nat :=
  (selectInvoices tenantId t d fun invoice => invoice.vendorId = vendorId ∧ invoice.status = .disputed ∧
    invoice.currency = currency).length

end Report

/-- `get_vendor_reconciliation`, with `compute_vendor_reconciliation`. -/
def getVendorReconciliation (tenantId vendorId currency : String) : InvoicingProg VendorReconciliationView := do
  let vendorStatus ← Prog.query fun _ _ => vendors tenantId vendorId
  if vendorStatus = none then
    Prog.raise (.vendorNotFound vendorId)
  else
    let committed ← Prog.query (committedTotal tenantId vendorId currency)
    let invoiced ← Prog.query (invoicedTotal tenantId vendorId currency)
    let paid ← Prog.query (paidTotal tenantId vendorId currency)
    let disputed ← Prog.query (disputedCount tenantId vendorId currency)
    pure {
      vendorId := vendorId
      currency := currency
      committedMinorUnits := committed
      invoicedMinorUnits := invoiced
      paidMinorUnits := paid
      outstandingMinorUnits := (invoiced : Int) - paid
      disputedInvoiceCount := disputed
      overInvoiced := invoiced > committed
      overPaid := paid > invoiced }

end Calls

end Anoryx.Delta
