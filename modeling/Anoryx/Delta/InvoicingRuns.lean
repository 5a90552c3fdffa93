import Anoryx.Delta.Invoicing

/-!
# Anoryx.Delta.InvoicingRuns

The caps of `Invoicing`, whatever the order of the calls and of their statements.

What an invoice takes of its order only ever gets less (`Follows`), for it can be disputed,
but not billed again.  So whoever holds the row lock of an order, and has added up what is
invoiced, may count on that as an upper bound until he commits: nobody else can insert an
invoice of the order, and all the others can do is to lower the sum.

A payment is written under the row lock of its invoice, so that the running total and the
payments are a `Family` that is moved together.
-/

namespace Anoryx.Delta

open ReadCommitted Table Logic

/-! ## what is true of orders and invoices -/

/-- What an invoice takes of the order `poId`. -/
def InvoiceRow.takes (poId : String) (row : InvoiceRow) : Nat :=
  if row.poId = poId ∧ row.status.nonDisputed then row.amountMinorUnits else 0

/-- What the invoices that a reader finds take of the order. -/
def invoicedOf (poId : String) (d : InvoicingDb) (read : String → Option InvoiceRow) : Nat :=
  d.invoices.total read (InvoiceRow.takes poId)

/-- The running total goes with the status. -/
def InvoiceRow.WellPaid (row : InvoiceRow) : Prop :=
  match row.status with
  | .submitted | .approved | .disputed => row.amountPaidMinorUnits = 0 ∧ 0 < row.amountMinorUnits
  | .partiallyPaid => row.amountPaidMinorUnits < row.amountMinorUnits
  | .paid => row.amountPaidMinorUnits = row.amountMinorUnits

structure Balanced (row : InvoiceRow) (payments : Multiset (String × PaymentRow)) : Prop where
  wellPaid : row.WellPaid
  paid : row.amountPaidMinorUnits = (payments.map fun p => p.2.amountMinorUnits).sum

/-- An order that the invoice may be against. -/
structure Billable (order : PurchaseOrderRow) (row : InvoiceRow) : Prop where
  approved : order.status = .approved
  vendor : order.vendorId = row.vendorId
  currency : order.currency = row.currency
  tenant : order.tenantId = row.tenantId

/-- What becomes of an order: it is decided once. -/
structure Succeeds (order order' : PurchaseOrderRow) : Prop where
  amount : order'.amountMinorUnits = order.amountMinorUnits
  vendor : order'.vendorId = order.vendorId
  currency : order'.currency = order.currency
  tenant : order'.tenantId = order.tenantId
  status : order.status = .requested ∨ order'.status = order.status

/-- What becomes of an invoice: a dispute ends it, and nothing else about the bill changes. -/
structure Follows (row row' : InvoiceRow) : Prop where
  amount : row'.amountMinorUnits = row.amountMinorUnits
  order : row'.poId = row.poId
  vendor : row'.vendorId = row.vendorId
  currency : row'.currency = row.currency
  tenant : row'.tenantId = row.tenantId
  disputed : row.status = .disputed → row'.status = .disputed

/-- What is true of the database between any two statements. -/
structure Invoiced (d : InvoicingDb) : Prop where
  succeeds : ∀ poId t order, d.orders.inflight poId = some (t, order) →
    ∃ order', d.orders.committed poId = some order' ∧ Succeeds order' order
  follows : ∀ x t row row', d.invoices.inflight x = some (t, row) → d.invoices.committed x = some row' →
    Follows row' row
  /-- a new invoice is inserted by who holds the order -/
  billed : ∀ x t row, d.invoices.inflight x = some (t, row) → d.invoices.committed x = none →
    ∃ order, d.orders.inflight row.poId = some (t, order) ∧ Billable order row
  billable : ∀ x row, d.invoices.committed x = some row →
    ∃ order, d.orders.committed row.poId = some order ∧ Billable order row
  capped : ∀ poId order, d.orders.committed poId = some order →
    invoicedOf poId d d.invoices.committed ≤ order.amountMinorUnits
  guards : Guards PaymentRow.invoiceId d.invoices d.payments
  balanced : ∀ x row, d.invoices.committed x = some row →
    Balanced row (d.payments.children PaymentRow.invoiceId d.payments.committed x)
  owned : ∀ k payment, d.payments.committed k = some payment → ∃ row, d.invoices.committed payment.invoiceId = some row

/-- What `u` may rely on: its own versions, the payments of the invoices it holds, and that
what is invoiced of the orders it holds does not grow. -/
structure InvoicingRely (u : Txn) (d d' : InvoicingDb) : Prop where
  orders : Frame u d.orders d'.orders
  keeps : Keeps PaymentRow.invoiceId u d.invoices d.payments d'.invoices d'.payments
  lowered : ∀ poId order, d.orders.inflight poId = some (u, order) → ∀ x,
    share (InvoiceRow.takes poId) (d'.invoices.visible u x) ≤
      share (InvoiceRow.takes poId) (d.invoices.visible u x)

/-- `t` has nothing in flight. -/
structure NothingHeld (t : Txn) (d : InvoicingDb) : Prop where
  orders : ∀ poId order, d.orders.inflight poId ≠ some (t, order)
  invoices : ∀ x row, d.invoices.inflight x ≠ some (t, row)
  payments : ∀ k payment, d.payments.inflight k ≠ some (t, payment)

/-- What `t` must have established when it commits. -/
structure Sound (t : Txn) (d : InvoicingDb) : Prop where
  capped : ∀ poId order, d.orders.inflight poId = some (t, order) →
    invoicedOf poId d (d.invoices.visible t) ≤ order.amountMinorUnits
  balanced : ∀ x row, d.invoices.inflight x = some (t, row) →
    Balanced row (d.payments.children PaymentRow.invoiceId (d.payments.visible t) x)

variable {order order' : PurchaseOrderRow} {row row' : InvoiceRow} {d₁ d₂ d₃ d : InvoicingDb}
  {k x poId tenantId vendorId currency : String} {found : Option PurchaseOrderRow} {req : InvoiceCreateRequest}
  {payments : Multiset (String × PaymentRow)}

section Steps

variable {d d' : InvoicingDb} {t u : Txn} {poId x : String}

theorem Succeeds.refl (order : PurchaseOrderRow) : Succeeds order order := ⟨rfl, rfl, rfl, rfl, .inr rfl⟩

theorem Succeeds.billable (h : Succeeds order order') (hb : Billable order row) : Billable order' row := by
  refine ⟨?_, h.vendor.trans hb.vendor, h.currency.trans hb.currency, h.tenant.trans hb.tenant⟩
  rcases h.status with hrequested | hsame
  · exact absurd (hrequested.symm.trans hb.approved) PurchaseOrderStatus.noConfusion
  · exact hsame.trans hb.approved

theorem Follows.takes_le (h : Follows row row') (poId : String) : row'.takes poId ≤ row.takes poId := by
  have hopen : row'.status.nonDisputed = true → row.status.nonDisputed = true := by
    intro hstatus
    cases hs : row.status with
    | disputed => exact absurd ((congrArg _ (h.disputed hs)).symm.trans hstatus) Bool.false_ne_true
    | submitted | approved | partiallyPaid | paid => rfl
  unfold InvoiceRow.takes
  rw [h.amount, h.order]
  split
  case isTrue htakes => rw [if_pos ⟨htakes.1, hopen htakes.2⟩]
  case isFalse => exact Nat.zero_le _

theorem Follows.billable (h : Follows row row') (hb : Billable order row) : Billable order row' :=
  ⟨hb.approved, hb.vendor.trans h.vendor.symm, hb.currency.trans h.currency.symm, hb.tenant.trans h.tenant.symm⟩

theorem InvoicingRely.refl (u : Txn) (d : InvoicingDb) : InvoicingRely u d d :=
  ⟨Frame.refl u _, Keeps.refl u _ _, fun _ _ _ _ => Nat.le_refl _⟩

theorem InvoicingRely.trans (h : InvoicingRely u d₁ d₂) (h' : InvoicingRely u d₂ d₃) : InvoicingRely u d₁ d₃ :=
  ⟨h.orders.trans h'.orders, h.keeps.trans h'.keeps, fun poId order ho x =>
    Nat.le_trans (h'.lowered poId order ((h.orders.inflight poId order).mp ho) x) (h.lowered poId order ho x)⟩

theorem NothingHeld.rely (h : NothingHeld t d) (hr : InvoicingRely t d d') : NothingHeld t d' where
  orders poId order hin := h.orders poId order ((hr.orders.inflight poId order).mpr hin)
  invoices x row hin := h.invoices x row ((hr.keeps.own.inflight x row).mpr hin)
  payments k payment hin := h.payments k payment ((hr.keeps.ownChildren.inflight k payment).mpr hin)

theorem InvoicingRely.invoicedOf_le (h : InvoicingRely t d d') (ho : d.orders.inflight poId = some (t, order)) :
    invoicedOf poId d' (d'.invoices.visible t) ≤ invoicedOf poId d (d.invoices.visible t) :=
  total_le (d'.invoices.reads_visible t) (d.invoices.reads_visible t) (h.lowered poId order ho)

theorem Sound.rely (h : Sound t d) (hr : InvoicingRely t d d') : Sound t d' where
  capped poId order ho := by
    have hold := (hr.orders.inflight poId order).mpr ho
    exact Nat.le_trans (hr.invoicedOf_le hold) (h.capped poId order hold)
  balanced x row hin := by
    have hold := (hr.keeps.own.inflight x row).mpr hin
    rw [← (hr.keeps.visible hold).children_eq (d.payments.reads_visible t) (d'.payments.reads_visible t)]
    exact h.balanced x row hold

theorem Invoiced.takes_visible_le (h : Invoiced d) (ho : ∀ order, d.orders.inflight poId ≠ some (t, order)) (x : String) :
    share (InvoiceRow.takes poId) (d.invoices.visible t x) ≤
      share (InvoiceRow.takes poId) (d.invoices.committed x) := by
  rcases visible_cases d.invoices t x with ⟨row, hin, hvisible⟩ | ⟨-, hvisible⟩
  · rw [hvisible]
    cases hc : d.invoices.committed x with
    | none =>
        obtain ⟨order, horder, -⟩ := h.billed x t row hin hc
        have hother : row.poId ≠ poId := fun he => ho order (he ▸ horder)
        simp [InvoiceRow.takes, hother]
    | some row' => exact (h.follows x t row row' hin hc).takes_le poId
  · rw [hvisible]

theorem Invoiced.invoicedOf_visible_le (h : Invoiced d) (ho : ∀ order, d.orders.inflight poId ≠ some (t, order)) :
    invoicedOf poId d (d.invoices.visible t) ≤ invoicedOf poId d d.invoices.committed :=
  total_le (d.invoices.reads_visible t) d.invoices.reads_committed (h.takes_visible_le ho)

/-! ## the writes -/

/-- What a write leaves: the invariant, and to the others their rely. -/
def Leaves (t : Txn) (d d' : InvoicingDb) : Prop := Invoiced d' ∧ ∀ u, u ≠ t → InvoicingRely u d d'

theorem Leaves.refl (h : Invoiced d) (t : Txn) : Leaves t d d := ⟨h, fun u _ => InvoicingRely.refl u d⟩

theorem Invoiced.writeOrder (h : Invoiced d) (hfree : d.orders.free t poId = true)
    (hc : d.orders.committed poId = some order) (hs : Succeeds order order')
    (hnew : ∀ x row, d.invoices.inflight x = some (t, row) → d.invoices.committed x ≠ none) :
    Leaves t d { d with orders := d.orders.write t poId order' } := by
  refine ⟨⟨fun poId' t' row hin => ?_, h.follows, fun x t' row hin hnone => ?_, h.billable, h.capped, h.guards,
    h.balanced, h.owned⟩, fun u hu => ⟨frame_write hu hfree, Keeps.refl u _ _, fun _ _ _ _ => Nat.le_refl _⟩⟩
  · rcases inflight_write_cases hin with ⟨rfl, -, rfl⟩ | ⟨-, hin⟩
    · exact ⟨order, hc, hs⟩
    · exact h.succeeds poId' t' row hin
  · obtain ⟨order₁, ho, hb⟩ := h.billed x t' row hin hnone
    have hp : row.poId ≠ poId := by
      rintro he
      obtain rfl : t' = t := free_iff.mp hfree t' order₁ (he ▸ ho)
      exact hnew x row hin hnone
    exact ⟨order₁, (inflight_write_of_ne hp).trans ho, hb⟩

/-- An invoice is written under its order, and its later forms follow it. -/
theorem Invoiced.writeInvoice (h : Invoiced d) (hin : d.invoices.inflight x = none)
    (hfollows : ∀ row', d.invoices.committed x = some row' → Follows row' row)
    (hbilled : d.invoices.committed x = none →
      ∃ order, d.orders.inflight row.poId = some (t, order) ∧ Billable order row) :
    Leaves t d { d with invoices := d.invoices.write t x row } := by
  have hfree : d.invoices.free t x = true := free_iff.mpr fun t' v hv => by
    rw [hin] at hv
    contradiction
  obtain ⟨hguards, hkeeps⟩ := h.guards.write_parent hfree row
  have hversion : ∀ x' t' row', (d.invoices.write t x row).inflight x' = some (t', row') →
      (x' = x ∧ t' = t ∧ row' = row) ∨ d.invoices.inflight x' = some (t', row') := by
    intro x' t' row' hin'
    exact (inflight_write_cases hin').imp_right And.right
  refine ⟨⟨h.succeeds, fun x' t' row₁ row₂ hin' hc => ?_, fun x' t' row₁ hin' hc => ?_, h.billable, fun poId order hc => ?_,
    hguards, h.balanced, h.owned⟩, fun u hu => ⟨Frame.refl u _, hkeeps u hu, fun poId order _ x' => ?_⟩⟩
  · rcases hversion x' t' row₁ hin' with ⟨rfl, rfl, rfl⟩ | hold
    · exact hfollows row₂ hc
    · exact h.follows x' t' row₁ row₂ hold hc
  · rcases hversion x' t' row₁ hin' with ⟨rfl, rfl, rfl⟩ | hold
    · exact hbilled hc
    · exact h.billed x' t' row₁ hold hc
  · exact Nat.le_trans (total_le (d.invoices.write t x row).reads_committed d.invoices.reads_committed
      fun k => Nat.le_refl _) (h.capped poId order hc)
  · show share _ ((d.invoices.write t x row).visible u x') ≤ _
    rw [visible_write_of_txn_ne hu hin]

theorem Invoiced.writePayment (h : Invoiced d) {payment : PaymentRow} (hin : d.payments.inflight k = none)
    (hc : d.payments.committed k = none) (hheld : d.invoices.inflight payment.invoiceId = some (t, row)) :
    Leaves t d { d with payments := d.payments.write t k payment } := by
  have hfree : d.payments.free t k = true := free_iff.mpr fun t' v hv => by
    rw [hin] at hv
    contradiction
  obtain ⟨hguards, hkeeps⟩ := h.guards.write_child hfree hheld fun w' hw => by
    rw [hc] at hw
    contradiction
  refine ⟨⟨h.succeeds, h.follows, h.billed, h.billable, h.capped, hguards, fun x' row' hrow => ?_, h.owned⟩,
    fun u hu => ⟨Frame.refl u _, hkeeps u hu, fun _ _ _ _ => Nat.le_refl _⟩⟩
  show Balanced row' ((d.payments.write t k payment).children _ (d.payments.write t k payment).committed x')
  rw [children_committed_write]
  exact h.balanced x' row' hrow

/-! ## the end of a transaction -/

/-- What is committed keeps both caps. -/
theorem Invoiced.commit (h : Invoiced d) (hs : Sound t d) : Leaves t d (Database.commit t d) := by
  have horder : ∀ poId, (∃ order, d.orders.inflight poId = some (t, order) ∧ d.orders.visible t poId = some order) ∨
      ((∀ order, d.orders.inflight poId ≠ some (t, order)) ∧ d.orders.visible t poId = d.orders.committed poId) :=
    visible_cases d.orders t
  refine ⟨⟨fun poId t' order hin => ?_, fun x t' row row' hin hc => ?_, fun x t' row hin hc => ?_, fun x row hrow => ?_,
    fun poId order hrow => ?_, h.guards.commit t, fun x row hrow => ?_, fun k payment hk => ?_⟩,
    fun u hu => ⟨frame_commit _ hu, h.guards.keeps_commit hu, fun poId order ho x => ?_⟩⟩
  case refine_1 =>
    obtain ⟨hin, hne⟩ := inflight_commit_eq_some.mp hin
    obtain ⟨order', hc, hsucc⟩ := h.succeeds poId t' order hin
    exact ⟨order', (visible_of_inflight_ne hin hne).trans hc, hsucc⟩
  case refine_2 =>
    obtain ⟨hin, hne⟩ := inflight_commit_eq_some.mp hin
    exact h.follows x t' row row' hin ((visible_of_inflight_ne hin hne).symm.trans hc)
  case refine_3 =>
    obtain ⟨hin, hne⟩ := inflight_commit_eq_some.mp hin
    obtain ⟨order, ho, hb⟩ := h.billed x t' row hin ((visible_of_inflight_ne hin hne).symm.trans hc)
    exact ⟨order, inflight_commit_eq_some.mpr ⟨ho, hne⟩, hb⟩
  case refine_4 =>
    -- an order that may be billed is still one after the commit
    have hkept : ∀ {poId order row}, d.orders.committed poId = some order → Billable order row →
        ∃ order', d.orders.visible t poId = some order' ∧ Billable order' row := by
      intro poId order row hc hb
      rcases horder poId with ⟨order', hin, hvisible⟩ | ⟨-, hvisible⟩
      · obtain ⟨order₀, hc₀, hsucc⟩ := h.succeeds poId t order' hin
        obtain rfl : order = order₀ := Option.some.inj (hc.symm.trans hc₀)
        exact ⟨order', hvisible, hsucc.billable hb⟩
      · exact ⟨order, hvisible.trans hc, hb⟩
    rcases visible_cases d.invoices t x with ⟨row', hin, hvisible⟩ | ⟨-, hvisible⟩
    · obtain rfl : row' = row := Option.some.inj (hvisible.symm.trans hrow)
      cases hc : d.invoices.committed x with
      | none =>
          obtain ⟨order, ho, hb⟩ := h.billed x t row' hin hc
          exact ⟨order, visible_of_inflight ho, hb⟩
      | some row₀ =>
          obtain ⟨order, ho, hb⟩ := h.billable x row₀ hc
          have hf := h.follows x t row' row₀ hin hc
          obtain ⟨order', ho', hb'⟩ := hkept ho (hf.billable hb)
          exact ⟨order', by rw [hf.order]; exact ho', hb'⟩
    · obtain ⟨order, ho, hb⟩ := h.billable x row (hvisible.symm.trans hrow)
      exact hkept ho hb
  case refine_5 =>
    show d.invoices.total (d.invoices.visible t) (InvoiceRow.takes poId) ≤ order.amountMinorUnits
    rcases horder poId with ⟨order', hin, hvisible⟩ | ⟨hno, hvisible⟩
    · obtain rfl : order' = order := Option.some.inj (hvisible.symm.trans hrow)
      exact hs.capped poId order' hin
    · exact Nat.le_trans (h.invoicedOf_visible_le hno) (h.capped poId order (hvisible.symm.trans hrow))
  case refine_6 =>
    show Balanced row (d.payments.children _ (d.payments.visible t) x)
    rcases visible_cases d.invoices t x with ⟨row', hin, hvisible⟩ | ⟨hno, hvisible⟩
    · obtain rfl : row' = row := Option.some.inj (hvisible.symm.trans hrow)
      exact hs.balanced x row' hin
    · rw [(h.guards.visible hno).children_eq (d.payments.reads_visible t) d.payments.reads_committed]
      exact h.balanced x row (hvisible.symm.trans hrow)
  case refine_7 =>
    rcases visible_cases d.payments t k with ⟨payment', hin, hvisible⟩ | ⟨-, hvisible⟩
    · obtain rfl : payment' = payment := Option.some.inj (hvisible.symm.trans hk)
      obtain ⟨row, hrow⟩ := h.guards.held k t payment' hin
      exact ⟨row, visible_of_inflight hrow⟩
    · obtain ⟨row, hrow⟩ := h.owned k payment (hvisible.symm.trans hk)
      rcases visible_cases d.invoices t payment.invoiceId with ⟨row', -, hrow'⟩ | ⟨-, hrow'⟩
      · exact ⟨row', hrow'⟩
      · exact ⟨row, hrow'.trans hrow⟩
  case refine_8 =>
    have hno : ∀ order', d.orders.inflight poId ≠ some (t, order') := fun order' ho' =>
      hu (congrArg Prod.fst (Option.some.inj (ho.symm.trans ho')))
    rcases visible_cases d.invoices u x with ⟨row, hin, hvisible⟩ | ⟨hnone, hvisible⟩
    · rw [hvisible]
      exact Nat.le_of_eq (congrArg _ (visible_commit_of_inflight hu hin))
    · have hafter : (d.invoices.commit t).visible u x = d.invoices.visible t x :=
        visible_of_no_inflight fun v hv => hnone v (inflight_commit_eq_some.mp hv).1
      rw [hvisible]
      exact Nat.le_trans (Nat.le_of_eq (congrArg _ hafter)) (h.takes_visible_le hno x)

theorem Invoiced.rollback (h : Invoiced d) (t : Txn) : Leaves t d (Database.rollback t d) := by
  refine ⟨⟨fun poId t' order hin => h.succeeds poId t' order (inflight_rollback_eq_some.mp hin).1,
    fun x t' row row' hin hc => h.follows x t' row row' (inflight_rollback_eq_some.mp hin).1 hc,
    fun x t' row hin hc => ?_, h.billable, h.capped, h.guards.rollback t, h.balanced, h.owned⟩, fun u hu =>
      ⟨frame_rollback _ hu, keeps_rollback _ _ hu, fun poId order _ x => ?_⟩⟩
  · obtain ⟨hin, hne⟩ := inflight_rollback_eq_some.mp hin
    obtain ⟨order, ho, hb⟩ := h.billed x t' row hin hc
    exact ⟨order, inflight_rollback_eq_some.mpr ⟨ho, hne⟩, hb⟩
  · exact Nat.le_of_eq (congrArg _ (visible_rollback_of_ne hu x))

end Steps

/-! ## the calls -/

def invoicingLogic : Logic InvoicingDb InvoicingCall InvoicingView where
  inv := Invoiced
  rely := InvoicingRely
  fresh := NothingHeld
  post t _ _ d := Sound t d
  ensures _ _ _ _ := True
  undone _ _ := True

section Calls

variable {d d' : InvoicingDb} {t : Txn} {vendors tasks : String → String → Option String}

theorem Leaves.keeps (h : Leaves t d d') : invoicingLogic.Keeps t d d' := ⟨h.1, h.2⟩

theorem Invoiced.visible (h : Invoiced d) (hu : NothingHeld t d) (x : String) :
    Family PaymentRow.invoiceId x (d.invoices.visible t) (d.payments.visible t) d.invoices.committed
      d.payments.committed := h.guards.visible (hu.invoices x)

theorem NothingHeld.invoice_free (hu : NothingHeld t d) (hfree : d.invoices.free t x = true) :
    d.invoices.inflight x = none := by
  cases hin : d.invoices.inflight x with
  | none => rfl
  | some p =>
      obtain ⟨t', row⟩ := p
      obtain rfl := free_iff.mp hfree t' row hin
      exact absurd hin (hu.invoices x row)

/-! ### create_invoice -/

/-- `t` holds the order and nothing else. -/
structure HoldsOrder (t : Txn) (poId : String) (order : PurchaseOrderRow) (d : InvoicingDb) : Prop where
  order : d.orders.inflight poId = some (t, order)
  alone : ∀ poId' order', d.orders.inflight poId' = some (t, order') → poId' = poId
  invoices : ∀ x row, d.invoices.inflight x ≠ some (t, row)
  payments : ∀ k payment, d.payments.inflight k ≠ some (t, payment)

variable {order : PurchaseOrderRow}

theorem HoldsOrder.rely (h : HoldsOrder t poId order d) (hr : InvoicingRely t d d') : HoldsOrder t poId order d' where
  order := (hr.orders.inflight poId order).mp h.order
  alone poId' order' hin := h.alone poId' order' ((hr.orders.inflight poId' order').mpr hin)
  invoices x row hin := h.invoices x row ((hr.keeps.own.inflight x row).mpr hin)
  payments k payment hin := h.payments k payment ((hr.keeps.ownChildren.inflight k payment).mpr hin)

theorem NothingHeld.getPurchaseOrderForUpdate (hu : NothingHeld t d) (h : Invoiced d)
    (hlock : getPurchaseOrderForUpdate tenantId poId t d = some (found, d')) :
    Leaves t d d' ∧ ∀ order, found = some order → order.tenantId = tenantId ∧ HoldsOrder t poId order d' := by
  obtain ⟨⟨r, orders⟩, hupdate, he⟩ := Option.map_eq_some_iff.mp hlock
  obtain ⟨rfl, rfl⟩ := Prod.mk.inj he
  rcases updateWhere_cases hupdate with ⟨rfl, rfl, -⟩ | ⟨order, hvisible, htenant, hfree, rfl, rfl⟩
  · exact ⟨Leaves.refl h t, fun order he => absurd he.symm (Option.some_ne_none order)⟩
  have hc : d.orders.committed poId = some order :=
    (visible_of_no_inflight (hu.orders poId)).symm.trans hvisible
  refine ⟨h.writeOrder hfree hc (Succeeds.refl order) fun x row hin => absurd hin (hu.invoices x row), fun order' he => ?_⟩
  obtain rfl : order = order' := Option.some.inj he
  refine ⟨of_decide_eq_true htenant, inflight_write_self .., fun poId' order' hin => ?_, hu.invoices, hu.payments⟩
  by_contra hne
  exact hu.orders poId' order' ((inflight_write_of_ne hne).symm.trans hin)

theorem invoicedOf_le_sum (h : Invoiced d) (ho : HoldsOrder t poId order d) (htenant : order.tenantId = tenantId) :
    invoicedOf poId d (d.invoices.visible t) ≤ sumNonDisputedInvoicedForPo tenantId t d poId := by
  unfold invoicedOf
  have htakes : InvoiceRow.takes poId = fun row => if (decide (row.poId = poId ∧ row.status.nonDisputed = true)) then
      row.amountMinorUnits else 0 := by
    funext row
    simp [InvoiceRow.takes]
  rw [htakes, total_ite]
  refine Nat.le_of_eq (congrArg List.sum (congrArg _ (List.filter_congr fun q hq => ?_)))
  by_cases hof : q.2.poId = poId
  · -- the invoices of the order are of its tenant
    have hc : d.invoices.committed q.1 = some q.2 :=
      (visible_of_no_inflight (ho.invoices q.1)).symm.trans (mem_scan.mp hq)
    obtain ⟨order₀, horder₀, hb⟩ := h.billable q.1 q.2 hc
    obtain ⟨order₁, horder₁, hsucc⟩ := h.succeeds poId t order ho.order
    obtain rfl : order₀ = order₁ := Option.some.inj ((hof ▸ horder₀).symm.trans horder₁)
    have hrow : q.2.tenantId = tenantId := hb.tenant.symm.trans (hsucc.tenant.symm.trans htenant)
    simp [hof, hrow]
  · simp [hof]

theorem billable_of_check (h : checkOrder req found = .ok order) (htenant : order.tenantId = req.tenantId) :
    found = some order ∧ Billable order req.row := by
  cases found with
  | none => contradiction
  | some order' =>
      unfold checkOrder at h
      grind [Billable, InvoiceCreateRequest.row]

/-- The sum of an order's invoices is read under its lock. -/
theorem wp_createInvoice (hu : NothingHeld t d) :
    invoicingLogic.wp t (fun _ d' => Sound t d') (createInvoice vendors tasks req) d := by
  refine wp_query_bind InvoicingRely.refl fun d₁ h₁ hr₁ => ?_
  split
  case isTrue => trivial
  refine wp_exec_bind fun d₂ h₂ hr₂ found d₃ hlock _ => ?_
  obtain ⟨hleaves, hheld⟩ := ((hu.rely hr₁).rely hr₂).getPurchaseOrderForUpdate h₂ hlock
  refine ⟨hleaves.keeps, wp_ofExcept_bind fun order horder => wp_ofExcept_bind fun _ _ => ?_⟩
  refine wp_query_bind InvoicingRely.refl fun d₄ h₄ hr₄ => ?_
  split
  case isTrue => trivial
  next hcap =>
  have hfound : found = some order := by
    unfold checkOrder at horder
    grind
  obtain ⟨htenant, hholds⟩ := hheld order hfound
  obtain ⟨-, hbillable⟩ := billable_of_check horder htenant
  have hholds₄ := hholds.rely hr₄
  have hsum := invoicedOf_le_sum h₄ hholds₄ htenant
  refine wp_inserting_bind fun d₅ h₅ hr₅ b d₆ hins _ => ?_
  obtain ⟨⟨b', invoices⟩, hinsert, he⟩ := Option.map_eq_some_iff.mp hins
  obtain ⟨rfl, rfl⟩ := Prod.mk.inj he
  have hholds₅ := hholds₄.rely hr₅
  rcases insertOrIgnore_cases hinsert with ⟨rfl, rfl, -⟩ | ⟨rfl, rfl, hin, hc⟩
  · exact ⟨(Leaves.refl h₅ t).keeps, fun hb => absurd hb Bool.false_ne_true⟩
  have hleaves₆ : Leaves t d₅ { d₅ with invoices := d₅.invoices.write t req.invoiceId req.row } :=
    h₅.writeInvoice hin (fun row' hrow' => by
      rw [hc] at hrow'
      contradiction) fun _ => ⟨order, hholds₅.order, hbillable⟩
  refine ⟨hleaves₆.keeps, fun _ d₇ h₇ hr₇ => Sound.rely ⟨fun poId order' ho => ?_, fun x row hrow => ?_⟩ hr₇⟩
  · obtain rfl := hholds₅.alone poId order' ho
    obtain rfl : order = order' := congrArg Prod.snd (Option.some.inj (hholds₅.order.symm.trans ho))
    have hnone : d₅.invoices.visible t req.invoiceId = none := (visible_of_inflight_none hin).trans hc
    have hchange := total_change (f := InvoiceRow.takes req.poId) (d₅.invoices.reads_visible t)
      ((d₅.invoices.write t req.invoiceId req.row).reads_visible t) (k := req.invoiceId)
      fun k' hk' => visible_write_of_ne hk'
    rw [hnone, share_none, visible_write_self, share_some] at hchange
    have hrow : req.row.takes req.poId = req.amountMinorUnits := by
      simp [InvoiceRow.takes, InvoiceCreateRequest.row, InvoiceStatus.nonDisputed]
    have hbound := hr₅.invoicedOf_le hholds₄.order
    show total (d₅.invoices.write t req.invoiceId req.row)
      ((d₅.invoices.write t req.invoiceId req.row).visible t) (InvoiceRow.takes req.poId) ≤ order.amountMinorUnits
    unfold invoicedOf at hbound hsum
    omega
  · obtain ⟨rfl, -, rfl⟩ := (inflight_write_cases hrow).resolve_right fun hold => hholds₅.invoices x row hold.2
    -- there are no payments of an invoice that is not there
    have hempty : d₅.payments.children PaymentRow.invoiceId (d₅.payments.visible t) req.invoiceId = 0 := by
      rw [(h₅.guards.visible (hholds₅.invoices req.invoiceId)).children_eq (d₅.payments.reads_visible t)
        d₅.payments.reads_committed, Multiset.eq_zero_iff_forall_notMem]
      intro p hp
      obtain ⟨hcommitted, hof⟩ := (mem_children d₅.payments.reads_committed).mp hp
      obtain ⟨row', hrow'⟩ := h₅.owned p.1 p.2 hcommitted
      rw [hof, hc] at hrow'
      contradiction
    show Balanced req.row (d₅.payments.children _ (d₅.payments.visible t) req.invoiceId)
    rw [hempty]
    exact ⟨⟨rfl, req.amount_pos⟩, rfl⟩

/-! ### decide_invoice, record_payment -/

theorem NothingHeld.updateInvoice (hu : NothingHeld t d) (h : Invoiced d) {p : InvoiceRow → Bool}
    {f : InvoiceRow → InvoiceRow} (hf : ∀ row, p row = true → Follows row (f row)) {r : Option InvoiceRow}
    (hupdate : updateInvoice tenantId x p f t d = some (r, d')) :
    Leaves t d d' ∧ (r ≠ none → ∃ row, p row = true ∧ Balanced row (d.payments.children PaymentRow.invoiceId
        d.payments.committed x) ∧ d'.invoices.inflight x = some (t, f row) ∧
      (∀ x' row', d'.invoices.inflight x' = some (t, row') → x' = x) ∧ d'.orders = d.orders ∧
      d'.payments = d.payments) := by
  obtain ⟨⟨r', invoices⟩, hwrite, he⟩ := Option.map_eq_some_iff.mp hupdate
  obtain ⟨rfl, rfl⟩ := Prod.mk.inj he
  rcases updateWhere_cases hwrite with ⟨rfl, rfl, -⟩ | ⟨row, hvisible, hrow, hfree, rfl, rfl⟩
  · exact ⟨Leaves.refl h t, fun hne => absurd rfl hne⟩
  have hc : d.invoices.committed x = some row := (h.visible hu x).row.symm.trans hvisible
  have hp : p row = true := (of_decide_eq_true hrow).2
  refine ⟨h.writeInvoice (hu.invoice_free hfree) (fun row' hrow' => ?_) fun hnone => ?_, fun _ =>
    ⟨row, hp, h.balanced x row hc, inflight_write_self .., fun x' row' hin => ?_, rfl, rfl⟩⟩
  · obtain rfl : row = row' := Option.some.inj (hc.symm.trans hrow')
    exact hf row hp
  · rw [hc] at hnone
    contradiction
  · by_contra hne
    exact hu.invoices x' row' ((inflight_write_of_ne hne).symm.trans hin)

variable {row : InvoiceRow}

theorem Balanced.unpaid (h : Balanced row payments) (hs : row.status = .submitted) :
    row.amountPaidMinorUnits = 0 ∧ 0 < row.amountMinorUnits := by
  have hpaid := h.wellPaid
  unfold InvoiceRow.WellPaid at hpaid
  rwa [hs] at hpaid

theorem Balanced.decide (h : Balanced row payments) (hs : row.status = .submitted) (req : InvoiceDecisionRequest) :
    Balanced (req.decide row) payments := by
  refine ⟨?_, h.paid⟩
  obtain ⟨hzero, hpos⟩ := h.unpaid hs
  show InvoiceRow.WellPaid { row with status := req.action.status, decidedBy := _, decidedAt := _, updatedAt := _ }
  unfold InvoiceRow.WellPaid
  cases req.action <;> exact ⟨hzero, hpos⟩

theorem PaymentRecordRequest.wellPaid (req : PaymentRecordRequest) (hfits : req.fits row = true) :
    (req.pay row).WellPaid := by
  obtain ⟨-, hle⟩ := of_decide_eq_true hfits
  unfold InvoiceRow.WellPaid PaymentRecordRequest.pay
  split <;> simp_all
  · split at * <;> contradiction
  · split at * <;> contradiction
  · split at * <;> contradiction
  · omega

theorem follows_decide (req : InvoiceDecisionRequest) (hs : row.status = .submitted) :
    Follows row (req.decide row) :=
  ⟨rfl, rfl, rfl, rfl, rfl, fun hd => absurd (hs.symm.trans hd) InvoiceStatus.noConfusion⟩

theorem follows_pay (req : PaymentRecordRequest) (hfits : req.fits row = true) :
    Follows row (req.pay row) := by
  refine ⟨rfl, rfl, rfl, rfl, rfl, fun hd => ?_⟩
  obtain ⟨hpayable, -⟩ := of_decide_eq_true hfits
  rw [hd] at hpayable
  contradiction

theorem wp_decideInvoice {req : InvoiceDecisionRequest} (hu : NothingHeld t d) :
    invoicingLogic.wp t (fun _ d' => Sound t d') (decideInvoice req) d := by
  refine wp_query_bind InvoicingRely.refl fun d₁ h₁ hr₁ => ?_
  split
  case isTrue => trivial
  refine wp_exec_bind fun d₂ h₂ hr₂ r d₃ hupdate _ => ?_
  have hu₂ := (hu.rely hr₁).rely hr₂
  obtain ⟨hleaves, hdone⟩ := hu₂.updateInvoice h₂ (fun row hp => follows_decide req (of_decide_eq_true hp)) hupdate
  refine ⟨hleaves.keeps, ?_⟩
  split
  case isTrue => trivial
  next hr =>
  obtain ⟨row, hp, hbalanced, hin, halone, horders, hpayments⟩ := hdone hr
  have hsound : Sound t d₃ := by
    refine ⟨fun poId order ho => absurd (horders ▸ ho) (hu₂.orders poId order), fun x row' hrow' => ?_⟩
    obtain rfl := halone x row' hrow'
    obtain rfl : req.decide row = row' := congrArg Prod.snd (Option.some.inj (hin.symm.trans hrow'))
    rw [hpayments, (h₂.visible hu₂ _).children_eq (d₂.payments.reads_visible t) d₂.payments.reads_committed]
    exact hbalanced.decide (of_decide_eq_true hp) req
  refine wp_query_bind InvoicingRely.refl fun d₄ h₄ hr₄ => ?_
  split
  · trivial
  · exact fun d₅ _ hr₅ => (hsound.rely hr₄).rely hr₅

/-- A payment and the new status of its invoice go together. -/
theorem wp_recordPayment {req : PaymentRecordRequest} (hu : NothingHeld t d) :
    invoicingLogic.wp t (fun _ d' => Sound t d') (recordPayment req) d := by
  refine wp_query_bind InvoicingRely.refl fun d₁ h₁ hr₁ => ?_
  split
  case h_1 => trivial
  split
  case isTrue => trivial
  refine wp_exec_bind fun d₂ h₂ hr₂ r d₃ hupdate _ => ?_
  have hu₂ := (hu.rely hr₁).rely hr₂
  obtain ⟨hleaves, hdone⟩ := hu₂.updateInvoice h₂ (fun row hp => follows_pay req hp) hupdate
  refine ⟨hleaves.keeps, ?_⟩
  split
  case isTrue => exact wp_query_bind InvoicingRely.refl fun d₄ h₄ hr₄ => trivial
  next hr =>
  obtain ⟨row, hfits, hbalanced, hin, halone, horders, hpayments⟩ := hdone hr
  have hchildren : d₃.payments.children PaymentRow.invoiceId (d₃.payments.visible t) req.invoiceId =
      d₂.payments.children PaymentRow.invoiceId d₂.payments.committed req.invoiceId := by
    rw [hpayments]
    exact (h₂.visible hu₂ _).children_eq (d₂.payments.reads_visible t) d₂.payments.reads_committed
  refine wp_inserting_bind fun d₄ h₄ hr₄ b d₅ hins _ => ?_
  obtain ⟨⟨b', payments⟩, hinsert, he⟩ := Option.map_eq_some_iff.mp hins
  obtain ⟨rfl, rfl⟩ := Prod.mk.inj he
  rcases insertOrIgnore_cases hinsert with ⟨rfl, rfl, -⟩ | ⟨rfl, rfl, hfree, hc⟩
  · exact ⟨(Leaves.refl h₄ t).keeps, fun hb => absurd hb Bool.false_ne_true⟩
  have hheld : d₄.invoices.inflight req.invoiceId = some (t, req.pay row) := (hr₄.keeps.own.inflight _ _).mp hin
  refine ⟨(h₄.writePayment hfree hc hheld).keeps, fun _ d₆ _ hr₆ => Sound.rely ⟨fun poId order ho => ?_,
    fun x row' hrow' => ?_⟩ hr₆⟩
  · exact absurd (horders ▸ (hr₄.orders.inflight poId order).mpr ho) (hu₂.orders poId order)
  · obtain rfl := halone x row' ((hr₄.keeps.own.inflight x row').mpr hrow')
    obtain rfl : req.pay row = row' := congrArg Prod.snd (Option.some.inj (hheld.symm.trans hrow'))
    have hadd : (d₄.payments.write t req.paymentId req.row).children PaymentRow.invoiceId
        ((d₄.payments.write t req.paymentId req.row).visible t) req.invoiceId =
        (req.paymentId, req.row) ::ₘ d₂.payments.children PaymentRow.invoiceId d₂.payments.committed req.invoiceId := by
      rw [← hchildren, (hr₄.keeps.visible hin).children_eq (d₃.payments.reads_visible t) (d₄.payments.reads_visible t)]
      exact Multiset.coe_eq_coe.mpr (rowsOf_visible_write ((visible_of_inflight_none hfree).trans hc)
        (decide_eq_true rfl))
    show Balanced (req.pay row) ((d₄.payments.write t req.paymentId req.row).children _ _ req.invoiceId)
    rw [hadd]
    refine ⟨req.wellPaid hfits, ?_⟩
    rw [Multiset.map_cons, Multiset.sum_cons, ← hbalanced.paid]
    exact Nat.add_comm _ _

/-! ### decide_purchase_order -/

theorem wp_decidePurchaseOrder {req : PurchaseOrderDecisionRequest} (hu : NothingHeld t d) :
    invoicingLogic.wp t (fun _ d' => Sound t d') (decidePurchaseOrder req) d := by
  refine wp_query_bind InvoicingRely.refl fun d₁ h₁ hr₁ => ?_
  split
  case isTrue => trivial
  refine wp_exec_bind fun d₂ h₂ hr₂ r d₃ hupdate _ => ?_
  have hu₂ := (hu.rely hr₁).rely hr₂
  obtain ⟨⟨r', orders⟩, hwrite, he⟩ := Option.map_eq_some_iff.mp hupdate
  obtain ⟨rfl, rfl⟩ := Prod.mk.inj he
  rcases updateWhere_cases hwrite with ⟨rfl, rfl, -⟩ | ⟨order, hvisible, horder, hfree, rfl, rfl⟩
  · exact ⟨(Leaves.refl h₂ t).keeps, trivial⟩
  have hc : d₂.orders.committed req.poId = some order :=
    (visible_of_no_inflight (hu₂.orders req.poId)).symm.trans hvisible
  have hsucceeds : Succeeds order (req.decide order) :=
    ⟨rfl, rfl, rfl, rfl, .inl (of_decide_eq_true horder).2⟩
  refine ⟨(h₂.writeOrder hfree hc hsucceeds fun x row hin => absurd hin (hu₂.invoices x row)).keeps, ?_⟩
  have hsound : Sound t { d₂ with orders := d₂.orders.write t req.poId (req.decide order) } := by
    refine ⟨fun poId order' ho => ?_, fun x row hin => absurd hin (hu₂.invoices x row)⟩
    obtain ⟨rfl, -, rfl⟩ := (inflight_write_cases ho).resolve_right fun hold => hu₂.orders poId order' hold.2
    exact Nat.le_trans (h₂.invoicedOf_visible_le (hu₂.orders req.poId)) (h₂.capped req.poId order hc)
  refine wp_query_bind InvoicingRely.refl fun d₄ h₄ hr₄ => ?_
  split
  · trivial
  · exact fun d₅ _ hr₅ => (hsound.rely hr₄).rely hr₅

theorem invoicingLogic_sound : invoicingLogic.Sound (InvoicingCall.prog vendors tasks) where
  refl := InvoicingRely.refl
  trans := InvoicingRely.trans
  fresh_rely _ hr hu := hu.rely hr
  ensures_rely _ _ _ := trivial
  undone_rely _ _ _ := trivial
  body {t call d} _ _ hu := by
    cases call with
    | createInvoice req => exact wp_createInvoice hu
    | decideInvoice req => exact wp_decideInvoice hu
    | recordPayment req => exact wp_recordPayment hu
    | decidePurchaseOrder req => exact wp_decidePurchaseOrder hu
  commit h hs := ⟨(h.commit hs).keeps, trivial⟩
  rollback h := ⟨(h.rollback _).keeps, trivial⟩

/-! ## the report -/

theorem InvoiceRow.WellPaid.paid_le (h : row.WellPaid) :
    row.amountPaidMinorUnits ≤ row.amountMinorUnits := by
  unfold InvoiceRow.WellPaid at h
  split at h <;> omega

theorem InvoiceRow.WellPaid.paid_iff (h : row.WellPaid) :
    row.status = .paid ↔ row.amountPaidMinorUnits = row.amountMinorUnits := by
  unfold InvoiceRow.WellPaid at h
  cases hs : row.status <;> simp only [hs] at h <;> simp <;> omega

theorem InvoiceRow.WellPaid.disputed (h : row.WellPaid) (hs : row.status.nonDisputed = false) :
    row.amountPaidMinorUnits = 0 := by
  unfold InvoiceRow.WellPaid at h
  cases hstatus : row.status <;> simp only [hstatus, InvoiceStatus.nonDisputed] at h hs
  all_goals first | contradiction | exact h.1

/-- A vendor's invoices stay within its orders. -/
theorem invoicedTotal_le (h : Invoiced d) (hu : NothingHeld t d) (tenantId vendorId currency : String) :
    invoicedTotal tenantId vendorId currency t d ≤ committedTotal tenantId vendorId currency t d := by
  have horders : ∀ poId, d.orders.visible t poId = d.orders.committed poId :=
    fun poId => visible_of_no_inflight (hu.orders poId)
  unfold invoicedTotal committedTotal
  have hamounts : (((d.orders.scan t).filter fun q => q.2.tenantId = tenantId ∧ q.2.vendorId = vendorId ∧
      q.2.status = .approved ∧ q.2.currency = currency).map fun q => q.2.amountMinorUnits) =
      (((d.orders.scan t).filter fun q => q.2.tenantId = tenantId ∧ q.2.vendorId = vendorId ∧
        q.2.status = .approved ∧ q.2.currency = currency).map Prod.fst).map
          fun poId => ((d.orders.visible t poId).map PurchaseOrderRow.amountMinorUnits).getD 0 := by
    rw [List.map_map]
    refine List.map_congr_left fun q hq => ?_
    have hvisible := mem_scan.mp (List.mem_of_mem_filter hq)
    simp [hvisible]
  rw [hamounts]
  refine sum_le_sum_of_groups (fun q : String × InvoiceRow => q.2.poId) _ _ (fun q hq => ?_) fun poId hpo => ?_
  · -- every invoice is of an approved order, of the same tenant, vendor and currency
    obtain ⟨hscan, hq⟩ := List.mem_filter.mp hq
    obtain ⟨htenant, hsel⟩ := of_decide_eq_true hq
    obtain ⟨hvendor, -, hcurrency⟩ := of_decide_eq_true hsel
    obtain ⟨order, horder, hb⟩ := h.billable q.1 q.2 ((h.visible hu q.1).row.symm.trans (mem_scan.mp hscan))
    exact List.mem_map.mpr ⟨(q.2.poId, order), List.mem_filter.mpr ⟨mem_scan.mpr ((horders _).trans horder),
      decide_eq_true ⟨hb.tenant.trans htenant, hb.vendor.trans hvendor, hb.approved, hb.currency.trans hcurrency⟩⟩, rfl⟩
  · obtain ⟨q, hq, rfl⟩ := List.mem_map.mp hpo
    have horder := mem_scan.mp (List.mem_of_mem_filter hq)
    have hcap := Nat.le_trans (h.invoicedOf_visible_le (hu.orders q.1)) (h.capped q.1 q.2 ((horders _).symm.trans horder))
    have htakes : InvoiceRow.takes q.1 = fun row =>
        if (decide (row.poId = q.1 ∧ row.status.nonDisputed = true)) then row.amountMinorUnits else 0 := by
      funext row
      simp [InvoiceRow.takes]
    rw [invoicedOf, htakes, total_ite] at hcap
    rw [horder, Option.map_some, Option.getD_some]
    refine Nat.le_trans (List.Sublist.sum_le_sum (List.Sublist.map _ ?_) fun _ _ => Nat.zero_le _) hcap
    unfold selectInvoices rowsOf
    rw [List.filter_filter]
    refine List.monotone_filter_right _ fun p hp => ?_
    simp_all

theorem paidTotal_le (h : Invoiced d) (hu : NothingHeld t d) (tenantId vendorId currency : String) :
    paidTotal tenantId vendorId currency t d ≤ invoicedTotal tenantId vendorId currency t d := by
  have hpaid := total_ite d.invoices (d.invoices.visible t) (fun row => decide (row.tenantId = tenantId ∧
    decide (row.vendorId = vendorId ∧ row.currency = currency) = true)) InvoiceRow.amountPaidMinorUnits
  have hinvoiced := total_ite d.invoices (d.invoices.visible t) (fun row => decide (row.tenantId = tenantId ∧
    decide (row.vendorId = vendorId ∧ row.status.nonDisputed = true ∧ row.currency = currency) = true))
    InvoiceRow.amountMinorUnits
  refine Nat.le_trans (Nat.le_of_eq hpaid.symm) (Nat.le_trans ?_ (Nat.le_of_eq hinvoiced))
  unfold total
  refine List.sum_le_sum fun q hq => ?_
  have hwellPaid := (h.balanced q.1 q.2 ((h.visible hu q.1).row.symm.trans (mem_scan.mp hq))).wellPaid
  have hle := hwellPaid.paid_le
  have hdisputed := hwellPaid.disputed
  grind

/-- **The report flags nothing.** -/
theorem report_unflagged (h : Invoiced d) (hu : NothingHeld t d) {view : VendorReconciliationView}
    (hreport : (getVendorReconciliation vendors tenantId vendorId currency).eval t d = some (.ok view, d')) :
    view.overInvoiced = false ∧ view.overPaid = false := by
  unfold getVendorReconciliation at hreport
  rw [Prog.eval_query_bind] at hreport
  split at hreport
  · cases hreport
  · simp only [Prog.eval_query_bind, Prog.eval_pure, Option.some.injEq, Prod.mk.injEq, Except.ok.injEq] at hreport
    obtain ⟨rfl, -⟩ := hreport
    exact ⟨decide_eq_false (Nat.not_lt.mpr (invoicedTotal_le h hu tenantId vendorId currency)),
      decide_eq_false (Nat.not_lt.mpr (paidTotal_le h hu tenantId vendorId currency))⟩

end Calls

/-! ## every schedule -/

/-- A database between calls. -/
structure SettledInvoices (d : InvoicingDb) : Prop where
  quiet : d.orders.Quiet
  quietInvoices : d.invoices.Quiet
  quietPayments : d.payments.Quiet
  billable : ∀ x row, d.invoices.committed x = some row →
    ∃ order, d.orders.committed row.poId = some order ∧ Billable order row
  capped : ∀ poId order, d.orders.committed poId = some order →
    invoicedOf poId d d.invoices.committed ≤ order.amountMinorUnits
  balanced : ∀ x row, d.invoices.committed x = some row →
    Balanced row (d.payments.children PaymentRow.invoiceId d.payments.committed x)
  owned : ∀ k payment, d.payments.committed k = some payment → ∃ row, d.invoices.committed payment.invoiceId = some row

theorem SettledInvoices.invoiced (h : SettledInvoices d) : Invoiced d where
  succeeds poId _ _ hin := absurd ((h.quiet poId).symm.trans hin).symm (Option.some_ne_none _)
  follows x _ _ _ hin := absurd ((h.quietInvoices x).symm.trans hin).symm (Option.some_ne_none _)
  billed x _ _ hin := absurd ((h.quietInvoices x).symm.trans hin).symm (Option.some_ne_none _)
  billable := h.billable
  capped := h.capped
  guards := ⟨fun k _ _ hin => absurd ((h.quietPayments k).symm.trans hin).symm (Option.some_ne_none _),
    fun k _ _ _ hin => absurd ((h.quietPayments k).symm.trans hin).symm (Option.some_ne_none _)⟩
  balanced := h.balanced
  owned := h.owned

theorem invoicingLogic_start (h : SettledInvoices d) :
    invoicingLogic.Ok (Sys.start d : Sys InvoicingDb InvoicingError InvoicingCall InvoicingView) :=
  ⟨h.invoiced, fun _ => ⟨fun poId _ hin => absurd ((h.quiet poId).symm.trans hin).symm (Option.some_ne_none _),
    fun x _ hin => absurd ((h.quietInvoices x).symm.trans hin).symm (Option.some_ne_none _),
    fun k _ hin => absurd ((h.quietPayments k).symm.trans hin).symm (Option.some_ne_none _)⟩⟩

/-- **The caps of invoices and payments**, whatever the order of the calls and of their statements:
the invoices of an order that are not disputed make up its amount at most; an invoice is paid
what its payments make up, up to its amount, and its status is `paid` exactly when that is all
of it; and the report flags neither. -/
theorem invoice_caps (vendors tasks : String → String → Option String) (d : InvoicingDb) (hd : SettledInvoices d)
    (schedule : List (Action InvoicingCall)) (s : Sys InvoicingDb InvoicingError InvoicingCall InvoicingView)
    (hrun : run (InvoicingCall.prog vendors tasks) (Sys.start d) schedule = some s) :
    (∀ poId order, s.db.orders.committed poId = some order →
      ((s.db.invoices.rowsOf s.db.invoices.committed fun row => row.poId = poId ∧ row.status.nonDisputed).map
        fun q => q.2.amountMinorUnits).sum ≤ order.amountMinorUnits) ∧
    (∀ x row, s.db.invoices.committed x = some row →
      row.amountPaidMinorUnits ≤ row.amountMinorUnits ∧
      row.amountPaidMinorUnits = ((s.db.payments.rowsOf s.db.payments.committed fun payment => payment.invoiceId = x).map
        fun q => q.2.amountMinorUnits).sum ∧
      (row.status = .paid ↔ row.amountPaidMinorUnits = row.amountMinorUnits)) ∧
    ∀ t tenantId vendorId currency view d', s.procs t = .idle →
      (getVendorReconciliation vendors tenantId vendorId currency).eval t s.db = some (.ok view, d') →
      view.overInvoiced = false ∧ view.overPaid = false := by
  have hsound : invoicingLogic.Sound (InvoicingCall.prog vendors tasks) := invoicingLogic_sound
  have hok := hsound.run (invoicingLogic_start hd)
    (everyStep_permits (fun _ => trivial) (fun _ _ _ => trivial) schedule) hrun
  have hinv : Invoiced s.db := hok.inv
  refine ⟨fun poId order horder => ?_, fun x row hrow => ?_, fun t tenantId vendorId currency view d' hidle hreport => ?_⟩
  · have htakes : InvoiceRow.takes poId = fun row =>
        if (decide (row.poId = poId ∧ row.status.nonDisputed = true)) then row.amountMinorUnits else 0 := by
      funext row
      simp [InvoiceRow.takes]
    have hcapped := hinv.capped poId order horder
    rwa [invoicedOf, htakes, total_ite] at hcapped
  · have hbalanced := hinv.balanced x row hrow
    refine ⟨hbalanced.wellPaid.paid_le, ?_, hbalanced.wellPaid.paid_iff⟩
    have hpaid := hbalanced.paid
    rwa [children, Multiset.map_coe, Multiset.sum_coe] at hpaid
  · have hproc := hok.procs t
    rw [hidle] at hproc
    exact report_unflagged hinv hproc hreport

section Sample

def sampleOrder : PurchaseOrderRow where
  tenantId := "tenant"
  vendorId := "vendor"
  assetId := none
  description := "order"
  amountMinorUnits := 5000
  currency := "USD"
  status := .requested
  requestedBy := "admin"
  requestedAt := 0
  decidedBy := none
  decidedAt := none

def sampleOrders : InvoicingDb := ⟨(empty.write 0 "po" sampleOrder).commit 0, empty, empty⟩

theorem settledInvoices_sampleOrders : SettledInvoices sampleOrders := by
  refine ⟨(Quiet.commit_write (fun _ => rfl) 0 "po" sampleOrder).1, fun _ => rfl, fun _ => rfl, fun _ _ h => ?_,
    fun _ _ _ => Nat.zero_le _, fun _ _ h => ?_, fun _ _ h => ?_⟩
  all_goals exact absurd h.symm (Option.some_ne_none _)

def sampleInvoice (invoiceId : String) : InvoiceCreateRequest where
  tenantId := "tenant"
  vendorId := "vendor"
  poId := "po"
  milestoneTaskId := none
  invoiceNumber := invoiceId
  description := "invoice"
  amountMinorUnits := 3000
  currency := "USD"
  submittedBy := "admin"
  invoiceId := invoiceId
  now := 1
  amount_pos := Nat.le_of_ble_eq_true rfl
  amount_le := Nat.le_of_ble_eq_true rfl

def samplePayment (paymentId : String) : PaymentRecordRequest where
  invoiceId := "invoice"
  tenantId := "tenant"
  amountMinorUnits := 2000
  currency := "USD"
  paidAt := 3
  recordedBy := "admin"
  note := none
  paymentId := paymentId
  now := 3
  amount_pos := Nat.le_of_ble_eq_true rfl
  amount_le := Nat.le_of_ble_eq_true rfl

def sampleInvoicing : List (Action InvoicingCall) :=
  [.begin 1 (.decidePurchaseOrder ⟨"po", "tenant", .approve, "admin", 0⟩), .exec 1, .exec 1, .exec 1, .commit 1,
    .begin 2 (.createInvoice (sampleInvoice "invoice")), .begin 3 (.createInvoice (sampleInvoice "invoice-2")),
    .exec 2, .exec 3, .exec 2, .exec 2, .exec 2, .commit 2, .exec 3, .exec 3, .abort 3,
    .begin 4 (.decideInvoice ⟨"invoice", "tenant", .approve, "admin", 2⟩), .exec 4, .exec 4, .exec 4, .commit 4,
    .begin 5 (.recordPayment (samplePayment "payment")), .begin 6 (.recordPayment (samplePayment "payment-2")),
    .exec 5, .exec 6, .exec 5, .exec 5, .commit 5, .exec 6, .exec 6, .abort 6]

theorem invoice_caps_sample : ∃ s row,
    run (InvoicingCall.prog (fun _ _ => some "active") fun _ _ => none) (Sys.start sampleOrders) sampleInvoicing = some s ∧
      s.db.invoices.committed "invoice" = some row ∧ row.status = .partiallyPaid ∧ row.amountPaidMinorUnits = 2000 ∧
      (row.status = .paid ↔ row.amountPaidMinorUnits = row.amountMinorUnits) := by
  have hrow : ((run (InvoicingCall.prog (fun _ _ => some "active") fun _ _ => none) (Sys.start sampleOrders)
      sampleInvoicing).bind fun s => s.db.invoices.committed "invoice").map
        (fun row => (row.status, row.amountPaidMinorUnits)) = some (.partiallyPaid, 2000) := by
    decide +kernel
  obtain ⟨row, hfound, hvalues⟩ := Option.map_eq_some_iff.mp hrow
  obtain ⟨s, hrun, hcommitted⟩ := Option.bind_eq_some_iff.mp hfound
  obtain ⟨hstatus, hpaid⟩ := Prod.mk.inj hvalues
  have hcaps := (invoice_caps (fun _ _ => some "active") (fun _ _ => none) sampleOrders settledInvoices_sampleOrders
    sampleInvoicing s hrun).2.1 "invoice" row hcommitted
  exact ⟨s, row, hrun, hcommitted, hstatus, hpaid, hcaps.2.2⟩

end Sample

end Anoryx.Delta
