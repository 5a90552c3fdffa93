import Anoryx.Delta.Spend

/-!
# Anoryx.Delta.Reversal

The balance readers (`persistence/balances.py`), and what `reverse_transaction` does to
everything that is read of the ledger.

A reversal that was applied is the mirror image of its transaction: the same entries with
the other direction, under a new id and a new moment (`ReversalOf`).  This holds of the
committed tables from the commit of the reversal on, whatever the other writers do, so
every sum that takes both or neither of an entry and its mirror image is the sum of the
ledger without the two transactions (`reversal_law`).
-/

namespace Anoryx.Delta

open ReadCommitted Table

/-! ## balances -/

/-- Raw debit and credit totals over a set of entries. -/
structure Movement where
  debitMinorUnits : Nat
  creditMinorUnits : Nat
deriving DecidableEq

def Movement.netDebitMinusCredit (m : Movement) : Int := m.debitMinorUnits - m.creditMinorUnits

/-- The WHERE clause of `_movement`; `as_of` is inclusive, the window half-open. -/
def inMovement (accountId : String) (asOf start stop : Option DateTime) (e : EntryRow) : Bool :=
  e.accountId = accountId && asOf.all (e.timestamp ≤ ·) && start.all (· ≤ e.timestamp) &&
    stop.all (e.timestamp < ·)

def movement (v : LedgerView) (accountId : String) (asOf start stop : Option DateTime) : Movement :=
  let rows := v.entries.filter (inMovement accountId asOf start stop)
  ⟨rowTotal .debit rows, rowTotal .credit rows⟩

def accountMovement (v : LedgerView) (accountId : String) (asOf : Option DateTime) : Movement :=
  movement v accountId asOf none none

def windowedMovement (v : LedgerView) (accountId : String) (start stop : DateTime) : Movement :=
  movement v accountId none (some start) (some stop)

def debitNormal : AccountType → Bool
  | .asset => true
  | .expense => true
  | .liability => false
  | .equity => false
  | .revenue => false

/-- `account_balance`; an unknown account is a `LookupError`. -/
def accountBalance (v : LedgerView) (accountId : String) (asOf : Option DateTime) : Except String Int :=
  match v.account accountId with
  | none => .error s!"account {accountId} not found in this tenant's ledger"
  | some account =>
      let m := accountMovement v accountId asOf
      if debitNormal account.type then .ok (m.debitMinorUnits - m.creditMinorUnits)
      else .ok (m.creditMinorUnits - m.debitMinorUnits)

/-- The view of a ledger in which some transactions never were. -/
def LedgerView.without (v : LedgerView) (txnIds : List String) : LedgerView :=
  { v with entries := v.entries.filter fun e => e.txnId ∉ txnIds }

/-! ## the mirror image -/

/-- The row of the compensating entry. -/
def EntryRow.reversed (newTxnId : String) (timestamp : DateTime) (e : EntryRow) : EntryRow :=
  { e with txnId := newTxnId, direction := e.direction.opposite, timestamp }

section Reversed

variable (newTxnId : String) (timestamp : DateTime) (e : EntryRow)

@[simp] theorem decide_tenantId_reversed (tenantId : String) :
    decide ((e.reversed newTxnId timestamp).tenantId = tenantId) = decide (e.tenantId = tenantId) :=
  decide_eq_decide.mpr Iff.rfl

@[simp] theorem decide_accountId_reversed (accountId : String) :
    decide ((e.reversed newTxnId timestamp).accountId = accountId) = decide (e.accountId = accountId) :=
  decide_eq_decide.mpr Iff.rfl

@[simp] theorem inScope_reversed (scope : BudgetScope) (teamId projectId agentId : String) :
    inScope scope teamId projectId agentId (e.reversed newTxnId timestamp) =
      inScope scope teamId projectId agentId e := by
  cases scope <;> rfl

@[simp] theorem onExpenseAccount_reversed (v : LedgerView) (currency : String) :
    onExpenseAccount v currency (e.reversed newTxnId timestamp) = onExpenseAccount v currency e := rfl

end Reversed

theorem signedAmount_reversed (newTxnId : String) (timestamp : DateTime) (e : EntryRow) :
    signedAmount (e.reversed newTxnId timestamp) = -signedAmount e := by
  cases h : e.direction <;> simp [signedAmount, EntryRow.reversed, EntryDirection.opposite, h]

variable {timestamp : DateTime} {uuid4 : Nat → String}
  {newTxnId accountId tenant txnId tenantId description original new : String} {entries : List LedgerEntry}
  {asOf start stop : Option DateTime} {e : EntryRow}

theorem compensatingEntries_toRow {rows : List EntryRow} {i : Nat}
    (h : compensatingEntries timestamp uuid4 i rows = .ok entries) :
    entries.map (fun e => e.toRow newTxnId) = rows.map (EntryRow.reversed newTxnId timestamp) := by
  induction rows generalizing i entries with
  | nil =>
      obtain rfl := Except.ok.inj h
      rfl
  | cons r rows ih =>
      unfold compensatingEntries at h
      split at h
      case isFalse => contradiction
      split at h
      case h_2 => contradiction
      next es hes =>
      obtain rfl := Except.ok.inj h
      rw [List.map_cons, List.map_cons, ih hes]
      rfl

/-- `new` is the mirror image of `original`, both of them committed. -/
structure ReversalOf (original new : String) (timestamp : DateTime) (d : LedgerDb) : Prop where
  original_row : ∃ r, d.transactions.committed original = some r
  reversal_row : ∃ r, d.transactions.committed new = some r ∧ r.reversalOf = some original
  distinct : new ≠ original
  /-- … and what the original reverses itself is a third one -/
  third : ∀ r first, d.transactions.committed original = some r → r.reversalOf = some first → new ≠ first
  mirrored : (d.postedEntries new).Perm ((d.postedEntries original).map (EntryRow.reversed new timestamp))

/-! ## sums without the two -/

section Sums

theorem sum_map_filter {α : Type} (p : α → Bool) (f : α → Int) (l : List α) :
    ((l.filter p).map f).sum = (l.map fun a => if p a then f a else 0).sum := by
  induction l with
  | nil => rfl
  | cons a l ih => cases h : p a <;> simp [h, ih]

theorem rowTotal_sub (rows : List EntryRow) :
    (rowTotal .debit rows : Int) - rowTotal .credit rows = (rows.map signedAmount).sum := by
  induction rows with
  | nil => rfl
  | cons e rows ih =>
      rw [List.map_cons, List.sum_cons, ← ih]
      cases h : e.direction <;> simp [rowTotal, signedAmount, h] <;> omega

variable {d : LedgerDb} {original new : String} {timestamp : DateTime}

theorem sum_without (h : ReversalOf original new timestamp d) {f : EntryRow → Int}
    (hf : ∀ e ∈ d.postedEntries original, f (e.reversed new timestamp) = -f e) :
    ((d.entries.rows.map Prod.snd).map f).sum =
      (((d.entries.rows.map Prod.snd).filter fun e => e.txnId ∉ [original, new]).map f).sum := by
  generalize hl : d.entries.rows.map Prod.snd = l
  have horiginal : l.filter (fun e => e.txnId = original) = d.postedEntries original := by
    rw [LedgerDb.postedEntries_eq, hl]
  have hnew : (l.filter fun e => !decide (e.txnId = original)).filter (fun e => e.txnId = new) =
      d.postedEntries new := by
    rw [LedgerDb.postedEntries_eq, hl, List.filter_filter]
    refine List.filter_congr fun e _ => ?_
    have hdistinct := h.distinct
    grind
  have hrest : (l.filter fun e => !decide (e.txnId = original)).filter (fun e => !decide (e.txnId = new)) =
      l.filter fun e => e.txnId ∉ [original, new] := by
    rw [List.filter_filter]
    refine List.filter_congr fun e _ => ?_
    simp [Bool.and_comm]
  have hmirror : ((d.postedEntries new).map f).sum = -((d.postedEntries original).map f).sum := by
    have hneg : (d.postedEntries original).map (f ∘ EntryRow.reversed new timestamp) =
        (d.postedEntries original).map fun e => -f e := List.map_congr_left hf
    rw [(h.mirrored.map f).sum_eq, List.map_map, hneg]
    generalize d.postedEntries original = rows
    induction rows with
    | nil => rfl
    | cons e rows ih => simp only [List.map_cons, List.sum_cons, ih, neg_add]
  rw [sum_map_filter_split (fun e => decide (e.txnId = original)) f l,
    sum_map_filter_split (fun e => decide (e.txnId = new)) f (l.filter fun e => !decide (e.txnId = original)),
    horiginal, hnew, hrest, hmirror]
  omega

/-- A transaction and its reversal cancel in every sum. -/
theorem view_sum_without (h : ReversalOf original new timestamp d) (tenant : String) {p : EntryRow → Bool}
    (hp : ∀ e ∈ d.postedEntries original, p (e.reversed new timestamp) = p e) :
    (((d.view tenant).entries.filter p).map signedAmount).sum =
      ((((d.view tenant).without [original, new]).entries.filter p).map signedAmount).sum := by
  have hsum := sum_without h (f := fun e => if p e && decide (e.tenantId = tenant) then signedAmount e else 0)
    fun e he => by
      rw [hp e he, signedAmount_reversed]
      show (if _ && decide (e.tenantId = tenant) then _ else _) = _
      split <;> rfl
  rw [← sum_map_filter, ← sum_map_filter] at hsum
  have hswap : ∀ l : List EntryRow, (l.filter fun e => decide (e.tenantId = tenant)).filter p =
      l.filter fun e => p e && decide (e.tenantId = tenant) := fun l => by rw [List.filter_filter]
  have hcomm : ((d.view tenant).without [original, new]).entries =
      ((d.entries.rows.map Prod.snd).filter fun e => e.txnId ∉ [original, new]).filter
        fun e => decide (e.tenantId = tenant) := by
    rw [LedgerView.without, LedgerDb.view, List.filter_filter, List.filter_filter]
    exact List.filter_congr fun e _ => Bool.and_comm ..
  rw [hcomm, hswap, ← hsum, ← hswap]
  rfl

end Sums

/-! ## the readers -/

/-- Every reader of the ledger gets what it would get if the two transactions had never been,
provided that it takes both of them in. -/
structure Cancels (d : LedgerDb) (tenant original new : String) : Prop where
  /-- the balance of an account, over its full history -/
  balance : ∀ accountId, accountBalance (d.view tenant) accountId none =
    accountBalance ((d.view tenant).without [original, new]) accountId none
  /-- the balance as of a moment not before any entry of the two -/
  balance_as_of : ∀ accountId asOf,
    (∀ e ∈ d.postedEntries original ++ d.postedEntries new, e.timestamp ≤ asOf) →
    accountBalance (d.view tenant) accountId (some asOf) =
      accountBalance ((d.view tenant).without [original, new]) accountId (some asOf)
  /-- the net movement of an account over a window with all entries of the two -/
  windowed : ∀ accountId start stop,
    (∀ e ∈ d.postedEntries original ++ d.postedEntries new, inWindow start stop e = true) →
    (windowedMovement (d.view tenant) accountId start stop).netDebitMinusCredit =
      (windowedMovement ((d.view tenant).without [original, new]) accountId start stop).netDebitMinusCredit
  /-- the spend of a scope over such a window -/
  spend : ∀ scope teamId projectId agentId currency start stop,
    (∀ e ∈ d.postedEntries original ++ d.postedEntries new, inWindow start stop e = true) →
    scopeSpendCents (d.view tenant) scope tenant teamId projectId agentId currency start stop =
      scopeSpendCents ((d.view tenant).without [original, new]) scope tenant teamId projectId agentId
        currency start stop

theorem movement_net (v : LedgerView) (accountId : String) (asOf start stop : Option DateTime) :
    (movement v accountId asOf start stop).netDebitMinusCredit =
      ((v.entries.filter (inMovement accountId asOf start stop)).map signedAmount).sum :=
  rowTotal_sub _

theorem accountBalance_congr {v w : LedgerView} (haccount : v.account = w.account)
    (hnet : (movement v accountId asOf none none).netDebitMinusCredit =
      (movement w accountId asOf none none).netDebitMinusCredit) :
    accountBalance v accountId asOf = accountBalance w accountId asOf := by
  unfold accountBalance accountMovement
  unfold Movement.netDebitMinusCredit at hnet
  rw [haccount]
  split
  · rfl
  · split
    · exact congrArg Except.ok hnet
    · refine congrArg Except.ok ?_
      show (_ : Int) = _
      omega

section Readers

variable {d : LedgerDb} {original new : String} {timestamp : DateTime}

theorem ReversalOf.of_both (h : ReversalOf original new timestamp d) {P : EntryRow → Prop}
    (hP : ∀ e ∈ d.postedEntries original ++ d.postedEntries new, P e) (he : e ∈ d.postedEntries original) :
    P e ∧ P (e.reversed new timestamp) := by
  refine ⟨hP e (List.mem_append_left _ he), hP _ (List.mem_append_right _ ?_)⟩
  exact h.mirrored.mem_iff.mpr (List.mem_map_of_mem he)

theorem ReversalOf.movement_eq (h : ReversalOf original new timestamp d) (tenant accountId : String)
    (hp : ∀ e ∈ d.postedEntries original, inMovement accountId asOf start stop (e.reversed new timestamp) =
      inMovement accountId asOf start stop e) :
    (movement (d.view tenant) accountId asOf start stop).netDebitMinusCredit =
      (movement ((d.view tenant).without [original, new]) accountId asOf start stop).netDebitMinusCredit := by
  rw [movement_net, movement_net, view_sum_without h tenant hp]

theorem ReversalOf.scopeSpend_eq (h : ReversalOf original new timestamp d) (tenant : String)
    (scope : BudgetScope) (teamId projectId agentId currency : String) {start stop : DateTime}
    (hwindow : ∀ e ∈ d.postedEntries original ++ d.postedEntries new, inWindow start stop e = true) :
    scopeSpendCents (d.view tenant) scope tenant teamId projectId agentId currency start stop =
      scopeSpendCents ((d.view tenant).without [original, new]) scope tenant teamId projectId agentId
        currency start stop := by
  refine view_sum_without h tenant fun e he => ?_
  obtain ⟨hold, hnew⟩ := h.of_both hwindow he
  simp [inScopeSpend, hold, hnew]

theorem inMovement_full (accountId : String) (e : EntryRow) :
    inMovement accountId none none none e = decide (e.accountId = accountId) := by
  unfold inMovement
  rw [Option.all_none, Option.all_none, Option.all_none, Bool.and_true, Bool.and_true, Bool.and_true]

theorem inMovement_asOf (accountId : String) (asOf : DateTime) (e : EntryRow) :
    inMovement accountId (some asOf) none none e =
      (decide (e.accountId = accountId) && decide (e.timestamp ≤ asOf)) := by
  unfold inMovement
  rw [Option.all_some, Option.all_none, Option.all_none, Bool.and_true, Bool.and_true]

theorem inMovement_window (accountId : String) (start stop : DateTime) (e : EntryRow) :
    inMovement accountId none (some start) (some stop) e =
      (decide (e.accountId = accountId) && inWindow start stop e) := by
  unfold inMovement inWindow
  rw [Option.all_none, Option.all_some, Option.all_some, Bool.and_true, Bool.and_assoc]

/-- **Nothing is left of the two**, for whoever reads both. -/
theorem ReversalOf.cancels (h : ReversalOf original new timestamp d) (tenant : String) :
    Cancels d tenant original new where
  balance accountId := accountBalance_congr rfl (h.movement_eq tenant accountId fun e _ => by
    rw [inMovement_full, inMovement_full, decide_accountId_reversed])
  balance_as_of accountId asOf hasOf := accountBalance_congr rfl (h.movement_eq tenant accountId fun e he => by
    obtain ⟨hold, hnew⟩ := h.of_both hasOf he
    rw [inMovement_asOf, inMovement_asOf, decide_accountId_reversed, decide_eq_true hold, decide_eq_true hnew])
  windowed accountId start stop hwindow := h.movement_eq tenant accountId fun e he => by
    obtain ⟨hold, hnew⟩ := h.of_both hwindow he
    rw [inMovement_window, inMovement_window, decide_accountId_reversed, hold, hnew]
  spend scope teamId projectId agentId currency start stop hwindow :=
    h.scopeSpend_eq tenant scope teamId projectId agentId currency hwindow

end Readers

/-! ## the trial balance -/

theorem sum_by_key {α κ : Type} [DecidableEq κ] (g : α → κ) (f : α → Int) (l : List α) {ks : Finset κ}
    (hl : ∀ a ∈ l, g a ∈ ks) : ∑ k ∈ ks, ((l.filter fun a => g a = k).map f).sum = (l.map f).sum := by
  induction l with
  | nil => simp
  | cons a l ih =>
      rw [List.forall_mem_cons] at hl
      have hsplit (k : κ) : (((a :: l).filter fun a => g a = k).map f).sum =
          (if g a = k then f a else 0) + ((l.filter fun a => g a = k).map f).sum := by
        by_cases hk : g a = k <;> simp [hk]
      simp [hsplit, Finset.sum_add_distrib, hl.1, ih hl.2]

/-- The net movements of all accounts that have entries. -/
def trialBalance (v : LedgerView) : Int :=
  ∑ accountId ∈ (v.entries.map EntryRow.accountId).toFinset, (accountMovement v accountId none).netDebitMinusCredit

/-- **The trial balance** of a tenant is zero, whatever was posted and reversed. -/
theorem trial_balance (uuid5 : String → String → String) (as : List (Action LedgerCall)) (s : LedgerSys)
    (h : run (ledgerProg uuid5) LedgerSys.init as = some s) (tenant : String) : trialBalance (s.db.view tenant) = 0 := by
  have hmem (g : EntryRow → String) : ∀ e ∈ (s.db.view tenant).entries, g e ∈ ((s.db.view tenant).entries.map g).toFinset :=
    fun e he => List.mem_toFinset.mpr (List.mem_map_of_mem he)
  have hrows (accountId : String) : inMovement accountId none none none = fun e => decide (e.accountId = accountId) := by
    funext e
    simp [inMovement]
  simp only [trialBalance, accountMovement, movement_net, hrows]
  rw [sum_by_key _ _ _ (hmem _), ← sum_by_key EntryRow.currency _ _ (hmem _)]
  refine Finset.sum_eq_zero fun currency _ => ?_
  have hbalanced := tenantEntries_balanced (ledger_ok uuid5 h).inv tenant currency
  have hentries : (s.db.view tenant).entries.filter (fun e => e.currency = currency) = s.db.tenantEntries tenant currency := by
    simp [LedgerDb.view, LedgerDb.tenantEntries, List.filter_filter, Bool.and_comm]
  rw [hentries, ← rowTotal_sub, hbalanced, sub_self]

theorem trial_balance_sample : ∃ s, run (ledgerProg sampleUuid5) LedgerSys.init sampleSchedule = some s ∧
    trialBalance (s.db.view sampleTenant) = 0 := by
  have hrun : (run (ledgerProg sampleUuid5) LedgerSys.init sampleSchedule).isSome := by decide +kernel
  obtain ⟨s, hs⟩ := Option.isSome_iff_exists.mp hrun
  exact ⟨s, hs, trial_balance sampleUuid5 sampleSchedule s hs sampleTenant⟩

/-! ## every schedule -/

/-- A writer is about to commit the mirror image of `original`. -/
structure Reversing (t : Txn) (original new : String) (timestamp : DateTime) (d : LedgerDb) : Prop where
  original_row : ∃ r, d.transactions.committed original = some r
  reversal_row : ∃ r, d.transactions.inflight new = some (t, r) ∧ r.reversalOf = some original
  mirrored : (d.heldEntries t new).Perm ((d.postedEntries original).map (EntryRow.reversed new timestamp))

def LedgerCall.Reverses (call : LedgerCall) (original new : String) (timestamp : DateTime) : Prop :=
  ∃ tenant description key uuid4,
    call = .reverseTransaction tenant original new timestamp description key uuid4

/-- The ledger writers, and what a reversal leaves behind. -/
def reversalLogic : Logic LedgerDb LedgerCall AppendResult where
  inv := LedgerInv
  rely := LedgerRely
  fresh := LedgerFresh
  post t call b d := Complete t d ∧ ∀ original new timestamp, call.Reverses original new timestamp →
    b.applied = true → Reversing t original new timestamp d
  ensures _ call b d := ∀ original new timestamp, call.Reverses original new timestamp →
    b.applied = true → ReversalOf original new timestamp d
  undone _ _ := True

section Schedule

variable {d d' : LedgerDb} {t u : Txn} {original new : String} {timestamp : DateTime}

theorem postedEntries_rely (hr : LedgerRely u d d') {r : TransactionRow}
    (hcommitted : d.transactions.committed original = some r) :
    (d'.postedEntries original).Perm (d.postedEntries original) := by
  have hperm := rowsOf_perm (p := fun e => e.txnId = original) d'.entries.reads_committed
    d.entries.reads_committed fun k e hsel =>
      ⟨fun he => hr.frozen original r k e hcommitted he (of_decide_eq_true hsel), hr.entries_grows k e⟩
  exact hperm.map Prod.snd

theorem ReversalOf.rely (hr : LedgerRely u d d') (h : ReversalOf original new timestamp d) :
    ReversalOf original new timestamp d' := by
  obtain ⟨r, hr₁⟩ := h.original_row
  obtain ⟨r', hr₂, hrev⟩ := h.reversal_row
  refine ⟨⟨r, hr.transactions_grows _ _ hr₁⟩, ⟨r', hr.transactions_grows _ _ hr₂, hrev⟩, h.distinct,
    fun r'' first hr'' hfirst => ?_, ?_⟩
  · obtain rfl : r = r'' := Option.some.inj ((hr.transactions_grows _ _ hr₁).symm.trans hr'')
    exact h.third r first hr₁ hfirst
  · calc d'.postedEntries new
        |>.Perm (d.postedEntries new) := postedEntries_rely hr hr₂
      _ |>.Perm ((d.postedEntries original).map (EntryRow.reversed new timestamp)) := h.mirrored
      _ |>.Perm ((d'.postedEntries original).map (EntryRow.reversed new timestamp)) :=
        ((postedEntries_rely hr hr₁).map _).symm

theorem Reversing.commit (hi : LedgerInv d) (h : Reversing t original new timestamp d) :
    ReversalOf original new timestamp (Database.commit t d) := by
  obtain ⟨r, hr⟩ := h.original_row
  obtain ⟨r', hr', hrev⟩ := h.reversal_row
  have hnone : d.transactions.committed new = none := hi.transactions new t r' hr'
  have hversion : d.transactions.version t original = none := by
    cases hv : d.transactions.version t original with
    | none => rfl
    | some w =>
        rw [hi.transactions original t w (version_eq_some.mp hv)] at hr
        contradiction
  have hvisible : d.transactions.visible t original = d.transactions.committed original :=
    visible_of_no_inflight fun v hv => by
      rw [version_eq_some.mpr hv] at hversion
      contradiction
  refine ⟨⟨r, hvisible.trans hr⟩, ⟨r', visible_of_inflight hr', hrev⟩, ?_,
    fun r'' first hr'' hfirst => ?_, ?_⟩
  · rintro rfl
    rw [hnone] at hr
    contradiction
  · rintro rfl
    obtain ⟨w, hw⟩ := hi.reversal_committed original r'' new (hvisible.symm.trans hr'') hfirst
    rw [hnone] at hw
    contradiction
  · rw [postedEntries_commit hi, postedEntries_commit hi, hversion,
      if_pos (Option.isSome_iff_exists.mpr ⟨r', version_eq_some.mpr hr'⟩), Option.isSome_none,
      if_neg Bool.false_ne_true]
    exact h.mirrored

theorem entriesOf_eq_postedEntries (hi : LedgerInv d) (hfresh : LedgerFresh t d)
    (he : e ∈ d.entriesOf t tenant original) :
    d.entriesOf t tenant original = d.postedEntries original ∧
      ∃ r, d.transactions.committed original = some r := by
  have hvisible : d.entries.visible t = d.entries.committed :=
    funext fun k => visible_of_no_inflight (hfresh.entries k)
  obtain ⟨⟨k, e'⟩, hmem, rfl⟩ := List.mem_map.mp he
  obtain ⟨hscan, hsel⟩ := List.mem_filter.mp hmem
  obtain ⟨hten, hid⟩ := of_decide_eq_true hsel
  have hcommitted : d.entries.committed k = some e' := hvisible ▸ mem_scan.mp hscan
  obtain ⟨r, hr, hrten⟩ := hi.entry_committed k e' hcommitted
  rw [show e'.txnId = original from hid] at hr
  refine ⟨?_, r, hr⟩
  unfold LedgerDb.entriesOf LedgerDb.postedEntries scan rows
  rw [hvisible]
  congr 1
  refine List.filter_congr fun p hp => ?_
  -- the entries of one transaction are of one tenant
  by_cases hp' : p.2.txnId = original
  · obtain ⟨r', hr', hrten'⟩ := hi.entry_committed p.1 p.2 (mem_rows.mp hp)
    obtain rfl : r = r' := Option.some.inj (hr.symm.trans (hp' ▸ hr'))
    have hsame : p.2.tenantId = tenant := hrten'.symm.trans (hrten.trans hten)
    simp [hp', hsame]
  · simp [hp']

theorem validate_ok {txn : Transaction}
    (h : Transaction.validate txnId tenantId entries timestamp description = .ok txn) :
    txn.txnId = txnId ∧ txn.entries = entries := by
  unfold Transaction.validate at h
  split at h
  case isFalse => contradiction
  split at h
  case isFalse => contradiction
  split at h
  case isFalse => contradiction
  split at h
  case isFalse => contradiction
  obtain rfl := Except.ok.inj h
  exact ⟨rfl, rfl⟩

variable (uuid5 : String → String → String)

/-- What a reversal has appended when it is done. -/
theorem wp_reversing {key : Option String} (h : LedgerFresh t d) :
    (ledgerLogic uuid5).wp t
      (fun b d => Complete t d ∧ (b.applied = true → Reversing t original new timestamp d))
      (reverseTransaction tenant original new timestamp description key uuid4) d := by
  refine Logic.wp_query_bind LedgerRely.refl fun d₁ hi₁ hr => ?_
  have h₁ := h.rely hr
  split
  · exact Logic.wp_raise _
  next r rs hrows =>
  split
  · exact Logic.wp_raise _
  next entries hentries =>
  split
  · exact Logic.wp_raise _
  next compensating hvalid =>
  obtain ⟨hid, hcompensating⟩ := validate_ok hvalid
  obtain ⟨hposted, row, hcommitted⟩ := entriesOf_eq_postedEntries hi₁ h₁ (e := r)
    (by rw [hrows]; exact List.mem_cons_self)
  -- what was read stays what it is, up to the commit
  let unchanged : LedgerDb → Prop := fun d' => (∃ row, d'.transactions.committed original = some row) ∧
    (d'.postedEntries original).Perm (d₁.postedEntries original)
  have hstable : ∀ u d₂ d₃, (ledgerLogic uuid5).inv d₃ → (ledgerLogic uuid5).rely u d₂ d₃ → unchanged d₂ →
      unchanged d₃ := by
    rintro u d₂ d₃ - hr₂ ⟨⟨row₂, hrow₂⟩, hperm⟩
    exact ⟨⟨row₂, hr₂.transactions_grows _ _ hrow₂⟩, (postedEntries_rely hr₂ hrow₂).trans hperm⟩
  refine Logic.wp_mono ?_ (Logic.wp_and_stable hstable ⟨⟨row, hcommitted⟩, .refl _⟩
    (wp_appendTransaction uuid5 [] h₁.transactions (by simp [AccountsVisible])))
  rintro b d₂ - ⟨⟨hcomplete, -, -, happlied⟩, horiginal, hperm⟩
  refine ⟨hcomplete, fun hb => ?_⟩
  obtain ⟨row₂, hrev, hrow₂, hheld⟩ := happlied hb
  rw [hid] at hrow₂ hheld
  refine ⟨horiginal, ⟨row₂, hrow₂, hrev⟩, hheld.trans ?_⟩
  rw [hcompensating, compensatingEntries_toRow hentries, hposted]
  exact (hperm.map _).symm

theorem reversal_sound : reversalLogic.Sound (ledgerProg uuid5) where
  refl := LedgerRely.refl
  trans := LedgerRely.trans
  fresh_rely _ hr h := h.rely hr
  ensures_rely _ hr h original new timestamp hcall hb := (h original new timestamp hcall hb).rely hr
  undone_rely _ _ _ := trivial
  body := by
    intro t call d _ hi hfresh
    refine Logic.wp_of_specialize (L := ledgerLogic uuid5) rfl rfl rfl ?_
    by_cases hcall : ∃ original new timestamp, call.Reverses original new timestamp
    · obtain ⟨original, new, timestamp, tenant, description, key, uuid4, rfl⟩ := hcall
      have hreverse : (ledgerLogic uuid5).wp t
          (fun b d => Complete t d ∧ (b.applied = true → Reversing t original new timestamp d))
          (reverseTransaction tenant original new timestamp description key uuid4) d := wp_reversing uuid5 hfresh
      refine Logic.wp_mono ?_ hreverse
      rintro b d' - ⟨hcomplete, hreversing⟩
      refine ⟨hcomplete, ?_⟩
      rintro original' new' timestamp' ⟨tenant', description', key', uuid4', hcall⟩ hb
      obtain ⟨-, rfl, rfl, rfl, -, -, -⟩ := LedgerCall.reverseTransaction.inj hcall
      exact hreversing hb
    · refine Logic.wp_mono ?_ ((ledger_sound uuid5).body trivial hi hfresh)
      rintro b d' - ⟨hcomplete, -⟩
      exact ⟨hcomplete, fun original new timestamp h _ => absurd ⟨original, new, timestamp, h⟩ hcall⟩
  commit := by
    intro t call b d hi ⟨hc, hp⟩
    exact ⟨⟨hi.commit hc, fun u hne => LedgerRely.commit hi hne⟩, fun original new timestamp hcall hb =>
      (hp original new timestamp hcall hb).commit hi⟩
  rollback := fun hi => ⟨⟨hi.rollback, fun u hne => LedgerRely.rollback hne⟩, trivial⟩

theorem reversal_ok_init : reversalLogic.Ok LedgerSys.init :=
  ⟨(ledger_ok_init fun _ name => name).inv, (ledger_ok_init fun _ name => name).procs⟩

theorem reversalOf_of_run {as : List (Action LedgerCall)} {s : LedgerSys}
    (hrun : run (ledgerProg uuid5) LedgerSys.init as = some s) {call : LedgerCall} {b : AppendResult}
    (hcall : call.Reverses original new timestamp) (hdone : s.procs t = .committed call b)
    (happlied : b.applied = true) : ReversalOf original new timestamp s.db := by
  have hok := (reversal_sound uuid5).run reversal_ok_init
    (Logic.everyStep_permits (fun _ => trivial) (fun _ _ _ => trivial) as) hrun
  have hproc := hok.procs t
  rw [hdone] at hproc
  exact hproc original new timestamp hcall happlied

end Schedule

/-- **The reversal law.**  Once a reversal of `original` has been applied, in every ledger from
then on: every reader gets what it would get without the two transactions; the entries of
`original` are those it had before; and when the reversal is reversed in turn, every reader
gets what it would get without these two, with `original` still there. -/
theorem reversal_law (uuid5 : String → String → String) {as₀ as : List (Action LedgerCall)}
    {s₀ s : LedgerSys} (h₀ : run (ledgerProg uuid5) LedgerSys.init as₀ = some s₀)
    (hrun : run (ledgerProg uuid5) s₀ as = some s) {t : Txn} {call : LedgerCall} {b : AppendResult}
    {original new : String} {timestamp : DateTime} (hcall : call.Reverses original new timestamp)
    (hdone : s.procs t = .committed call b) (happlied : b.applied = true) :
    (∀ tenant, Cancels s.db tenant original new) ∧
      (∀ r, s₀.db.transactions.committed original = some r → ∀ k e, e.txnId = original →
        (s.db.entries.committed k = some e ↔ s₀.db.entries.committed k = some e)) ∧
      ∀ t' call' b' new' timestamp', LedgerCall.Reverses call' new new' timestamp' →
        s.procs t' = .committed call' b' → b'.applied = true →
        ∀ tenant, Cancels s.db tenant new new' ∧ ∀ e, e.txnId = original →
          (e ∈ ((s.db.view tenant).without [new, new']).entries ↔ e ∈ (s.db.view tenant).entries) := by
  have hreached := run_append h₀ hrun
  have hreversal := reversalOf_of_run uuid5 hreached hcall hdone happlied
  refine ⟨fun tenant => hreversal.cancels tenant, fun r hr k e hid => ?_,
    fun t' call' b' new' timestamp' hcall' hdone' happlied' tenant => ?_⟩
  · exact ((ledger_integrity uuid5 as₀ s₀ h₀).entries_frozen as s hrun original r hr).2 k e hid
  · have hsecond := reversalOf_of_run uuid5 hreached hcall' hdone' happlied'
    refine ⟨hsecond.cancels tenant, fun e hid => ?_⟩
    obtain ⟨row, hrow, hrev⟩ := hreversal.reversal_row
    have hnew : original ≠ new := hreversal.distinct.symm
    have hnew' : original ≠ new' := (hsecond.third row original hrow hrev).symm
    rw [LedgerView.without, List.mem_filter]
    simp [hid, hnew, hnew']

section Sample

/-- Whether a call has committed that reversal. -/
def reversed (original new : String) (timestamp : DateTime) :
    Proc LedgerDb LedgerError LedgerCall AppendResult → Bool
  | .committed (.reverseTransaction _ original' new' timestamp' _ _ _) b =>
      original' = original ∧ new' = new ∧ timestamp' = timestamp ∧ b.applied = true
  | _ => false

theorem reversed_iff {c : Proc LedgerDb LedgerError LedgerCall AppendResult}
    (h : reversed original new timestamp c = true) :
    ∃ call b, c = .committed call b ∧ call.Reverses original new timestamp ∧ b.applied = true := by
  unfold reversed at h
  split at h
  · obtain ⟨rfl, rfl, rfl, hb⟩ := of_decide_eq_true h
    exact ⟨_, _, rfl, ⟨_, _, _, _, rfl⟩, hb⟩
  · contradiction

def sampleTxnId : String := "af9b4062-6cd8-5a68-97cf-008c5f33faef"

def sampleReversal : List (Action LedgerCall) × List (Action LedgerCall) :=
  ([.begin 1 (.postUsage sampleUsage), .exec 1, .exec 1, .exec 1, .exec 1, .exec 1, .exec 1, .commit 1],
    [.begin 2 (.reverseTransaction sampleTenant sampleTxnId "reversal" sampleTime "" none
        fun i => if i = 0 then "reversal-0" else "reversal-1"),
      .exec 2, .exec 2, .exec 2, .exec 2, .exec 2, .commit 2])

theorem reversal_law_sample : ∃ s₀ s,
    run (ledgerProg sampleUuid5) LedgerSys.init sampleReversal.1 = some s₀ ∧
      run (ledgerProg sampleUuid5) s₀ sampleReversal.2 = some s ∧
      scopeSpendCents (s₀.db.view sampleTenant) .tenant sampleTenant "" "" "" "USD"
        sampleTime.startOfDay sampleNextDay = 700 ∧
      scopeSpendCents (s.db.view sampleTenant) .tenant sampleTenant "" "" "" "USD"
        sampleTime.startOfDay sampleNextDay = 0 ∧
      Cancels s.db sampleTenant sampleTxnId "reversal" := by
  have hspend : ((run (ledgerProg sampleUuid5) LedgerSys.init sampleReversal.1).bind fun s₀ =>
      (run (ledgerProg sampleUuid5) s₀ sampleReversal.2).map fun s =>
        (scopeSpendCents (s₀.db.view sampleTenant) .tenant sampleTenant "" "" "" "USD"
          sampleTime.startOfDay sampleNextDay,
        scopeSpendCents (s.db.view sampleTenant) .tenant sampleTenant "" "" "" "USD"
          sampleTime.startOfDay sampleNextDay,
        reversed sampleTxnId "reversal" sampleTime (s.procs 2))) = some (700, 0, true) := by
    decide +kernel
  obtain ⟨s₀, h₀, hrest⟩ := Option.bind_eq_some_iff.mp hspend
  obtain ⟨s, hs, hvalues⟩ := Option.map_eq_some_iff.mp hrest
  obtain ⟨hbefore, hvalues⟩ := Prod.mk.inj hvalues
  obtain ⟨hafter, hreversed⟩ := Prod.mk.inj hvalues
  obtain ⟨call, b, hdone, hcall, happlied⟩ := reversed_iff hreversed
  exact ⟨s₀, s, h₀, hs, hbefore, hafter,
    (reversal_law sampleUuid5 h₀ hs hcall hdone happlied).1 sampleTenant⟩

end Sample

end Anoryx.Delta
