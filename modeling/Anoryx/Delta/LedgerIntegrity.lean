import Anoryx.Delta.LedgerInvariant

/-!
# Anoryx.Delta.LedgerIntegrity

The integrity of the ledger in every reachable state, read off the invariant:
each transaction balances, therefore the whole ledger does, one key names one
transaction, and a committed transaction keeps its entries.
-/

namespace Anoryx.Delta

open ReadCommitted

/-! ## sums by fibre -/

theorem sum_map_filter_split {α M : Type} [AddCommMonoid M] (p : α → Bool) (f : α → M) (l : List α) :
    (l.map f).sum = ((l.filter p).map f).sum + ((l.filter fun a => !p a).map f).sum := by
  rw [← List.sum_append, ← List.map_append]
  exact (((List.filter_append_perm p l).map f).sum_eq).symm

theorem sum_map_eq_of_fibers {α κ : Type} [DecidableEq κ] (g : α → κ) (f h : α → Nat) (l : List α)
    (hfib : ∀ c, ((l.filter fun a => g a = c).map f).sum = ((l.filter fun a => g a = c).map h).sum) :
    (l.map f).sum = (l.map h).sum := by
  induction hn : l.length using Nat.strong_induction_on generalizing l with
  | _ n ih =>
      cases l with
      | nil => rfl
      | cons a l =>
          -- take out the fibre of the head; the rest is shorter and has the same fibres
          let rest := (a :: l).filter fun b => !decide (g b = g a)
          have hlen : rest.length < n := by
            rw [← hn]
            have : rest = l.filter fun b => !decide (g b = g a) := by simp [rest]
            rw [this, List.length_cons]
            exact Nat.lt_succ_of_le (List.length_filter_le _ _)
          have hrest : (rest.map f).sum = (rest.map h).sum := by
            refine ih rest.length hlen rest (fun c => ?_) rfl
            by_cases hc : c = g a
            · have hempty : (rest.filter fun b => g b = c) = [] := by
                simp only [rest, List.filter_filter, List.filter_eq_nil_iff]
                intro b _
                simp [hc]
              rw [hempty, List.map_nil, List.map_nil]
            · have hsame : (rest.filter fun b => g b = c) = (a :: l).filter fun b => g b = c := by
                simp only [rest, List.filter_filter]
                refine List.filter_congr fun b _ => ?_
                by_cases hb : g b = c <;> simp [hb, hc]
              rw [hsame]
              exact hfib c
          rw [sum_map_filter_split (fun b => decide (g b = g a)) f (a :: l),
            sum_map_filter_split (fun b => decide (g b = g a)) h (a :: l), hfib (g a)]
          exact congrArg _ hrest

theorem rowTotal_eq_sum (side : EntryDirection) (rows : List EntryRow) :
    rowTotal side rows =
      (rows.map fun e => if e.direction = side then e.amountMinorUnits else 0).sum := by
  induction rows with
  | nil => rfl
  | cons e rows ih =>
      unfold rowTotal at ih ⊢
      by_cases he : e.direction = side <;> simp [he, ih]

/-! ## the ledger as a whole -/

/-- All committed entries of a tenant in a currency. -/
def LedgerDb.tenantEntries (d : LedgerDb) (tenant currency : String) : List EntryRow :=
  (d.entries.rows.map Prod.snd).filter fun e => e.tenantId = tenant ∧ e.currency = currency

theorem LedgerDb.postedEntries_eq (d : LedgerDb) (txnId : String) :
    d.postedEntries txnId = (d.entries.rows.map Prod.snd).filter fun e => e.txnId = txnId := by
  simp only [postedEntries, List.filter_map, Function.comp_def]

theorem tenantEntries_fiber {d : LedgerDb} (hi : LedgerInv d) (tenant currency id : String) :
    (d.tenantEntries tenant currency).filter (fun e => e.txnId = id) = d.postedEntries id ∨
      (d.tenantEntries tenant currency).filter (fun e => e.txnId = id) = [] := by
  unfold LedgerDb.tenantEntries
  rw [LedgerDb.postedEntries_eq, List.filter_filter]
  cases hr : d.transactions.committed id with
  | none =>
      refine .inr (List.filter_eq_nil_iff.mpr fun e he hp => ?_)
      obtain ⟨⟨k, e'⟩, hmem, rfl⟩ := List.mem_map.mp he
      obtain ⟨r, hr', _⟩ := hi.entry_committed k e' (Table.mem_rows.mp hmem)
      simp only [Bool.and_eq_true, decide_eq_true_eq] at hp
      rw [hp.1, hr] at hr'
      contradiction
  | some r =>
      have hbal := hi.balanced id r hr
      rw [LedgerDb.postedEntries_eq] at hbal
      by_cases htc : r.tenantId = tenant ∧ r.currency = currency
      · refine .inl (List.filter_congr fun e he => ?_)
        by_cases hid : e.txnId = id
        · have hmem : e ∈ (d.entries.rows.map Prod.snd).filter fun e => e.txnId = id :=
            List.mem_filter.mpr ⟨he, by simpa using hid⟩
          simp [hid, hbal.tenant e hmem, hbal.currency e hmem, htc.1, htc.2]
        · simp [hid]
      · refine .inr (List.filter_eq_nil_iff.mpr fun e he hp => ?_)
        simp only [Bool.and_eq_true, decide_eq_true_eq] at hp
        have hmem : e ∈ (d.entries.rows.map Prod.snd).filter fun e => e.txnId = id :=
          List.mem_filter.mpr ⟨he, by simpa using hp.1⟩
        exact htc ⟨(hbal.tenant e hmem).symm.trans hp.2.1, (hbal.currency e hmem).symm.trans hp.2.2⟩

/-- What a tenant sees is balanced. -/
theorem tenantEntries_balanced {d : LedgerDb} (hi : LedgerInv d) (tenant currency : String) :
    rowTotal .debit (d.tenantEntries tenant currency) =
      rowTotal .credit (d.tenantEntries tenant currency) := by
  rw [rowTotal_eq_sum, rowTotal_eq_sum]
  refine sum_map_eq_of_fibers EntryRow.txnId _ _ _ fun id => ?_
  rw [← rowTotal_eq_sum, ← rowTotal_eq_sum]
  rcases tenantEntries_fiber hi tenant currency id with hall | hnone
  · rw [hall]
    cases hr : d.transactions.committed id with
    | some r => exact (hi.balanced id r hr).balanced
    | none =>
        have hempty : d.postedEntries id = [] := by
          rw [LedgerDb.postedEntries_eq]
          refine List.filter_eq_nil_iff.mpr fun e he hp => ?_
          obtain ⟨⟨k, e'⟩, hmem, rfl⟩ := List.mem_map.mp he
          obtain ⟨r, hr', _⟩ := hi.entry_committed k e' (Table.mem_rows.mp hmem)
          rw [of_decide_eq_true hp, hr] at hr'
          contradiction
        rw [hempty]
        rfl
  · rw [hnone]
    rfl

/-- The integrity of a ledger, in a state and in every state after it. -/
structure Integrity (uuid5 : String → String → String) (s : LedgerSys) : Prop where
  /-- every ledger transaction has two or more entries, in the transaction's one
  currency and one tenant, and its debits equal its credits -/
  transactions_balanced : ∀ id r, s.db.transactions.committed id = some r →
    BalancedRows r.tenantId r.currency (s.db.postedEntries id)
  /-- every entry belongs to a ledger transaction -/
  entries_posted : ∀ k e, s.db.entries.committed k = some e →
    ∃ r, s.db.transactions.committed e.txnId = some r
  /-- for every tenant and currency, the debits of the ledger equal its credits -/
  ledger_balanced : ∀ tenant currency, rowTotal .debit (s.db.tenantEntries tenant currency) =
    rowTotal .credit (s.db.tenantEntries tenant currency)
  /-- one transaction for one idempotency key of a tenant -/
  key_unique : ∀ id id' r r' key, s.db.transactions.committed id = some r →
    s.db.transactions.committed id' = some r' → r.tenantId = r'.tenantId →
    r.idempotencyKey = some key → r'.idempotencyKey = some key → id = id'
  /-- no usage event is keyed like a revenue event -/
  keys_disjoint : ∀ (u : UsageRecord) (r : RevenueRecord), u.eventId ≠ revenueIdempotencyKey r
  /-- whatever runs next, a committed transaction keeps its row and its entries -/
  entries_frozen : ∀ as s', run (ledgerProg uuid5) s as = some s' →
    ∀ id r, s.db.transactions.committed id = some r →
      s'.db.transactions.committed id = some r ∧
        ∀ k e, e.txnId = id →
          (s'.db.entries.committed k = some e ↔ s.db.entries.committed k = some e)

/-- **Ledger integrity**: every schedule of postings, appends and reversals, with
replays, failures and rollbacks anywhere, keeps the ledger's books. -/
theorem ledger_integrity (uuid5 : String → String → String) (as : List (Action LedgerCall))
    (s : LedgerSys) (h : run (ledgerProg uuid5) LedgerSys.init as = some s) : Integrity uuid5 s := by
  have hok := ledger_ok uuid5 h
  have hi : LedgerInv s.db := hok.inv
  refine
    { transactions_balanced := hi.balanced
      entries_posted := fun k e he => (hi.entry_committed k e he).imp fun _ hr => hr.1
      ledger_balanced := tenantEntries_balanced hi
      key_unique := ?_
      keys_disjoint := eventId_ne_revenueIdempotencyKey
      entries_frozen := ?_ }
  · intro id id' r r' key hr hr' hten hkey hkey'
    have h₁ := hi.key_committed id r key hr hkey
    have h₂ := hi.key_committed id' r' key hr' hkey'
    rw [hten, h₂] at h₁
    exact (Option.some.inj h₁).symm
  · intro as' s' hrun id r hr
    obtain ⟨u, hu⟩ := Logic.exists_bystander as'
    have hrely : LedgerRely u s.db s'.db := (ledger_sound uuid5).run_rely hok
      (Logic.everyStep_permits (fun _ => trivial) (fun _ _ _ => trivial) as') hu hrun
    refine ⟨hrely.transactions_grows id r hr, fun k e hid => ⟨fun he => ?_, fun he => ?_⟩⟩
    · exact hrely.frozen id r k e hr he hid
    · exact hrely.entries_grows k e he

/-! ## a ledger to look at -/

section Sample

def sampleTime : DateTime := .ofFields 2026 7 1 9 30 0 0 (Eq.refl true)

def sampleNextDay : DateTime := .ofFields 2026 7 2 0 0 0 0 (Eq.refl true)

def sampleTenant : String := "11111111-1111-4111-8111-111111111111"

/-- The `uuid5` values of the sample events. -/
def sampleUuid5 (ns name : String) : String :=
  match [(deltaAccountNamespace, sampleTenant ++ ":USD:expense", "1c296fe9-a534-55f6-927c-4f2214ef3bec"),
      (deltaAccountNamespace, sampleTenant ++ ":USD:spend_clearing", "cf10751c-1123-541f-93df-8d0fede321ee"),
      (deltaAccountNamespace, sampleTenant ++ ":USD:subscription_receivable", "8e9d6add-4daf-5bec-900a-87b6398cfadd"),
      (deltaAccountNamespace, sampleTenant ++ ":USD:subscription_revenue", "9af64a08-95c0-5ba8-bc7a-419432b2a647"),
      (postingNamespace, sampleTenant ++ ":44444444-4444-4444-8444-444444444444", "af9b4062-6cd8-5a68-97cf-008c5f33faef"),
      (postingNamespace, sampleTenant ++ ":44444444-4444-4444-8444-444444444444:debit", "9f518c76-50aa-55b7-b65a-98853495551b"),
      (postingNamespace, sampleTenant ++ ":44444444-4444-4444-8444-444444444444:credit", "bd3ac6ff-4719-5809-b9e2-4a8194c817df"),
      (revenuePostingNamespace, sampleTenant ++ ":rendly:grant-1", "4bb40756-d6e9-530c-b01d-741f7444dc48"),
      (revenuePostingNamespace, sampleTenant ++ ":rendly:grant-1:debit", "6265eaca-ae1b-535f-bc33-7f766b11d565"),
      (revenuePostingNamespace, sampleTenant ++ ":rendly:grant-1:credit", "449a88e9-4c7a-541a-abc7-b5179fb282e0")].find?
      fun x => x.1 = ns ∧ x.2.1 = name with
  | some x => x.2.2
  | none => ""

def sampleUsage : UsageRecord where
  tenantId := sampleTenant
  teamId := "22222222-2222-4222-8222-222222222222"
  projectId := "33333333-3333-4333-8333-333333333333"
  agentId := "billing-agent"
  model := "gpt-4o"
  costEstimateCents := 700
  currency := "USD"
  eventId := "44444444-4444-4444-8444-444444444444"
  eventTimestamp := sampleTime

def sampleRevenue : RevenueRecord where
  tenantId := sampleTenant
  tier := "premium"
  amountCents := 500
  currency := "USD"
  idempotencyKey := "grant-1"
  occurredAt := sampleTime

def sampleSchedule : List (Action LedgerCall) :=
  [.begin 1 (.postUsage sampleUsage), .exec 1, .exec 1, .exec 1, .exec 1,
    .begin 2 (.postUsage sampleUsage), .exec 1, .exec 1, .commit 1,
    .exec 2, .exec 2, .exec 2, .commit 2,
    .begin 3 (.postRevenue sampleRevenue), .exec 3, .exec 3, .exec 3, .exec 3, .exec 3, .exec 3,
    .commit 3]

theorem ledger_integrity_sample : ∃ s,
    run (ledgerProg sampleUuid5) LedgerSys.init sampleSchedule = some s ∧
      s.db.entries.rows.length = 4 ∧
      rowTotal .debit (s.db.tenantEntries sampleTenant "USD") =
        rowTotal .credit (s.db.tenantEntries sampleTenant "USD") := by
  have hrun : ((run (ledgerProg sampleUuid5) LedgerSys.init sampleSchedule).map
      fun s => s.db.entries.rows.length) = some 4 := by decide +kernel
  obtain ⟨s, hs, hlen⟩ := Option.map_eq_some_iff.mp hrun
  exact ⟨s, hs, hlen, (ledger_integrity sampleUuid5 sampleSchedule s hs).ledger_balanced _ _⟩

end Sample

end Anoryx.Delta
