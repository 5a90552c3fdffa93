import Anoryx.Delta.Posting
import Anoryx.ReadCommitted.RelyGuarantee

/-!
# Anoryx.Delta.LedgerInvariant

What holds of the ledger under every interleaving of its writers.

`LedgerInv` is the invariant between any two statements: the four tables are
append-only, every entry sits under a transaction row of its tenant (committed
under committed, in flight under in flight of the same writer), every
committed transaction passes the balance check, the idempotency index lists
exactly the keyed rows, and what is reversed is there.  `LedgerRely` is what a
writer may count on: its own rows stay, committed rows stay, and no entry joins
a committed transaction.  A writer owes one thing when it commits: the transaction row it
holds is `Complete`, its entries balance — which the deferred trigger has just
checked.
-/

namespace Anoryx.Delta

open ReadCommitted Table Logic

namespace LedgerDb

/-- The committed entries of a ledger transaction. -/
def postedEntries (d : LedgerDb) (txnId : String) : List EntryRow :=
  (d.entries.rows.filter fun p => p.2.txnId = txnId).map Prod.snd

/-- The entries `t` has inserted into a ledger transaction and not committed. -/
def heldEntries (d : LedgerDb) (t : Txn) (txnId : String) : List EntryRow :=
  ((d.entries.held t).filter fun p => p.2.txnId = txnId).map Prod.snd

end LedgerDb

/-- The invariant of the ledger. -/
structure LedgerInv (d : LedgerDb) : Prop where
  accounts : d.accounts.InsertOnly
  transactions : d.transactions.InsertOnly
  idempotency : d.idempotency.InsertOnly
  entries : d.entries.InsertOnly
  entry_inflight : ∀ k t e, d.entries.inflight k = some (t, e) →
    ∃ r, d.transactions.inflight e.txnId = some (t, r) ∧ r.tenantId = e.tenantId
  entry_committed : ∀ k e, d.entries.committed k = some e →
    ∃ r, d.transactions.committed e.txnId = some r ∧ r.tenantId = e.tenantId
  balanced : ∀ id r, d.transactions.committed id = some r →
    BalancedRows r.tenantId r.currency (d.postedEntries id)
  key_inflight : ∀ id t r key, d.transactions.inflight id = some (t, r) →
    r.idempotencyKey = some key → d.idempotency.inflight (r.tenantId, key) = some (t, id)
  key_committed : ∀ id r key, d.transactions.committed id = some r →
    r.idempotencyKey = some key → d.idempotency.committed (r.tenantId, key) = some id
  reversal_inflight : ∀ id t r original, d.transactions.inflight id = some (t, r) →
    r.reversalOf = some original → ∃ r', d.transactions.visible t original = some r'
  reversal_committed : ∀ id r original, d.transactions.committed id = some r →
    r.reversalOf = some original → ∃ r', d.transactions.committed original = some r'

/-- What the writer `u` may rely on. -/
structure LedgerRely (u : Txn) (d d' : LedgerDb) : Prop where
  accounts : Frame u d.accounts d'.accounts
  transactions : Frame u d.transactions d'.transactions
  idempotency : Frame u d.idempotency d'.idempotency
  entries : Frame u d.entries d'.entries
  accounts_grows : Grows d.accounts d'.accounts
  transactions_grows : Grows d.transactions d'.transactions
  idempotency_grows : Grows d.idempotency d'.idempotency
  entries_grows : Grows d.entries d'.entries
  frozen : ∀ id r k e, d.transactions.committed id = some r →
    d'.entries.committed k = some e → e.txnId = id → d.entries.committed k = some e

/-- `t` has no row in flight. -/
structure LedgerFresh (t : Txn) (d : LedgerDb) : Prop where
  accounts : ∀ k v, d.accounts.inflight k ≠ some (t, v)
  transactions : ∀ k v, d.transactions.inflight k ≠ some (t, v)
  idempotency : ∀ k v, d.idempotency.inflight k ≠ some (t, v)
  entries : ∀ k v, d.entries.inflight k ≠ some (t, v)

/-- Every ledger transaction that `t` would commit now is balanced. -/
def Complete (t : Txn) (d : LedgerDb) : Prop :=
  ∀ id r, d.transactions.inflight id = some (t, r) →
    BalancedRows r.tenantId r.currency (d.heldEntries t id)

/-- `t` holds no transaction row other than `txnId`'s. -/
def OnlyHolds (t : Txn) (txnId : String) (d : LedgerDb) : Prop :=
  ∀ id r, d.transactions.inflight id = some (t, r) → id = txnId

section Usage

variable (uuid5 : String → String → String)

/-- What a usage posting leaves behind, under one reading of the tables: its key
is taken and its two accounts exist. -/
structure UsagePosted (r : UsageRecord) (key : String × String → Option String)
    (account : String → Option AccountRow) : Prop where
  key : ∃ id, key (r.tenantId, r.eventId) = some id
  expense : ∃ a, account (resolveAccountIds uuid5 r.tenantId r.currency).expenseAccountId = some a
  contra : ∃ a, account (resolveAccountIds uuid5 r.tenantId r.currency).contraAccountId = some a

/-- The rely–guarantee specification of the ledger writers. -/
def ledgerLogic : Logic LedgerDb LedgerCall AppendResult where
  inv := LedgerInv
  rely := LedgerRely
  fresh := LedgerFresh
  post t call _ d := Complete t d ∧
    ∀ r, call = .postUsage r → UsagePosted uuid5 r (d.idempotency.visible t) (d.accounts.visible t)
  ensures t call _ d := LedgerFresh t d ∧
    ∀ r, call = .postUsage r → UsagePosted uuid5 r d.idempotency.committed d.accounts.committed
  undone := LedgerFresh

end Usage

/-! ## relies -/

theorem LedgerRely.refl (u : Txn) (d : LedgerDb) : LedgerRely u d d where
  accounts := .refl u _
  transactions := .refl u _
  idempotency := .refl u _
  entries := .refl u _
  accounts_grows := .refl _
  transactions_grows := .refl _
  idempotency_grows := .refl _
  entries_grows := .refl _
  frozen _ _ _ _ _ he _ := he

theorem LedgerRely.trans {u : Txn} {d₁ d₂ d₃ : LedgerDb} (h₁ : LedgerRely u d₁ d₂)
    (h₂ : LedgerRely u d₂ d₃) : LedgerRely u d₁ d₃ where
  accounts := h₁.accounts.trans h₂.accounts
  transactions := h₁.transactions.trans h₂.transactions
  idempotency := h₁.idempotency.trans h₂.idempotency
  entries := h₁.entries.trans h₂.entries
  accounts_grows := h₁.accounts_grows.trans h₂.accounts_grows
  transactions_grows := h₁.transactions_grows.trans h₂.transactions_grows
  idempotency_grows := h₁.idempotency_grows.trans h₂.idempotency_grows
  entries_grows := h₁.entries_grows.trans h₂.entries_grows
  frozen id r k e hr he hid :=
    h₁.frozen id r k e hr (h₂.frozen id r k e (h₁.transactions_grows id r hr) he hid) hid

variable {d d' : LedgerDb} {t : Txn}

theorem LedgerFresh.rely (hr : LedgerRely t d d')
    (h : LedgerFresh t d) : LedgerFresh t d' where
  accounts k v hv := h.accounts k v ((hr.accounts.inflight k v).mpr hv)
  transactions k v hv := h.transactions k v ((hr.transactions.inflight k v).mpr hv)
  idempotency k v hv := h.idempotency k v ((hr.idempotency.inflight k v).mpr hv)
  entries k v hv := h.entries k v ((hr.entries.inflight k v).mpr hv)

theorem Complete.rely (hr : LedgerRely t d d')
    (h : Complete t d) : Complete t d' := by
  intro id r hin
  have := h id r ((hr.transactions.inflight id r).mpr hin)
  simpa only [LedgerDb.heldEntries, hr.entries.held] using this

theorem OnlyHolds.rely {txnId : String} (hr : LedgerRely t d d')
    (h : OnlyHolds t txnId d) : OnlyHolds t txnId d' :=
  fun id r hin => h id r ((hr.transactions.inflight id r).mpr hin)

/-! ## the end of a transaction -/

theorem entries_commit (t : Txn) (d : LedgerDb) :
    (Database.commit t d : LedgerDb).entries = d.entries.commit t := rfl

theorem postedEntries_commit {d : LedgerDb} (hi : LedgerInv d) (id : String) :
    (Database.commit t d : LedgerDb).postedEntries id =
      if (d.transactions.version t id).isSome then d.heldEntries t id else d.postedEntries id := by
  unfold LedgerDb.postedEntries LedgerDb.heldEntries
  split
  · next hsome =>
      obtain ⟨r, hr⟩ := Option.isSome_iff_exists.mp hsome
      have hin := version_eq_some.mp hr
      congr 1
      refine list_filter_congr fun k e hp => ?_
      rw [version_eq_some, entries_commit, committed_commit]
      rcases visible_cases d.entries t k with ⟨w, hw, hvis⟩ | ⟨hno, hvis⟩
      · rw [hvis, hw]
        simp
      · rw [hvis]
        constructor
        · intro hc
          obtain ⟨r', hr', _⟩ := hi.entry_committed k e hc
          rw [of_decide_eq_true hp, hi.transactions id t r hin] at hr'
          contradiction
        · intro hv
          exact absurd hv (hno e)
  · next hnone =>
      congr 1
      refine list_filter_congr fun k e hp => ?_
      rw [entries_commit, committed_commit]
      rcases visible_cases d.entries t k with ⟨w, hw, hvis⟩ | ⟨hno, hvis⟩
      · rw [hvis, hi.entries k t w hw]
        constructor
        · intro hwe
          obtain ⟨r', hr', _⟩ := hi.entry_inflight k t w hw
          rw [Option.some.inj hwe, of_decide_eq_true hp] at hr'
          exact absurd (Option.isSome_iff_exists.mpr ⟨r', version_eq_some.mpr hr'⟩) hnone
        · intro hcontra
          contradiction
      · rw [hvis]

/-- A transaction with all its entries may be committed. -/
theorem LedgerInv.commit {d : LedgerDb} (hi : LedgerInv d) (hc : Complete t d) :
    LedgerInv (Database.commit t d) where
  accounts := hi.accounts.commit t
  transactions := hi.transactions.commit t
  idempotency := hi.idempotency.commit t
  entries := hi.entries.commit t
  entry_inflight k t' e hin := by
    obtain ⟨hin, hne⟩ := inflight_commit_eq_some.mp hin
    obtain ⟨r, hr, hten⟩ := hi.entry_inflight k t' e hin
    exact ⟨r, inflight_commit_eq_some.mpr ⟨hr, hne⟩, hten⟩
  entry_committed k e he := by
    rw [entries_commit, committed_commit] at he
    rcases visible_cases d.entries t k with ⟨w, hw, hvis⟩ | ⟨_, hvis⟩
    · rw [hvis, Option.some.injEq] at he
      subst he
      obtain ⟨r, hr, hten⟩ := hi.entry_inflight k t w hw
      exact ⟨r, visible_of_inflight hr, hten⟩
    · rw [hvis] at he
      obtain ⟨r, hr, hten⟩ := hi.entry_committed k e he
      exact ⟨r, hi.transactions.grows_commit t e.txnId r hr, hten⟩
  balanced id r hr := by
    rw [postedEntries_commit hi]
    rcases visible_cases d.transactions t id with ⟨w, hw, hvis⟩ | ⟨hno, hvis⟩
    · have hwr : w = r := Option.some.inj (hvis.symm.trans hr)
      subst hwr
      rw [if_pos (Option.isSome_iff_exists.mpr ⟨w, version_eq_some.mpr hw⟩)]
      exact hc id w hw
    · rw [if_neg]
      · exact hi.balanced id r (hvis.symm.trans hr)
      · intro hsome
        obtain ⟨w, hw⟩ := Option.isSome_iff_exists.mp hsome
        exact hno w (version_eq_some.mp hw)
  key_inflight id t' r key hin hkey := by
    obtain ⟨hin, hne⟩ := inflight_commit_eq_some.mp hin
    exact inflight_commit_eq_some.mpr ⟨hi.key_inflight id t' r key hin hkey, hne⟩
  key_committed id r key hr hkey := by
    rcases visible_cases d.transactions t id with ⟨w, hw, hvis⟩ | ⟨_, hvis⟩
    · have hwr : w = r := Option.some.inj (hvis.symm.trans hr)
      subst hwr
      exact visible_of_inflight (hi.key_inflight id t w key hw hkey)
    · exact hi.idempotency.grows_commit t _ _ (hi.key_committed id r key (hvis.symm.trans hr) hkey)
  reversal_inflight id t' r original hin hrev := by
    obtain ⟨hin, hne⟩ := inflight_commit_eq_some.mp hin
    obtain ⟨r', hr'⟩ := hi.reversal_inflight id t' r original hin hrev
    exact ⟨r', (frame_commit _ hne).visible_of_grows (hi.transactions.grows_commit t)
      (hi.transactions.commit t) hr'⟩
  reversal_committed id r original hr hrev := by
    rcases visible_cases d.transactions t id with ⟨w, hw, hvis⟩ | ⟨_, hvis⟩
    · have hwr : w = r := Option.some.inj (hvis.symm.trans hr)
      subst hwr
      exact hi.reversal_inflight id t w original hw hrev
    · obtain ⟨r', hr'⟩ := hi.reversal_committed id r original (hvis.symm.trans hr) hrev
      exact ⟨r', hi.transactions.grows_commit t _ _ hr'⟩

theorem LedgerInv.rollback {d : LedgerDb} (hi : LedgerInv d) :
    LedgerInv (Database.rollback t d) where
  accounts := hi.accounts.rollback t
  transactions := hi.transactions.rollback t
  idempotency := hi.idempotency.rollback t
  entries := hi.entries.rollback t
  entry_inflight k t' e hin := by
    obtain ⟨hin, hne⟩ := inflight_rollback_eq_some.mp hin
    obtain ⟨r, hr, hten⟩ := hi.entry_inflight k t' e hin
    exact ⟨r, inflight_rollback_eq_some.mpr ⟨hr, hne⟩, hten⟩
  entry_committed := hi.entry_committed
  balanced := hi.balanced
  key_inflight id t' r key hin hkey := by
    obtain ⟨hin, hne⟩ := inflight_rollback_eq_some.mp hin
    exact inflight_rollback_eq_some.mpr ⟨hi.key_inflight id t' r key hin hkey, hne⟩
  key_committed := hi.key_committed
  reversal_inflight id t' r original hin hrev := by
    obtain ⟨hin, hne⟩ := inflight_rollback_eq_some.mp hin
    obtain ⟨r', hr'⟩ := hi.reversal_inflight id t' r original hin hrev
    exact ⟨r', (visible_rollback_of_ne hne original).trans hr'⟩
  reversal_committed := hi.reversal_committed

theorem LedgerRely.commit {t u : Txn} {d : LedgerDb} (hi : LedgerInv d) (hne : u ≠ t) :
    LedgerRely u d (Database.commit t d) where
  accounts := frame_commit _ hne
  transactions := frame_commit _ hne
  idempotency := frame_commit _ hne
  entries := frame_commit _ hne
  accounts_grows := hi.accounts.grows_commit t
  transactions_grows := hi.transactions.grows_commit t
  idempotency_grows := hi.idempotency.grows_commit t
  entries_grows := hi.entries.grows_commit t
  frozen id r k e hr he hid := by
    rcases visible_cases d.entries t k with ⟨w, hw, hvis⟩ | ⟨_, hvis⟩
    · -- an entry in flight sits under a row in flight, and this row is committed
      have hwe : w = e := Option.some.inj (hvis.symm.trans he)
      obtain ⟨r', hr', _⟩ := hi.entry_inflight k t w hw
      rw [hwe, hid] at hr'
      rw [hi.transactions id t r' hr'] at hr
      contradiction
    · exact hvis.symm.trans he

theorem LedgerRely.rollback {t u : Txn} {d : LedgerDb} (hne : u ≠ t) :
    LedgerRely u d (Database.rollback t d) where
  accounts := frame_rollback _ hne
  transactions := frame_rollback _ hne
  idempotency := frame_rollback _ hne
  entries := frame_rollback _ hne
  accounts_grows := .refl _
  transactions_grows := .refl _
  idempotency_grows := .refl _
  entries_grows := .refl _
  frozen _ _ _ _ _ he _ := he

theorem LedgerFresh.commit (t : Txn) (d : LedgerDb) : LedgerFresh t (Database.commit t d) where
  accounts _ _ h := (inflight_commit_eq_some.mp h).2 rfl
  transactions _ _ h := (inflight_commit_eq_some.mp h).2 rfl
  idempotency _ _ h := (inflight_commit_eq_some.mp h).2 rfl
  entries _ _ h := (inflight_commit_eq_some.mp h).2 rfl

theorem LedgerFresh.rollback (t : Txn) (d : LedgerDb) : LedgerFresh t (Database.rollback t d) where
  accounts _ _ h := (inflight_rollback_eq_some.mp h).2 rfl
  transactions _ _ h := (inflight_rollback_eq_some.mp h).2 rfl
  idempotency _ _ h := (inflight_rollback_eq_some.mp h).2 rfl
  entries _ _ h := (inflight_rollback_eq_some.mp h).2 rfl

/-! ## statements -/

/-- A row of `transactions` went in, with its key in the idempotency index. -/
structure Inserted (t : Txn) (tenant txnId : String) (row : TransactionRow) (d d' : LedgerDb) :
    Prop where
  tenant : row.tenantId = tenant
  transaction_free : d.transactions.inflight txnId = none
  transaction_none : d.transactions.committed txnId = none
  transactions : d'.transactions = d.transactions.write t txnId row
  accounts : d'.accounts = d.accounts
  entries : d'.entries = d.entries
  key_none : row.idempotencyKey = none → d'.idempotency = d.idempotency
  key_some : ∀ key, row.idempotencyKey = some key →
    d.idempotency.insertOrIgnore t (row.tenantId, key) txnId = some (true, d'.idempotency)
  reversal : ∀ original, row.reversalOf = some original →
    ∃ r, d.transactions.visible t original = some r

variable {row : TransactionRow}

theorem insertTransactionRow_cases {txnId : String}
    {r : Except LedgerError Bool}
    (h : insertTransactionRow txnId row t d = some (r, d')) :
    ((∃ e, r = .error e) ∧ d' = d) ∨
      (r = .ok true ∧ d.transactions.inflight txnId = none ∧
        d.transactions.committed txnId = none ∧
        (∀ original, row.reversalOf = some original → ∃ r, d.transactions.visible t original = some r) ∧
        d' = { d with transactions := d.transactions.write t txnId row }) := by
  unfold insertTransactionRow at h
  cases hins : d.transactions.insertOrIgnore t txnId row with
  | none => simp [hins] at h
  | some p =>
      obtain ⟨b, tbl⟩ := p
      rcases insertOrIgnore_cases hins with ⟨rfl, _, _⟩ | ⟨rfl, rfl, hfree, hnone⟩
      · simp only [hins, Option.some.injEq, Prod.mk.injEq] at h
        exact .inl ⟨⟨_, h.1.symm⟩, h.2.symm⟩
      · simp only [hins] at h
        split at h
        · next hknown =>
          simp only [Option.some.injEq, Prod.mk.injEq] at h
          refine .inr ⟨h.1.symm, hfree, hnone, fun original hrev => ?_, h.2.symm⟩
          rw [hrev, Option.all_some] at hknown
          exact Option.isSome_iff_exists.mp hknown
        · simp only [Option.some.injEq, Prod.mk.injEq] at h
          exact .inl ⟨⟨_, h.1.symm⟩, h.2.symm⟩

variable {tenant txnId : String}

/-- An insert fails, meets its idempotency key, or adds the transaction. -/
theorem insertTransaction_cases
    {r : Except LedgerError Bool}
    (h : insertTransaction tenant txnId row t d = some (r, d')) :
    ((∃ e, r = .error e) ∧ d' = d) ∨
      (r = .ok false ∧ d' = d ∧ row.tenantId = tenant ∧
        ∃ key w, row.idempotencyKey = some key ∧
          d.idempotency.visible t (row.tenantId, key) = some w) ∨
      (r = .ok true ∧ Inserted t tenant txnId row d d') := by
  unfold insertTransaction at h
  split at h
  · simp only [Option.some.injEq, Prod.mk.injEq] at h
    exact .inl ⟨⟨_, h.1.symm⟩, h.2.symm⟩
  next hten =>
  split at h
  · simp only [Option.some.injEq, Prod.mk.injEq] at h
    exact .inl ⟨⟨_, h.1.symm⟩, h.2.symm⟩
  have hten : row.tenantId = tenant := by simpa using hten
  cases hkey : row.idempotencyKey with
  | none =>
      simp only [hkey] at h
      rcases insertTransactionRow_cases h with herr | ⟨rfl, hfree, hnone, hrev, rfl⟩
      · exact .inl herr
      · exact .inr (.inr ⟨rfl, hten, hfree, hnone, rfl, rfl, rfl, fun _ => rfl, by simp [hkey], hrev⟩)
  | some key =>
      simp only [hkey] at h
      cases hins : d.idempotency.insertOrIgnore t (row.tenantId, key) txnId with
      | none => simp [hins] at h
      | some p =>
          obtain ⟨b, tbl⟩ := p
          cases b with
          | false =>
              simp only [hins, Option.some.injEq, Prod.mk.injEq] at h
              rcases insertOrIgnore_cases hins with ⟨_, _, w, hw⟩ | ⟨hb, _⟩
              · exact .inr (.inl ⟨h.1.symm, h.2.symm, hten, key, w, rfl, hw⟩)
              · contradiction
          | true =>
              simp only [hins] at h
              cases hrow : insertTransactionRow txnId row t d with
              | none => simp [hrow] at h
              | some q =>
                  obtain ⟨r', d₁⟩ := q
                  rcases insertTransactionRow_cases hrow with ⟨⟨e, rfl⟩, _⟩ | ⟨rfl, hfree, hnone, hrev, rfl⟩
                  · simp only [hrow, Option.some.injEq, Prod.mk.injEq] at h
                    exact .inl ⟨⟨e, h.1.symm⟩, h.2.symm⟩
                  · simp only [hrow, Option.some.injEq, Prod.mk.injEq] at h
                    obtain ⟨rfl, rfl⟩ := h
                    refine .inr (.inr ⟨rfl, hten, hfree, hnone, rfl, rfl, rfl, by simp [hkey], ?_, hrev⟩)
                    intro key' hkey'
                    rw [hkey, Option.some.injEq] at hkey'
                    subst hkey'
                    exact hins

theorem Inserted.idempotency_write
    (h : Inserted t tenant txnId row d d') {key : String}
    (hkey : row.idempotencyKey = some key) :
    d'.idempotency = d.idempotency.write t (row.tenantId, key) txnId ∧
      d.idempotency.inflight (row.tenantId, key) = none ∧
      d.idempotency.committed (row.tenantId, key) = none := by
  rcases insertOrIgnore_cases (h.key_some key hkey) with ⟨hb, _⟩ | ⟨_, hw, hi, hc⟩
  · contradiction
  · exact ⟨hw, hi, hc⟩

theorem Inserted.idempotency_cases
    (h : Inserted t tenant txnId row d d') :
    d'.idempotency = d.idempotency ∨
      ∃ key, d.idempotency.insertOrIgnore t (row.tenantId, key) txnId = some (true, d'.idempotency) := by
  cases hkey : row.idempotencyKey with
  | none => exact .inl (h.key_none hkey)
  | some key => exact .inr ⟨key, h.key_some key hkey⟩

theorem Inserted.inv
    (h : Inserted t tenant txnId row d d') (hi : LedgerInv d) : LedgerInv d' where
  accounts := h.accounts ▸ hi.accounts
  transactions := by
    intro k t' v hin
    rw [h.transactions] at hin ⊢
    by_cases hk : k = txnId
    · subst hk
      exact h.transaction_none
    · rw [inflight_write_of_ne hk] at hin
      exact hi.transactions k t' v hin
  idempotency := by
    rcases h.idempotency_cases with heq | ⟨key, hins⟩
    · exact heq ▸ hi.idempotency
    · exact hi.idempotency.insertOrIgnore hins
  entries := h.entries ▸ hi.entries
  entry_inflight k t' e hin := by
    rw [h.entries] at hin
    obtain ⟨r, hr, hten⟩ := hi.entry_inflight k t' e hin
    have hne : e.txnId ≠ txnId := by
      intro heq
      rw [heq, h.transaction_free] at hr
      contradiction
    exact ⟨r, by rw [h.transactions, inflight_write_of_ne hne, hr], hten⟩
  entry_committed k e he := by
    rw [h.entries] at he
    rw [h.transactions]
    exact hi.entry_committed k e he
  balanced id r hr := by
    rw [h.transactions] at hr
    simpa only [LedgerDb.postedEntries, h.entries] using hi.balanced id r hr
  key_inflight id t' r key hin hkey := by
    rw [h.transactions] at hin
    rcases inflight_write_cases hin with ⟨rfl, rfl, rfl⟩ | ⟨-, hin⟩
    · rw [(h.idempotency_write hkey).1, inflight_write_self]
    · have hold := hi.key_inflight id t' r key hin hkey
      rcases h.idempotency_cases with heq | ⟨key', hins⟩
      · rw [heq, hold]
      · rcases insertOrIgnore_cases hins with ⟨hb, _⟩ | ⟨_, hw, hfree, _⟩
        · contradiction
        · have hne : (r.tenantId, key) ≠ (row.tenantId, key') := by
            intro heq
            rw [heq, hfree] at hold
            contradiction
          rw [hw, inflight_write_of_ne hne, hold]
  key_committed id r key hr hkey := by
    rw [h.transactions] at hr
    have hold := hi.key_committed id r key hr hkey
    rcases h.idempotency_cases with heq | ⟨key', hins⟩
    · rw [heq, hold]
    · rw [committed_insertOrIgnore hins, hold]
  reversal_inflight id t' r original hin hrev := by
    have hfree : ∀ u, d.transactions.visible u txnId = none := fun u =>
      (visible_of_inflight_none h.transaction_free).trans h.transaction_none
    have hkeep : ∀ u r', d.transactions.visible u original = some r' →
        d'.transactions.visible u original = some r' := by
      intro u r' hr'
      have hne : original ≠ txnId := by
        rintro rfl
        rw [hfree u] at hr'
        contradiction
      rw [h.transactions, visible_write_of_ne hne, hr']
    rw [h.transactions] at hin
    rcases inflight_write_cases hin with ⟨rfl, rfl, rfl⟩ | ⟨-, hin⟩
    · exact (h.reversal original hrev).imp (hkeep _)
    · exact (hi.reversal_inflight id t' r original hin hrev).imp (hkeep t')
  reversal_committed id r original hr hrev := by
    rw [h.transactions] at hr ⊢
    exact hi.reversal_committed id r original hr hrev

theorem Inserted.rely {t u : Txn}
    (h : Inserted t tenant txnId row d d') (hne : u ≠ t) : LedgerRely u d d' where
  accounts := h.accounts ▸ .refl u _
  transactions := by
    rw [h.transactions]
    exact frame_write hne (free_iff.mpr (by simp [h.transaction_free]))
  idempotency := by
    rcases h.idempotency_cases with heq | ⟨key, hins⟩
    · exact heq ▸ .refl u _
    · exact frame_insertOrIgnore hins hne
  entries := h.entries ▸ .refl u _
  accounts_grows := h.accounts ▸ .refl _
  transactions_grows k v hv := by
    rw [h.transactions]
    exact hv
  idempotency_grows := by
    rcases h.idempotency_cases with heq | ⟨key, hins⟩
    · exact heq ▸ .refl _
    · intro k v hv
      rw [committed_insertOrIgnore hins, hv]
  entries_grows := h.entries ▸ .refl _
  frozen id r k e _ he _ := h.entries ▸ he

theorem insertEntry_cases {e : LedgerEntry}
    {r : Except LedgerError Unit} (h : insertEntry tenant txnId e t d = some (r, d')) :
    ((∃ err, r = .error err) ∧ d' = d) ∨
      (r = .ok () ∧ e.tenantId = tenant ∧
        d.entries.insertOrIgnore t e.entryId (e.toRow txnId) = some (true, d'.entries) ∧
        d' = { d with entries := d'.entries }) := by
  unfold insertEntry at h
  cases hparent : assertEntryInTxnCreation tenant txnId t d with
  | error err =>
      simp only [hparent, Option.some.injEq, Prod.mk.injEq] at h
      exact .inl ⟨⟨err, h.1.symm⟩, h.2.symm⟩
  | ok u =>
      simp only [hparent] at h
      split at h
      · simp only [Option.some.injEq, Prod.mk.injEq] at h
        exact .inl ⟨⟨_, h.1.symm⟩, h.2.symm⟩
      next hten =>
      cases hins : d.entries.insertOrIgnore t e.entryId (e.toRow txnId) with
      | none => simp [hins] at h
      | some p =>
          obtain ⟨b, tbl⟩ := p
          cases b with
          | false =>
              simp only [hins, Option.some.injEq, Prod.mk.injEq] at h
              exact .inl ⟨⟨_, h.1.symm⟩, h.2.symm⟩
          | true =>
              simp only [hins] at h
              split at h
              · simp only [Option.some.injEq, Prod.mk.injEq] at h
                obtain ⟨rfl, rfl⟩ := h
                exact .inr ⟨rfl, by simpa using hten, rfl, rfl⟩
              · simp only [Option.some.injEq, Prod.mk.injEq] at h
                exact .inl ⟨⟨_, h.1.symm⟩, h.2.symm⟩

variable {r : TransactionRow}

variable {entries : Table String EntryRow} {k a : String} {accounts : List String}
  {key reversalOf : Option String} {posted : List EntryRow}

theorem LedgerInv.insertEntry {d : LedgerDb} {row : EntryRow} (hi : LedgerInv d)
    (hins : d.entries.insertOrIgnore t k row = some (true, entries))
    (hparent : d.transactions.inflight row.txnId = some (t, r)) (hten : r.tenantId = row.tenantId) :
    LedgerInv { d with entries } where
  accounts := hi.accounts
  transactions := hi.transactions
  idempotency := hi.idempotency
  entries := hi.entries.insertOrIgnore hins
  entry_inflight k' t' e hin := by
    rcases insertOrIgnore_cases hins with ⟨hb, _⟩ | ⟨_, rfl, _, _⟩
    · contradiction
    rcases inflight_write_cases hin with ⟨-, rfl, rfl⟩ | ⟨-, hin⟩
    · exact ⟨r, hparent, hten⟩
    · exact hi.entry_inflight k' t' e hin
  entry_committed k' e he := by
    simp only [committed_insertOrIgnore hins] at he
    exact hi.entry_committed k' e he
  balanced id r hr := by
    rcases insertOrIgnore_cases hins with ⟨hb, _⟩ | ⟨_, rfl, _, hc⟩
    · contradiction
    have hrows : (d.entries.write t k row).rows = d.entries.rows := list_write hc
    simpa only [LedgerDb.postedEntries, hrows] using hi.balanced id r hr
  key_inflight := hi.key_inflight
  key_committed := hi.key_committed
  reversal_inflight := hi.reversal_inflight
  reversal_committed := hi.reversal_committed

theorem LedgerRely.insertEntry {t u : Txn} {d : LedgerDb} {row : EntryRow}
    (hins : d.entries.insertOrIgnore t k row = some (true, entries)) (hne : u ≠ t) :
    LedgerRely u d { d with entries } where
  accounts := .refl u _
  transactions := .refl u _
  idempotency := .refl u _
  entries := frame_insertOrIgnore hins hne
  accounts_grows := .refl _
  transactions_grows := .refl _
  idempotency_grows := .refl _
  entries_grows k v hv := by
    rw [committed_insertOrIgnore hins, hv]
  frozen id r k e _ he _ := by
    simpa only [committed_insertOrIgnore hins] using he

theorem LedgerInv.ensureAccount {d : LedgerDb} {accounts : Table String AccountRow}
    {row : AccountRow} {b : Bool} (hi : LedgerInv d)
    (hins : d.accounts.insertOrIgnore t k row = some (b, accounts)) :
    LedgerInv { d with accounts } where
  accounts := hi.accounts.insertOrIgnore hins
  transactions := hi.transactions
  idempotency := hi.idempotency
  entries := hi.entries
  entry_inflight := hi.entry_inflight
  entry_committed := hi.entry_committed
  balanced := hi.balanced
  key_inflight := hi.key_inflight
  key_committed := hi.key_committed
  reversal_inflight := hi.reversal_inflight
  reversal_committed := hi.reversal_committed

theorem LedgerRely.ensureAccount {t u : Txn} {d : LedgerDb} {accounts : Table String AccountRow}
    {row : AccountRow} {b : Bool} (hins : d.accounts.insertOrIgnore t k row = some (b, accounts))
    (hne : u ≠ t) : LedgerRely u d { d with accounts } where
  accounts := frame_insertOrIgnore hins hne
  transactions := .refl u _
  idempotency := .refl u _
  entries := .refl u _
  accounts_grows k v hv := by
    rw [committed_insertOrIgnore hins, hv]
  transactions_grows := .refl _
  idempotency_grows := .refl _
  entries_grows := .refl _
  frozen _ _ _ _ _ he _ := he

/-! ## the deferred trigger -/

theorem entriesOf_eq_heldEntries {d : LedgerDb} {txnId : String}
    (hi : LedgerInv d) (hr : d.transactions.inflight txnId = some (t, r)) :
    d.entriesOf t r.tenantId txnId = d.heldEntries t txnId := by
  have hsees : ∀ k e, e.txnId = txnId →
      (d.entries.visible t k = some e ↔ d.entries.version t k = some e) := by
    intro k e he
    rw [version_eq_some]
    rcases visible_cases d.entries t k with ⟨w, hw, hvis⟩ | ⟨hno, hvis⟩
    · rw [hvis, hw]
      simp
    · rw [hvis]
      constructor
      · intro hc
        obtain ⟨r', hr', _⟩ := hi.entry_committed k e hc
        rw [he, hi.transactions txnId t r hr] at hr'
        contradiction
      · intro hv
        exact absurd hv (hno e)
  have htenant : ∀ p ∈ d.entries.held t, p.2.txnId = txnId → p.2.tenantId = r.tenantId := by
    rintro ⟨k, e⟩ hmem he
    obtain ⟨r', hr', hten⟩ := hi.entry_inflight k t e (mem_held.mp hmem)
    rw [show e.txnId = txnId from he, hr, Option.some.injEq, Prod.mk.injEq] at hr'
    rw [← hten, hr'.2]
  unfold LedgerDb.entriesOf LedgerDb.heldEntries
  congr 1
  calc (d.entries.scan t).filter (fun p => p.2.tenantId = r.tenantId ∧ p.2.txnId = txnId)
      = (d.entries.held t).filter (fun p => p.2.tenantId = r.tenantId ∧ p.2.txnId = txnId) := by
        refine list_filter_congr fun k e hp => ?_
        exact hsees k e (of_decide_eq_true hp).2
    _ = (d.entries.held t).filter (fun p => p.2.txnId = txnId) := by
        refine List.filter_congr fun p hp => ?_
        by_cases hid : p.2.txnId = txnId
        · simp [hid, htenant p hp hid]
        · simp [hid]

theorem assertTxnBalanced_ok {d : LedgerDb}
    (hr : d.transactions.visible t txnId = some r) (hten : r.tenantId = tenant)
    (h : assertTxnBalanced tenant txnId t d = .ok ()) :
    BalancedRows r.tenantId r.currency (d.entriesOf t tenant txnId) := by
  unfold assertTxnBalanced at h
  simp only [hr] at h
  split at h
  · contradiction
  next hlen =>
  split at h
  · contradiction
  split at h
  · contradiction
  split at h
  · contradiction
  next hbal =>
  split at h
  · contradiction
  split at h
  · contradiction
  next htenant =>
  split at h
  · contradiction
  next hcur =>
  simp only [Decidable.not_not] at htenant hcur hbal
  exact ⟨by omega, fun e he => (hcur e he).symm, fun e he => (htenant e he).symm, hbal⟩

/-! ## the programs -/

/-- The accounts a writer has made sure of. -/
def AccountsVisible (t : Txn) (accounts : List String) (d : LedgerDb) : Prop :=
  ∀ a ∈ accounts, ∃ row, d.accounts.visible t a = some row

/-- The key of an append, once its row is in or was found. -/
def KeyVisible (t : Txn) (tenant : String) (key : Option String) (d : LedgerDb) : Prop :=
  ∀ k, key = some k → ∃ id, d.idempotency.visible t (tenant, k) = some id

/-- Between the transaction row and the last of its entries. -/
structure Appending (t : Txn) (tenant txnId : String) (key : Option String) (accounts : List String)
    (d : LedgerDb) : Prop where
  row : ∃ r, d.transactions.inflight txnId = some (t, r) ∧ r.tenantId = tenant
  only : OnlyHolds t txnId d
  key : KeyVisible t tenant key d
  accounts : AccountsVisible t accounts d

theorem AccountsVisible.rely (hi : LedgerInv d') (hr : LedgerRely t d d')
    (h : AccountsVisible t accounts d) : AccountsVisible t accounts d' :=
  fun a ha => (h a ha).imp fun _ hv =>
    hr.accounts.visible_of_grows hr.accounts_grows hi.accounts hv

theorem KeyVisible.rely {tenant : String} (hi : LedgerInv d') (hr : LedgerRely t d d')
    (h : KeyVisible t tenant key d) : KeyVisible t tenant key d' :=
  fun k hk => (h k hk).imp fun _ hv =>
    hr.idempotency.visible_of_grows hr.idempotency_grows hi.idempotency hv

theorem Appending.rely (hi : LedgerInv d') (hr : LedgerRely t d d')
    (h : Appending t tenant txnId key accounts d) : Appending t tenant txnId key accounts d' where
  row := h.row.imp fun r hr' => ⟨(hr.transactions.inflight txnId r).mp hr'.1, hr'.2⟩
  only := h.only.rely hr
  key := h.key.rely hi hr
  accounts := h.accounts.rely hi hr

section Programs

variable (uuid5 : String → String → String)

theorem ledger_keeps_self {t : Txn} {d : LedgerDb} (hi : LedgerInv d) :
    (ledgerLogic uuid5).Keeps t d d :=
  ⟨hi, fun u _ => LedgerRely.refl u d⟩

/-- A writer holds this row of a ledger transaction, with these entries. -/
structure Appended (t : Txn) (txnId : String) (row : TransactionRow) (posted : List EntryRow) (d : LedgerDb) :
    Prop where
  row : d.transactions.inflight txnId = some (t, row)
  entries : (d.heldEntries t txnId).Perm posted

theorem Appended.rely {t : Txn} {txnId : String} {row : TransactionRow} {d d' : LedgerDb}
    (hr : LedgerRely t d d') (h : Appended t txnId row posted d) :
    Appended t txnId row posted d' where
  row := (hr.transactions.inflight txnId row).mp h.row
  entries := by
    rw [LedgerDb.heldEntries, hr.entries.held]
    exact h.entries

theorem heldEntries_insertEntry {t : Txn} {d : LedgerDb} {row : EntryRow}
    (hins : d.entries.insertOrIgnore t k row = some (true, entries)) :
    ({ d with entries } : LedgerDb).heldEntries t row.txnId |>.Perm (row :: d.heldEntries t row.txnId) := by
  obtain ⟨rfl, hin, -⟩ := insertOrIgnore_true hins
  have hnone : d.entries.version t k = none := by
    rw [version, hin]
  have hreads : ∀ tbl : Table String EntryRow, tbl.Reads (tbl.version t) := fun _ _ hk => version_of_not_mem hk
  have hperm := rowsOf_perm_cons (p := fun e => e.txnId = row.txnId) (hreads d.entries)
    (hreads (d.entries.write t k row)) hnone (decide_eq_true rfl) fun k' w _ => by
      rw [version_eq_some, version_eq_some]
      by_cases hk : k' = k
      · subst hk
        rw [inflight_write_self, hin]
        grind
      · rw [inflight_write_of_ne hk]
        grind
  exact hperm.map Prod.snd

/-- The entries are inserted one by one, after the transaction that they belong to. -/
theorem wp_insertEntries {t : Txn} {tenant txnId : String} (es : List LedgerEntry)
    {row : TransactionRow} {d : LedgerDb} (h : Appending t tenant txnId key accounts d)
    (ha : Appended t txnId row posted d) :
    (ledgerLogic uuid5).wp t (fun _ d => Appending t tenant txnId key accounts d ∧
      Appended t txnId row (posted ++ es.map fun e => e.toRow txnId) d)
      (insertEntries tenant txnId es) d := by
  induction es generalizing d posted with
  | nil =>
      intro d' hi hr
      refine ⟨h.rely hi hr, ?_⟩
      rw [List.map_nil, List.append_nil]
      exact ha.rely hr
  | cons e es ih =>
      refine wp_checked_bind fun d₁ hi hr r d₂ hins _ => ?_
      have h₁ := h.rely hi hr
      have ha₁ := ha.rely hr
      rcases insertEntry_cases hins with ⟨⟨err, rfl⟩, rfl⟩ | ⟨rfl, hten, hrow, heq⟩
      · exact ⟨ledger_keeps_self uuid5 hi, by simp⟩
      · obtain ⟨row, hparent, hrten⟩ := h₁.row
        have hheld₂ := heldEntries_insertEntry hrow
        rw [heq]
        refine ⟨⟨hi.insertEntry hrow hparent (hrten.trans hten.symm),
          fun u hne => LedgerRely.insertEntry hrow hne⟩, fun _ _ => ?_⟩
        have hposted := hheld₂.trans ((ha₁.entries.cons _).trans (List.perm_append_singleton _ _).symm)
        have h₂ : Appending t tenant txnId key accounts { d₁ with entries := d₂.entries } :=
          ⟨h₁.row, h₁.only, h₁.key, h₁.accounts⟩
        have hrest := ih h₂ ⟨ha₁.row, hposted⟩
        simpa only [List.map_cons, List.append_assoc, List.singleton_append] using hrest

theorem heldEntries_eq_nil {t : Txn} {d : LedgerDb} (hi : LedgerInv d)
    (hnone : ∀ id r, d.transactions.inflight id ≠ some (t, r)) (txnId : String) :
    d.heldEntries t txnId = [] := by
  refine List.map_eq_nil_iff.mpr (List.filter_eq_nil_iff.mpr ?_)
  rintro ⟨k, e⟩ hmem _
  obtain ⟨r, hr, -⟩ := hi.entry_inflight k t e (mem_held.mp hmem)
  exact hnone _ r hr

/-- **The append**: whatever it returns, what it is about to commit is balanced
and its key is taken; and if it was applied, it is the transaction with its entries. -/
theorem wp_appendTransaction (accounts : List String) {t : Txn} {tenant : String}
    {txn : Transaction} {d : LedgerDb} (hnone : ∀ id r, d.transactions.inflight id ≠ some (t, r))
    (hacc : AccountsVisible t accounts d) :
    (ledgerLogic uuid5).wp t
      (fun b d => Complete t d ∧ KeyVisible t tenant key d ∧ AccountsVisible t accounts d ∧
        (b.applied = true → ∃ row, row.reversalOf = reversalOf ∧
          Appended t txn.txnId row (txn.entries.map fun e => e.toRow txn.txnId) d))
      (appendTransaction tenant txn key reversalOf) d := by
  refine wp_checked_bind fun d₁ hi hr r d₂ hins _ => ?_
  have hacc₁ := hacc.rely hi hr
  have hnone₁ : ∀ id r, d₁.transactions.inflight id ≠ some (t, r) :=
    fun id r hin => hnone id r ((hr.transactions.inflight id r).mpr hin)
  rcases insertTransaction_cases hins with ⟨⟨e, rfl⟩, rfl⟩ | ⟨rfl, rfl, hten, k, w, hk, hw⟩ |
    ⟨rfl, hrow⟩
  · exact ⟨ledger_keeps_self uuid5 hi, by simp⟩
  · -- an idempotent replay: the key was there, nothing is in flight
    refine ⟨ledger_keeps_self uuid5 hi, fun b hb => ?_⟩
    cases hb
    simp only at hk hten
    simp only [hk, Option.isSome_some, Bool.false_eq_true, not_false_eq_true, and_self, if_true]
    intro d₃ hi₃ hr₃
    refine ⟨fun id r hin => ?_, ?_, hacc₁.rely hi₃ hr₃, fun hb => absurd hb Bool.false_ne_true⟩
    · exact absurd ((hr₃.transactions.inflight id r).mpr hin) (hnone₁ id r)
    · refine KeyVisible.rely hi₃ hr₃ fun k' hk' => ?_
      cases hk'
      exact ⟨w, hten ▸ hw⟩
  · refine ⟨⟨hrow.inv hi, fun u hne => hrow.rely hne⟩, fun b hb => ?_⟩
    cases hb
    simp only [not_true_eq_false, and_false, if_false]
    have hstart : Appending t tenant txn.txnId key accounts d₂ := by
      refine ⟨⟨_, by rw [hrow.transactions, inflight_write_self], hrow.tenant⟩, ?_, ?_, ?_⟩
      · intro id r hin
        by_contra hne
        rw [hrow.transactions, inflight_write_of_ne hne] at hin
        exact hnone₁ id r hin
      · intro k hk
        have hw := (hrow.idempotency_write hk).1
        exact ⟨txn.txnId, by rw [hw, ← hrow.tenant, visible_write_self]⟩
      · intro a ha
        rw [hrow.accounts]
        exact hacc₁ a ha
    obtain ⟨row, hnew, hrev⟩ : ∃ row, d₂.transactions.inflight txn.txnId = some (t, row) ∧
        row.reversalOf = reversalOf :=
      ⟨_, by rw [hrow.transactions, inflight_write_self], rfl⟩
    have hheld : (d₂.heldEntries t txn.txnId).Perm [] := by
      rw [LedgerDb.heldEntries, hrow.entries]
      exact .of_eq (heldEntries_eq_nil hi hnone₁ txn.txnId)
    refine wp_bind (LedgerRely.refl t) (hrow.inv hi)
      (wp_mono ?_ (wp_insertEntries uuid5 txn.entries hstart ⟨hnew, hheld⟩))
    intro _ d₃ hi₃ ⟨h₃, ha₃⟩
    refine wp_checked_bind fun d₄ hi₄ hr₄ r d₅ htrig _ => ?_
    have h₄ := h₃.rely hi₄ hr₄
    simp only [Option.some.injEq, Prod.mk.injEq] at htrig
    obtain ⟨rfl, rfl⟩ := htrig
    refine ⟨ledger_keeps_self uuid5 hi₄, fun _ hok => ?_⟩
    obtain ⟨row', hin, hten⟩ := h₄.row
    have hbal := assertTxnBalanced_ok (visible_of_inflight hin) hten hok
    rw [← hten, entriesOf_eq_heldEntries hi₄ hin] at hbal
    have hcomplete : Complete t d₄ := by
      intro id r hr'
      have hid := h₄.only id r hr'
      subst hid
      rw [hin, Option.some.injEq, Prod.mk.injEq] at hr'
      exact hr'.2 ▸ hbal
    intro d₆ hi₆ hr₆
    exact ⟨hcomplete.rely hr₆, h₄.key.rely hi₆ hr₆, h₄.accounts.rely hi₆ hr₆, fun _ =>
      ⟨row, hrev, (ha₃.rely hr₄).rely hr₆⟩⟩

theorem wp_ensureAccount {β : Type} (accounts : List String) {t : Txn} {row : AccountRow}
    {k : Unit → Prog LedgerDb LedgerError β} {Q : β → LedgerDb → Prop} {d : LedgerDb}
    (hnone : ∀ id r, d.transactions.inflight id ≠ some (t, r)) (hacc : AccountsVisible t accounts d)
    (hk : ∀ d', LedgerInv d' → (∀ id r, d'.transactions.inflight id ≠ some (t, r)) →
      AccountsVisible t (a :: accounts) d' → (ledgerLogic uuid5).wp t Q (k ()) d') :
    (ledgerLogic uuid5).wp t Q (ensureAccount a row >>= k) d := by
  refine wp_exec_bind fun d₁ hi hr x d₂ hins _ => ?_
  obtain ⟨⟨b, tbl⟩, hrow, heq⟩ := Option.map_eq_some_iff.mp hins
  rw [Prod.mk.injEq] at heq
  rw [← heq.2]
  have hacc₁ := hacc.rely hi hr
  refine ⟨⟨hi.ensureAccount hrow, fun u hne => LedgerRely.ensureAccount hrow hne⟩,
    hk _ (hi.ensureAccount hrow) ?_ ?_⟩
  · exact fun id r hin => hnone id r ((hr.transactions.inflight id r).mpr hin)
  · intro a' ha'
    rcases List.mem_cons.mp ha' with rfl | ha'
    · exact visible_insertOrIgnore hrow
    · exact (hacc₁ a' ha').imp fun _ hv => visible_insertOrIgnore_of_some hrow hv

theorem wp_postUsage {t : Txn} {r : UsageRecord} {d : LedgerDb} (h : LedgerFresh t d) :
    (ledgerLogic uuid5).wp t (fun _ d => Complete t d ∧
      UsagePosted uuid5 r (d.idempotency.visible t) (d.accounts.visible t)) (postUsage uuid5 r) d := by
  refine wp_ensureAccount uuid5 [] h.transactions (by simp [AccountsVisible])
    fun d₁ _ hnone₁ hacc₁ => ?_
  refine wp_ensureAccount uuid5 _ hnone₁ hacc₁ fun d₂ _ hnone₂ hacc₂ => ?_
  refine wp_mono ?_ (wp_appendTransaction uuid5 _ hnone₂ hacc₂)
  intro _ d' _ ⟨hc, hkey, hacc, _⟩
  exact ⟨hc, hkey r.eventId rfl, hacc _ (by simp), hacc _ (by simp)⟩

theorem wp_postRevenue {t : Txn} {r : RevenueRecord} {d : LedgerDb} (h : LedgerFresh t d) :
    (ledgerLogic uuid5).wp t (fun _ d => Complete t d) (postRevenue uuid5 r) d := by
  refine wp_ensureAccount uuid5 [] h.transactions (by simp [AccountsVisible])
    fun d₁ _ hnone₁ hacc₁ => ?_
  refine wp_ensureAccount uuid5 _ hnone₁ hacc₁ fun d₂ _ hnone₂ hacc₂ => ?_
  refine wp_mono ?_ (wp_appendTransaction uuid5 _ hnone₂ hacc₂)
  exact fun _ d' _ h => h.1

theorem wp_reverseTransaction {t : Txn} {tenant original new description : String}
    {timestamp : DateTime} {uuid4 : Nat → String} {d : LedgerDb} (h : LedgerFresh t d) :
    (ledgerLogic uuid5).wp t (fun _ d => Complete t d)
      (reverseTransaction tenant original new timestamp description key uuid4) d := by
  refine wp_query_bind LedgerRely.refl fun d₁ _ hr => ?_
  have h₁ := h.rely hr
  split
  · exact wp_raise _
  · split
    · exact wp_raise _
    · split
      · exact wp_raise _
      · refine wp_mono ?_
          (wp_appendTransaction uuid5 [] h₁.transactions (by simp [AccountsVisible]))
        exact fun _ d' _ h => h.1

theorem ledger_sound : (ledgerLogic uuid5).Sound (ledgerProg uuid5) where
  refl := LedgerRely.refl
  trans := LedgerRely.trans
  fresh_rely _ hr h := h.rely hr
  ensures_rely _ hr h := by
    refine ⟨h.1.rely hr, fun r hcall => ?_⟩
    obtain ⟨⟨id, hid⟩, ⟨a, ha⟩, ⟨a', ha'⟩⟩ := h.2 r hcall
    exact ⟨⟨id, hr.idempotency_grows _ _ hid⟩, ⟨a, hr.accounts_grows _ _ ha⟩,
      ⟨a', hr.accounts_grows _ _ ha'⟩⟩
  undone_rely _ hr h := h.rely hr
  body := by
    intro t call d _ hi h
    cases call with
    | postUsage r =>
        refine wp_mono ?_ (wp_postUsage uuid5 h)
        rintro b d' - ⟨hc, hp⟩
        refine ⟨hc, fun r' hr' => ?_⟩
        cases hr'
        exact hp
    | postRevenue r =>
        exact wp_mono (fun b d' _ hc => ⟨hc, by simp⟩) (wp_postRevenue uuid5 h)
    | appendTransaction tenant txn key reversalOf =>
        exact wp_mono (fun b d' _ hc => ⟨hc.1, by simp⟩)
          (wp_appendTransaction uuid5 [] h.transactions (by simp [AccountsVisible]))
    | reverseTransaction tenant original new timestamp description key uuid4 =>
        exact wp_mono (fun b d' _ hc => ⟨hc, by simp⟩) (wp_reverseTransaction uuid5 h)
  commit := by
    intro t call b d hi ⟨hc, hp⟩
    exact ⟨⟨hi.commit hc, fun u hne => LedgerRely.commit hi hne⟩, LedgerFresh.commit t d, hp⟩
  rollback := by
    intro t d hi
    exact ⟨⟨hi.rollback, fun u hne => LedgerRely.rollback hne⟩, LedgerFresh.rollback t d⟩

theorem ledger_ok_init : (ledgerLogic uuid5).Ok LedgerSys.init where
  inv :=
    { accounts := insertOnly_empty
      transactions := insertOnly_empty
      idempotency := insertOnly_empty
      entries := insertOnly_empty
      entry_inflight := by intro k t e h; contradiction
      entry_committed := by intro k e h; contradiction
      balanced := by intro id r h; contradiction
      key_inflight := by intro id t r key h; contradiction
      key_committed := by intro id r key h; contradiction
      reversal_inflight := by intro id t r original h; contradiction
      reversal_committed := by intro id r original h; contradiction }
  procs t := ⟨by intro k v h; contradiction, by intro k v h; contradiction,
    by intro k v h; contradiction, by intro k v h; contradiction⟩

theorem ledger_ok {as : List (Action LedgerCall)} {s : LedgerSys}
    (h : run (ledgerProg uuid5) LedgerSys.init as = some s) : (ledgerLogic uuid5).Ok s :=
  (ledger_sound uuid5).run (ledger_ok_init uuid5)
    (everyStep_permits (fun _ => trivial) (fun _ _ _ => trivial) as) h

end Programs

end Anoryx.Delta
