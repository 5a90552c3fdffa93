import Anoryx.Delta.BankImport

/-!
# Anoryx.Delta.BankImportRuns

What imports do to the ledger: under any interleaving (`importLogic`), and one after the
other (`eval_runImport`).

The lock of the source makes the references that an import has looked up the references
that are there when it records its lines; every transaction that it has created is then
explained by exactly one of them.
-/

namespace Anoryx.Delta

open ReadCommitted ReferringTable Logic Table

/-! ## what is imported of a source -/

/-- What a session finds of a source. -/
abbrev sourceRows (sourceId : String) (t : Txn) (d : ImportDb) : Multiset (String × ImportedLineRow) :=
  d.rows.table.rowsOf (d.rows.table.visible t) (ofSource sourceId)

def importedHashes (rows : Multiset (String × ImportedLineRow)) : Multiset String :=
  rows.filterMap fun p => p.2.importedHash

/-- The rows of a source: they are of its tenant, and import no reference twice. -/
structure ImportedOnce (sources : String → Option BankSourceRow) (sourceId : String)
    (rows : Multiset (String × ImportedLineRow)) : Prop where
  tenant : ∀ p ∈ rows, ∃ source, sources sourceId = some source ∧ source.tenantId = p.2.tenantId
  once : (importedHashes rows).Nodup

structure Explains (row : ImportedLineRow) (target : PersonalTransactionRow) : Prop where
  tenant : target.tenantId = row.tenantId
  createdAt : target.createdAt = row.createdAt
  source : target.source = .statement

def IsStatement (target : PersonalTransactionRow) : Prop := target.source = .statement

/-- A reference that has been imported. -/
def Known (tenantId sourceId : String) (read : String → Option ImportedLineRow) (lineHash : String) : Prop :=
  ∃ k row, read k = some row ∧ row.tenantId = tenantId ∧ row.sourceId = sourceId ∧
    row.importedHash = some lineHash

variable {row row' : ImportedLineRow} {t : Txn} {k k' accountId currency : String}
  {read read' : String → Option ImportedLineRow} {hashes already : List String} {decision : String × LineOutcome}
  {lines : List StatementLine} {pass pass' : Pass} {views : List LineOutcomeView} {source source' : BankSourceRow}
  {req' req req₁ req₂ : ImportRequest} {result result' : ImportResultView} {decided : List (String × LineOutcome)}

theorem ofSource_iff {sourceId : String} :
    ofSource sourceId row = true ↔ row.sourceId = sourceId := decide_eq_true_iff

variable {d : ImportDb}

theorem mem_sourceRows {sourceId : String} :
    (k, row) ∈ sourceRows sourceId t d ↔ d.rows.table.visible t k = some row ∧ row.sourceId = sourceId := by
  rw [sourceRows, Multiset.mem_coe, mem_rowsOf (d.rows.table.reads_visible t), ofSource_iff]

theorem mem_importedHashes {rows : Multiset (String × ImportedLineRow)} {lineHash : String} :
    lineHash ∈ importedHashes rows ↔ ∃ p ∈ rows, p.2.importedHash = some lineHash :=
  Multiset.mem_filterMap _ _

theorem importedHashes_cons (p : String × ImportedLineRow) (rows : Multiset (String × ImportedLineRow)) :
    importedHashes (p ::ₘ rows) = (p.2.importedHash.toList : Multiset String) + importedHashes rows := by
  unfold importedHashes
  cases h : p.2.importedHash with
  | none =>
      rw [Multiset.filterMap_cons_none (f := fun p : String × ImportedLineRow => p.2.importedHash) _ _ h,
        Option.toList_none, Multiset.coe_nil, Multiset.zero_add]
  | some lineHash =>
      rw [Multiset.filterMap_cons_some (fun p : String × ImportedLineRow => p.2.importedHash) _ _ h]
      rfl

variable {tenantId sourceId lineHash : String}

theorem Known.finds (hfinds : Finds read read') (h : Known tenantId sourceId read lineHash) :
    Known tenantId sourceId read' lineHash := by
  obtain ⟨k, row, hrow, hrest⟩ := h
  exact ⟨k, row, hfinds k row hrow, hrest⟩

theorem known_iff :
    Known tenantId sourceId (d.rows.table.visible t) lineHash ↔
      ∃ p ∈ sourceRows sourceId t d, p.2.tenantId = tenantId ∧ p.2.importedHash = some lineHash := by
  constructor
  · rintro ⟨k, row, hvisible, htenant, hsource, hhash⟩
    exact ⟨(k, row), mem_sourceRows.mpr ⟨hvisible, hsource⟩, htenant, hhash⟩
  · rintro ⟨⟨k, row⟩, hmem, htenant, hhash⟩
    obtain ⟨hvisible, hsource⟩ := mem_sourceRows.mp hmem
    exact ⟨k, row, hvisible, htenant, hsource, hhash⟩

theorem mem_importedHashesForSource : lineHash ∈ importedHashesForSource tenantId sourceId hashes t d ↔
      lineHash ∈ hashes ∧ Known tenantId sourceId (d.rows.table.visible t) lineHash := by
  rw [importedHashesForSource, List.mem_filter, decide_eq_true_iff, List.mem_filterMap, and_comm]
  refine and_congr_right fun _ => ⟨?_, ?_⟩
  · rintro ⟨⟨k, row⟩, hmem, himported⟩
    obtain ⟨hvisible, hsource⟩ := mem_sourceRows.mp (Multiset.mem_coe.mpr hmem)
    obtain ⟨htenant, hhash⟩ := Option.ite_none_right_eq_some.mp himported
    exact ⟨k, row, hvisible, htenant, hsource, hhash⟩
  · rintro ⟨k, row, hvisible, htenant, hsource, hhash⟩
    exact ⟨(k, row), Multiset.mem_coe.mp (mem_sourceRows.mpr ⟨hvisible, hsource⟩), by simp [htenant, hhash]⟩

theorem eq_of_importedHash {sourceId lineHash : String} (h : (importedHashes (sourceRows sourceId t d)).Nodup)
    (hrow : d.rows.table.visible t k = some row) (hrow' : d.rows.table.visible t k' = some row')
    (hsource : row.sourceId = sourceId) (hsource' : row'.sourceId = sourceId)
    (hhash : row.importedHash = some lineHash) (hhash' : row'.importedHash = some lineHash) : k = k' := by
  by_contra hne
  have hmem := mem_sourceRows.mpr ⟨hrow, hsource⟩
  have hmem' := mem_sourceRows.mpr ⟨hrow', hsource'⟩
  obtain ⟨rest, hrest⟩ := Multiset.exists_cons_of_mem hmem
  have hin : (k', row') ∈ rest := by
    rw [hrest] at hmem'
    exact (Multiset.mem_cons.mp hmem').resolve_left fun he => hne (congrArg Prod.fst he).symm
  rw [hrest, importedHashes_cons, hhash] at h
  exact (Multiset.nodup_cons.mp h).1 (mem_importedHashes.mpr ⟨(k', row'), hin, hhash'⟩)

/-! ## one import among others -/

section Schedule

variable {sha256 : ByteArray → String} {hashtext : String → Int} {sources : String → Option BankSourceRow}
  {accounts : String → Option PersonalAccountRow}

/-- The account that a request imports into. -/
def accountOf (sources : String → Option BankSourceRow) (accounts : String → Option PersonalAccountRow)
    (req : ImportRequest) : Option PersonalAccountRow :=
  (getSource sources req.tenantId req.sourceId).bind fun source => getAccount accounts req.tenantId source.accountId

/-- What a committed import has left: counters that add up, its lines with their outcomes, and
every line in the currency of the account among the references that have been imported. -/
structure Recorded (sha256 : ByteArray → String) (sources : String → Option BankSourceRow)
    (accounts : String → Option PersonalAccountRow) (_ : Txn) (req : ImportRequest) (result : ImportResultView)
    (read : String → Option ImportedLineRow) : Prop where
  counted : result.recordsSupplied =
    result.recordsImported + result.recordsSkippedDuplicate + result.recordsRejected
  lines : ∀ view ∈ result.lines,
    read view.lineId = some (req.row (view.externalReferenceHash, view.outcome))
  imported : result.recordsImported = (result.lines.filter fun view => view.outcome.txnId.isSome).length
  known : ∃ account, accountOf sources accounts req = some account ∧
    ∀ line ∈ req.lines, line.currency = account.currency →
      Known req.tenantId req.sourceId read (line.hash sha256)

abbrev Imports (hashtext : String → Int) (sources : String → Option BankSourceRow) : ImportDb → Prop :=
  Consistent (ImportedOnce sources) ofSource hashtext ImportedLineRow.txnId Explains IsStatement

abbrev importLogic (sha256 : ByteArray → String) (hashtext : String → Int)
    (sources : String → Option BankSourceRow) (accounts : String → Option PersonalAccountRow) :
    Logic ImportDb ImportRequest ImportResultView :=
  logic (ImportedOnce sources) ofSource hashtext ImportedLineRow.txnId Explains IsStatement
    (Recorded sha256 sources accounts)

def OwesLines (req : ImportRequest) (decided : List (String × LineOutcome)) (t : Txn) (d : ImportDb) : Prop :=
  ∃ owed, Owes ImportedLineRow.txnId t owed d ∧
    owed.map Prod.fst = decided.filterMap (fun p => p.2.txnId) ∧
      ∀ p ∈ owed, ∀ decision, Explains (req.row decision) p.2

variable {req : ImportRequest} {t : Txn} {decided : List (String × LineOutcome)}

theorem OwesLines.rely {d d' : ImportDb}
    (hr : Relies ofSource hashtext t d d') (h : OwesLines req decided t d) :
    OwesLines req decided t d' := by
  obtain ⟨owed, howes, hrest⟩ := h
  exact ⟨owed, howes.rely hr, hrest⟩

/-- Between two lines of the first pass: the lock is held, and so the source is as it was. -/
structure Deciding (hashtext : String → Int) (req : ImportRequest) (rows : Multiset (String × ImportedLineRow))
    (t : Txn) (decided : List (String × LineOutcome)) (d : ImportDb) : Prop where
  lock : d.rows.locks (hashtext req.sourceId) = some t
  rows_eq : sourceRows req.sourceId t d = rows
  owes : OwesLines req decided t d

variable {rows : Multiset (String × ImportedLineRow)}

theorem Deciding.rely
    {d d' : ImportDb} (hr : Relies ofSource hashtext t d d')
    (h : Deciding hashtext req rows t decided d) : Deciding hashtext req rows t decided d' where
  lock := hr.rows.locks _ h.lock
  rows_eq := (Multiset.coe_eq_coe.mpr (hr.rows.rowsOf_perm h.lock)).symm.trans h.rows_eq
  owes := h.owes.rely hr

theorem Deciding.silent {d : ImportDb} (h : Deciding hashtext req rows t decided d) (hnone : decision.2.txnId = none) :
    Deciding hashtext req rows t (decided ++ [decision]) d := by
  obtain ⟨owed, howes, hids, hexplains⟩ := h.owes
  exact ⟨h.lock, h.rows_eq, owed, howes, by simp [hids, hnone], hexplains⟩

/-- **The first pass.** -/
theorem wp_decideLines {d : ImportDb} (h : Deciding hashtext req rows t pass.decided d) :
    (importLogic sha256 hashtext sources accounts).wp t
      (fun pass' d' => Deciding hashtext req rows t pass'.decided d')
      (decideLines sha256 req accountId currency already lines pass) d := by
  induction lines generalizing pass d with
  | nil => exact fun d' _ hr => h.rely hr
  | cons line lines ih =>
      by_cases hknown : line.hash sha256 ∈ already ∨ line.hash sha256 ∈ pass.seenInBatch
      · simp only [decideLines, hknown, if_true]
        have hskip : Deciding hashtext req rows t (pass.skip (line.hash sha256)).decided d := h.silent rfl
        exact ih hskip
      by_cases hcurrency : line.currency ≠ currency
      · simp only [decideLines, hknown, hcurrency, ne_eq, not_false_eq_true, if_true, if_false]
        have hreject : Deciding hashtext req rows t (pass.reject (line.hash sha256)).decided d := h.silent rfl
        exact ih hreject
      simp only [decideLines, hknown, hcurrency, if_false]
      refine wp_inserting_bind fun d₁ h₁ hr₁ b d₂ hins _ => ?_
      obtain ⟨h₂, hmoves, hrows, howed⟩ := Consistent.insertTarget h₁ hins
      refine ⟨⟨h₂, hmoves.relies⟩, fun hb => ih ?_⟩
      obtain ⟨owed, howes, hids, hexplains⟩ := (h.rely hr₁).owes
      refine ⟨hmoves.locks _ (h.rely hr₁).lock, ?_, _, howed hb owed howes, ?_, ?_⟩
      · rw [← (h.rely hr₁).rows_eq, sourceRows, hrows]
      · simp [Pass.importLine, hids, LineOutcome.txnId]
      · intro p hp decision
        rcases List.mem_append.mp hp with hp | hp
        · exact hexplains p hp decision
        · rw [List.mem_singleton.mp hp]
          exact ⟨rfl, rfl, rfl⟩

/-- Between two lines of the second pass: what is still to be recorded is not there yet. -/
structure Recording (hashtext : String → Int) (req : ImportRequest) (t : Txn) (rest : List (String × LineOutcome))
    (d : ImportDb) : Prop where
  lock : d.rows.locks (hashtext req.sourceId) = some t
  once : (importedHashes (sourceRows req.sourceId t d) + (rest.filterMap decidedHash : Multiset String)).Nodup
  owes : OwesLines req rest t d

variable {rest : List (String × LineOutcome)}

theorem Recording.rely {d d' : ImportDb}
    (hr : Relies ofSource hashtext t d d') (h : Recording hashtext req t rest d) :
    Recording hashtext req t rest d' where
  lock := hr.rows.locks _ h.lock
  once := by
    have hrows : sourceRows req.sourceId t d = sourceRows req.sourceId t d' :=
      Multiset.coe_eq_coe.mpr (hr.rows.rowsOf_perm h.lock)
    exact hrows ▸ h.once
  owes := h.owes.rely hr

/-- What the second pass leaves. -/
structure Written (req : ImportRequest) (t : Txn) (before : ImportDb) (views : List LineOutcomeView)
    (d : ImportDb) : Prop where
  owes : Owes ImportedLineRow.txnId t [] d
  finds : Finds (before.rows.table.visible t) (d.rows.table.visible t)
  lines : ∀ view ∈ views,
    d.rows.table.visible t view.lineId = some (req.row (view.externalReferenceHash, view.outcome))

theorem Written.rely {before d d' : ImportDb} (hd : Imports hashtext sources d')
    (hr : Relies ofSource hashtext t d d') (h : Written req t before views d) :
    Written req t before views d' where
  owes := h.owes.rely hr
  finds k row hrow := hr.visible hd.guarded.insertOnly (h.finds k row hrow)
  lines view hview := hr.visible hd.guarded.insertOnly (h.lines view hview)

theorem settles_row {owed : List (String × PersonalTransactionRow)}
    (hids : owed.map Prod.fst = (decision :: rest).filterMap fun p => p.2.txnId)
    (hexplains : ∀ p ∈ owed, ∀ decision, Explains (req.row decision) p.2) :
    ∃ left, ReferringTable.Settles ImportedLineRow.txnId Explains (req.row decision) owed left ∧
      left.map Prod.fst = rest.filterMap (fun p => p.2.txnId) ∧
        ∀ p ∈ left, ∀ decision, Explains (req.row decision) p.2 := by
  cases hid : decision.2.txnId with
  | none =>
      simp only [List.filterMap_cons, hid] at hids
      exact ⟨owed, .inl ⟨hid, rfl⟩, hids, hexplains⟩
  | some txnId =>
      simp only [List.filterMap_cons, hid] at hids
      cases owed with
      | nil => contradiction
      | cons p left =>
          obtain ⟨hhead, htail⟩ := List.cons.inj hids
          exact ⟨left, .inr ⟨p.1, p.2, hhead ▸ hid, hexplains p List.mem_cons_self decision, rfl⟩, htail,
            fun q hq => hexplains q (List.mem_cons_of_mem _ hq)⟩

/-- **The second pass.** -/
theorem wp_createLines {i : Nat} {d : ImportDb} (hd : Imports hashtext sources d)
    (hsource : getSource sources req.tenantId req.sourceId = some source) (h : Recording hashtext req t rest d) :
    (importLogic sha256 hashtext sources accounts).wp t (fun views d' => Written req t d views d')
      (createLines req i rest) d := by
  induction rest generalizing i d with
  | nil =>
      obtain ⟨owed, howes, hids, -⟩ := h.owes
      obtain rfl : owed = [] := List.map_eq_nil_iff.mp hids
      have hwritten : Written req t d [] d := ⟨howes, fun _ _ hrow => hrow, fun _ hview => absurd hview List.not_mem_nil⟩
      exact fun d' h' hr => hwritten.rely h' hr
  | cons decision rest ih =>
      refine wp_inserting_bind fun d₁ h₁ hr₁ b d₂ hins _ => ?_
      have hrec := h.rely hr₁
      obtain ⟨owed, howes, hids, hexplains⟩ := hrec.owes
      have hrest : importedHashes ((req.lineId i, req.row decision) ::ₘ sourceRows req.sourceId t d₁) +
          (rest.filterMap decidedHash : Multiset String) = importedHashes (sourceRows req.sourceId t d₁) +
          ((decision :: rest).filterMap decidedHash : Multiset String) := by
        rw [importedHashes_cons, show (req.row decision).importedHash = decidedHash decision from rfl,
          List.filterMap_cons]
        cases decidedHash decision with
        | none => simp
        | some lineHash =>
            rw [Option.toList_some, ← Multiset.cons_coe, ← Multiset.cons_coe, Multiset.coe_nil,
              Multiset.cons_add, Multiset.zero_add, Multiset.cons_add, Multiset.add_cons]
      obtain ⟨left, hsettles, hleft⟩ := settles_row hids hexplains
      have hrow : ∀ sourceId, ofSource sourceId (req.row decision) = true → ImportedOnce sources sourceId
          ((req.lineId i, req.row decision) ::ₘ sourceRows sourceId t d₁) := by
        intro sourceId hof
        obtain rfl : req.sourceId = sourceId := ofSource_iff.mp hof
        have hold : ImportedOnce sources req.sourceId (sourceRows req.sourceId t d₁) :=
          h₁.guarded.visible t req.sourceId
        obtain ⟨hfound, htenant⟩ := Option.filter_eq_some_iff.mp hsource
        refine ⟨fun p hp => ?_, Multiset.nodup_of_le ?_ hrec.once⟩
        · rcases Multiset.mem_cons.mp hp with rfl | hp
          · exact ⟨source, hfound, of_decide_eq_true htenant⟩
          · exact hold.tenant p hp
        · exact hrest ▸ Multiset.le_add_right _ _
      obtain ⟨h₂, hmoves, htargets, hdone⟩ := Consistent.insert h₁ hins
        (fun sourceId hof => by rw [← ofSource_iff.mp hof]; exact hrec.lock) hrow howes hsettles
      refine ⟨⟨h₂, hmoves.relies⟩, fun hb => ?_⟩
      obtain ⟨howes₂, hvisible, hnew⟩ := hdone hb
      have hrec₂ : Recording hashtext req t rest d₂ := by
        refine ⟨hmoves.locks _ hrec.lock, ?_, left, howes₂, hleft⟩
        have hrows : sourceRows req.sourceId t d₂ =
            (req.lineId i, req.row decision) ::ₘ sourceRows req.sourceId t d₁ :=
          Multiset.coe_eq_coe.mpr (hnew req.sourceId (ofSource_iff.mpr rfl))
        rw [hrows, hrest]
        exact hrec.once
      refine wp_bind (Relies.refl t) h₂ (wp_mono (fun views d₃ h₃ hviews => ?_) (ih h₂ hrec₂))
      refine fun d₄ h₄ hr₄ => Written.rely h₄ hr₄ ⟨hviews.owes, fun k row hk => ?_, fun view hview => ?_⟩
      · exact hviews.finds k row (hmoves.visible k row (hr₁.visible h₁.guarded.insertOnly hk))
      · rcases List.mem_cons.mp hview with rfl | hview
        · exact hviews.finds _ _ hvisible
        · exact hviews.lines view hview

theorem length_filterMap_decidedHash (views : List LineOutcomeView) :
    ((views.map fun view => (view.externalReferenceHash, view.outcome)).filterMap decidedHash).length =
      (views.filter fun view => view.outcome.txnId.isSome).length := by
  induction views with
  | nil => rfl
  | cons view views ih =>
      rw [List.map_cons, List.filterMap_cons, List.filter_cons]
      cases h : view.outcome.txnId with
      | none => simpa [decidedHash, h] using ih
      | some txnId => simpa [decidedHash, h] using ih

/-- What the import of a list is sure of: the references known before it are found. -/
structure Fresh (sha256 : ByteArray → String) (sources : String → Option BankSourceRow)
    (accounts : String → Option PersonalAccountRow) (req : ImportRequest) (result : ImportResultView)
    (before : ImportDb) : Prop where
  imported : ∀ account, accountOf sources accounts req = some account → ∃ already,
    (∀ line ∈ req.lines, Known req.tenantId req.sourceId before.rows.table.committed (line.hash sha256) →
      line.hash sha256 ∈ already) ∧
    result.recordsImported = (importedLines sha256 account.currency already req.lines).length

theorem recording_of_deciding {d₀ d : ImportDb} (hd₀ : Imports hashtext sources d₀)
    (hsource : getSource sources req.tenantId req.sourceId = some source)
    (hdeciding : Deciding hashtext req (sourceRows req.sourceId t d₀) t pass.decided d) (hcounted : pass.Counted)
    (hseen : pass.seenInBatch = (importedLines sha256 currency (importedHashesForSource req.tenantId req.sourceId
      (req.lines.map (StatementLine.hash sha256)) t d₀) req.lines).map (StatementLine.hash sha256)) :
    Recording hashtext req t pass.decided d := by
  refine ⟨hdeciding.lock, ?_, hdeciding.owes⟩
  rw [hdeciding.rows_eq, hcounted.seen, hseen, Multiset.nodup_add]
  have hrows := hd₀.guarded.visible t req.sourceId
  obtain ⟨hfound, htenant⟩ := Option.filter_eq_some_iff.mp hsource
  refine ⟨hrows.once, (nodup_importedLines _ _).1, Multiset.disjoint_left.mpr @fun lineHash hold hnew => ?_⟩
  obtain ⟨line, hline, rfl⟩ := List.mem_map.mp (Multiset.mem_coe.mp hnew)
  obtain ⟨hmem, hunknown⟩ := (nodup_importedLines _ _).2 line hline
  -- an imported reference of the source has been looked up
  obtain ⟨⟨k, row⟩, hrow, hhash⟩ := mem_importedHashes.mp hold
  obtain ⟨hvisible, hsourceId⟩ := mem_sourceRows.mp hrow
  obtain ⟨source', hfound', htenant'⟩ := hrows.tenant _ hrow
  obtain rfl : source = source' := Option.some.inj (hfound.symm.trans hfound')
  exact hunknown (mem_importedHashesForSource.mpr ⟨List.mem_map_of_mem hmem, k, row, hvisible,
    htenant'.symm.trans (of_decide_eq_true htenant), hsourceId, hhash⟩)

/-- **One import**, from any database in which no reference was imported twice. -/
theorem wp_runImport {d : ImportDb}
    (hfresh : ∀ x target, d.targets.inflight x ≠ some (t, target)) :
    (importLogic sha256 hashtext sources accounts).wp t
      (fun result d' => (Owes ImportedLineRow.txnId t [] d' ∧
        Recorded sha256 sources accounts t req result (d'.rows.table.visible t)) ∧
          Fresh sha256 sources accounts req result d)
      (runImport sha256 hashtext sources accounts req) d := by
  have howes : Owes ImportedLineRow.txnId t [] d := owes_nil hfresh
  refine wp_query_bind Relies.refl fun d₁ h₁ hr₁ => ?_
  split
  case h_1 => trivial
  next source hsource =>
  refine wp_query_bind Relies.refl fun d₂ h₂ hr₂ => ?_
  split
  case h_1 => trivial
  next account haccount =>
  have haccountOf : accountOf sources accounts req = some account := by
    rw [accountOf, hsource]
    exact haccount
  refine wp_exec_bind fun d₃ h₃ hr₃ _ d₄ hlocked _ => ?_
  obtain ⟨h₄, hrelies, hlock⟩ := Consistent.advisoryXactLock h₃ hlocked
  refine ⟨⟨h₄, fun u _ => hrelies u⟩, wp_query_bind Relies.refl fun d₅ h₅ hr₅ => ?_⟩
  have hr : Relies ofSource hashtext t d d₅ :=
    (((hr₁.trans hr₂).trans hr₃).trans (hrelies t)).trans hr₅
  have hstart : Deciding hashtext req (sourceRows req.sourceId t d₅) t Pass.start.decided d₅ :=
    ⟨hr₅.rows.locks _ hlock, rfl, [], howes.rely hr, rfl, fun p hp => absurd hp List.not_mem_nil⟩
  refine wp_bind (Relies.refl t) h₅ (wp_mono (fun pass d₆ h₆ hpass => ?_)
    (wp_and_returns (decideLines_returns Pass.counted_start) (wp_decideLines hstart)))
  obtain ⟨hdeciding, hcounted, hlength, hseen⟩ := hpass
  simp only [Pass.start, List.append_nil, List.nil_append, List.length_nil, Nat.zero_add] at hlength hseen
  have hrecording := recording_of_deciding h₅ hsource hdeciding hcounted hseen
  refine wp_bind (Relies.refl t) h₆ (wp_mono (fun views d₇ h₇ hviews => ?_)
    (wp_and_returns createLines_returns (wp_createLines h₆ hsource hrecording)))
  obtain ⟨hwritten, hdecided⟩ := hviews
  intro d₈ h₈ hr₈
  have hfinal := hwritten.rely h₈ hr₈
  have hseen' := hcounted.seen.trans hseen
  refine ⟨⟨hfinal.owes, ?_, hfinal.lines, ?_, account, haccountOf, fun line hline hcurrency => ?_⟩,
    ⟨fun account' haccount' => ?_⟩⟩
  · rw [ImportRequest.result, ← hlength, hcounted.decided]
  · rw [ImportRequest.result, hcounted.imported, ← hcounted.seen, ← hdecided, length_filterMap_decidedHash]
  · rcases known_of_importedLines _ hline hcurrency with hknown | hnew
    · obtain ⟨-, hknown⟩ := mem_importedHashesForSource.mp hknown
      refine Known.finds hfinal.finds (known_iff.mpr ?_)
      rw [hdeciding.rows_eq]
      exact known_iff.mp hknown
    · rw [← hseen', ← hdecided] at hnew
      obtain ⟨decision, hmem, hhash⟩ := List.mem_filterMap.mp hnew
      obtain ⟨view, hview, rfl⟩ := List.mem_map.mp hmem
      exact ⟨view.lineId, _, hfinal.lines view hview, rfl, rfl, hhash⟩
  · obtain rfl : account = account' := Option.some.inj (haccountOf.symm.trans haccount')
    refine ⟨importedHashesForSource req.tenantId req.sourceId (req.lines.map (StatementLine.hash sha256)) t d₅,
      fun line hline hknown => mem_importedHashesForSource.mpr ⟨List.mem_map_of_mem hline, ?_⟩, ?_⟩
    · exact Known.finds (h₅.finds_committed t) (Known.finds hr.grows hknown)
    · rw [ImportRequest.result, hcounted.imported, hseen, List.length_map]

theorem importLogic_sound :
    (importLogic sha256 hashtext sources accounts).Sound (runImport sha256 hashtext sources accounts) := by
  refine logic_sound (fun t req result read read' hfinds h => ?_) fun t req d _ hfresh =>
    wp_mono (fun _ _ _ h => h.1) (wp_runImport hfresh)
  obtain ⟨account, haccount, hknown⟩ := h.known
  exact ⟨h.counted, fun view hview => hfinds _ _ (h.lines view hview), h.imported, account, haccount,
    fun line hline hcurrency => (hknown line hline hcurrency).finds hfinds⟩

/-- The lines of an import, all known to the database. -/
def AllKnown (sha256 : ByteArray → String) (req : ImportRequest) (account : PersonalAccountRow) (d : ImportDb) :
    Prop :=
  ∀ line ∈ req.lines, line.currency = account.currency →
    Known req.tenantId req.sourceId d.rows.table.committed (line.hash sha256)

/-- The same lines for the same source once more. -/
structure SameImport (req req' : ImportRequest) : Prop where
  sourceId : req'.sourceId = req.sourceId
  lines : req'.lines = req.lines

variable {account : PersonalAccountRow}

theorem accountOf_eq_some
    (h : accountOf sources accounts req = some account) :
    ∃ source, sources req.sourceId = some source ∧ source.tenantId = req.tenantId ∧
      getAccount accounts req.tenantId source.accountId = some account := by
  obtain ⟨source, hsource, haccount⟩ := Option.bind_eq_some_iff.mp h
  obtain ⟨hfound, htenant⟩ := Option.filter_eq_some_iff.mp hsource
  exact ⟨source, hfound, of_decide_eq_true htenant, haccount⟩

theorem imports_nothing {req : ImportRequest} {d : ImportDb} (hsame : SameImport req req')
    (haccount : accountOf sources accounts req = some account) (hknown : AllKnown sha256 req account d)
    (hrecorded : Recorded sha256 sources accounts t req' result read)
    (hfresh : Fresh sha256 sources accounts req' result d) : result.recordsImported = 0 := by
  obtain ⟨account', haccount', -⟩ := hrecorded.known
  obtain ⟨source, hsource, htenant, hof⟩ := accountOf_eq_some haccount
  obtain ⟨source', hsource', htenant', hof'⟩ := accountOf_eq_some haccount'
  obtain rfl : source = source' := Option.some.inj (hsource.symm.trans (hsame.sourceId ▸ hsource'))
  have htenants : req'.tenantId = req.tenantId := htenant'.symm.trans htenant
  obtain rfl : account = account' := Option.some.inj (hof.symm.trans (htenants ▸ hof'))
  obtain ⟨already, halready, himported⟩ := hfresh.imported account haccount'
  rw [himported, importedLines_eq_nil, List.length_nil]
  intro line hline
  by_cases hcurrency : line.currency = account.currency
  · refine .inl (halready line hline ?_)
    rw [htenants, hsame.sourceId]
    exact hknown line (hsame.lines ▸ hline) hcurrency
  · exact .inr hcurrency

theorem stable_allKnown :
    (importLogic sha256 hashtext sources accounts).Stable (AllKnown sha256 req account) :=
  fun _ _ _ _ hr hknown line hline hcurrency => (hknown line hline hcurrency).finds hr.grows

/-- **A list that comes again**, in whatever company: nothing of it is imported. -/
theorem reimport {req : ImportRequest} {t t' : Txn} {schedule : List (Action ImportRequest)}
    {s s' : Sys ImportDb ImportError ImportRequest ImportResultView}
    (hok : (importLogic sha256 hashtext sources accounts).Ok s) (hdone : s.procs t = .committed req result)
    (hidle : s.procs t' = .idle) (hsame : SameImport req req')
    (hrun : run (runImport sha256 hashtext sources accounts) s schedule = some s')
    (hdone' : s'.procs t' = .committed req' result') : result'.recordsImported = 0 := by
  have hrecorded := hok.procs t
  rw [hdone] at hrecorded
  obtain ⟨account, haccount, hknown⟩ := hrecorded.known
  let again (req' : ImportRequest) (result' : ImportResultView) : Prop :=
    SameImport req req' → result'.recordsImported = 0
  have hstable : (importLogic sha256 hashtext sources accounts).Stable (AllKnown sha256 req account) :=
    stable_allKnown
  have hsound : (((importLogic sha256 hashtext sources accounts).given (AllKnown sha256 req account)).also t'
      again).Sound (runImport sha256 hashtext sources accounts) :=
    (importLogic_sound.given hstable).also fun req' d hd hfresh =>
      wp_mono (fun result' d' _ h hsame => imports_nothing hsame haccount hd.2 h.1.2 h.2)
        (wp_given hstable hd.2 (wp_runImport hfresh))
  have hok' := hsound.run ((hok.given hstable hknown).also hidle)
    (everyStep_permits (fun _ => trivial) (fun _ _ _ => trivial) schedule) hrun
  have hproc := hok'.procs t'
  rw [hdone'] at hproc
  exact hproc.2 rfl hsame

end Schedule

/-! ## imports one after the other -/

section Alone

variable {sha256 : ByteArray → String} {hashtext : String → Int} {sources : String → Option BankSourceRow}
  {accounts : String → Option PersonalAccountRow}

/-- A transaction but for its id and the moment at which it was written. -/
def PersonalTransactionRow.contents (row : PersonalTransactionRow) : PersonalTransactionRow :=
  { row with createdAt := 0 }

/-- The transactions that have come to the ledger. -/
structure Creates (d d' : ImportDb) (new : List (String × PersonalTransactionRow)) : Prop where
  free : ∀ p ∈ new, d.targets.committed p.1 = none
  distinct : (new.map Prod.fst).Nodup
  committed : ∀ txnId target, d'.targets.committed txnId = some target ↔
    d.targets.committed txnId = some target ∨ (txnId, target) ∈ new

theorem eval_decideLines {d d' : ImportDb}
    (h : (decideLines sha256 req accountId currency already lines pass).eval t d = some (.ok pass', d')) :
    d'.rows = d.rows ∧ ∃ new, Adds t d.targets d'.targets new ∧ new.map (fun p => p.2.contents) =
      (importedLines sha256 currency (already ++ pass.seenInBatch) lines).map
        fun line => (req.transaction accountId line).contents := by
  induction lines generalizing pass d with
  | nil =>
      cases h
      exact ⟨rfl, [], Adds.refl t _, rfl⟩
  | cons line lines ih =>
      by_cases hknown : line.hash sha256 ∈ already ∨ line.hash sha256 ∈ pass.seenInBatch
      · simp only [decideLines, hknown, if_true] at h
        simp only [importedLines, List.mem_append, hknown, true_or, if_true]
        exact @ih (pass.skip (line.hash sha256)) d h
      by_cases hcurrency : line.currency ≠ currency
      · simp only [decideLines, hknown, hcurrency, ne_eq, not_false_eq_true, if_true, if_false] at h
        simp only [importedLines, List.mem_append, hcurrency, ne_eq, not_false_eq_true, or_true, if_true]
        exact @ih (pass.reject (line.hash sha256)) d h
      simp only [decideLines, hknown, hcurrency, if_false] at h
      simp only [importedLines, List.mem_append, hknown, hcurrency, or_self, if_false]
      obtain ⟨d₁, hins, hrest⟩ := Prog.eval_inserting_bind_eq_ok h
      obtain ⟨⟨b, targets⟩, hadd, he⟩ := Option.map_eq_some_iff.mp hins
      obtain ⟨rfl, rfl⟩ := Prod.mk.inj he
      obtain ⟨hrows, new, hnew, hcontents⟩ := ih hrest
      refine ⟨hrows, _, (Adds.insert hadd).trans hnew, ?_⟩
      rw [List.singleton_append, List.map_cons, List.map_cons, hcontents, List.append_assoc]
      rfl

theorem eval_createLines {i : Nat} {d d' : ImportDb} (h : (createLines req i decided).eval t d = some (.ok views, d')) :
    d'.targets = d.targets ∧ ∃ new, Adds t d.rows.table d'.rows.table new ∧
      new.map Prod.snd = decided.map req.row := by
  induction decided generalizing i views d with
  | nil =>
      cases h
      exact ⟨rfl, [], Adds.refl t _, rfl⟩
  | cons decision decided ih =>
      obtain ⟨d₁, hins, hrest⟩ := Prog.eval_inserting_bind_eq_ok h
      obtain ⟨⟨b, rows⟩, hadd, he⟩ := Option.map_eq_some_iff.mp hins
      obtain ⟨rfl, rfl⟩ := Prod.mk.inj he
      obtain ⟨⟨b', table⟩, hinsert, he'⟩ := Option.map_eq_some_iff.mp hadd
      obtain ⟨rfl, rfl⟩ := Prod.mk.inj he'
      obtain ⟨views', d₂, hviews, hpure⟩ := Prog.eval_bind_eq_ok.mp hrest
      obtain ⟨-, rfl⟩ := Prod.mk.inj (Option.some.inj hpure)
      obtain ⟨htargets, new, hnew, hnewRows⟩ := ih hviews
      exact ⟨htargets, _, (Adds.insert hinsert).trans hnew, by
        rw [List.singleton_append, List.map_cons, hnewRows, List.map_cons]⟩

theorem known_adds {tbl tbl' : Table String ImportedLineRow} {new : List (String × ImportedLineRow)}
    (h : Adds t tbl tbl' new) (hnew : new.map Prod.snd = decided.map req.row) (lineHash : String) :
    Known req.tenantId req.sourceId (tbl'.visible t) lineHash ↔
      Known req.tenantId req.sourceId (tbl.visible t) lineHash ∨ lineHash ∈ decided.filterMap decidedHash := by
  constructor
  · rintro ⟨k, row, hvisible, htenant, hsource, hhash⟩
    rcases (h.visible k row).mp hvisible with hold | hmem
    · exact .inl ⟨k, row, hold, htenant, hsource, hhash⟩
    · have hrow : row ∈ decided.map req.row := hnew ▸ List.mem_map.mpr ⟨_, hmem, rfl⟩
      obtain ⟨decision, hdecision, rfl⟩ := List.mem_map.mp hrow
      exact .inr (List.mem_filterMap.mpr ⟨decision, hdecision, hhash⟩)
  · rintro (⟨k, row, hvisible, hrest⟩ | hmem)
    · exact ⟨k, row, (h.visible k row).mpr (.inl hvisible), hrest⟩
    · obtain ⟨decision, hdecision, hhash⟩ := List.mem_filterMap.mp hmem
      have hrow : req.row decision ∈ new.map Prod.snd := hnew ▸ List.mem_map_of_mem hdecision
      obtain ⟨⟨k, row⟩, hin, hrow⟩ := List.mem_map.mp hrow
      obtain rfl : row = req.row decision := hrow
      exact ⟨k, req.row decision, (h.visible k _).mpr (.inr hin), rfl, rfl, hhash⟩

/-- What an import leaves that has run alone. -/
structure RanAlone (sha256 : ByteArray → String) (sources : String → Option BankSourceRow)
    (accounts : String → Option PersonalAccountRow) (t : Txn) (req : ImportRequest) (d d' : ImportDb) : Prop where
  quiet : d'.rows.table.Quiet
  quietTransactions : d'.targets.Quiet
  ran : ∃ source account, getSource sources req.tenantId req.sourceId = some source ∧
    getAccount accounts req.tenantId source.accountId = some account ∧ ∃ new already, Creates d d' new ∧
      (∀ line ∈ req.lines, line.hash sha256 ∈ already ↔
        Known req.tenantId req.sourceId d.rows.table.committed (line.hash sha256)) ∧
      new.map (fun p => p.2.contents) = (importedLines sha256 account.currency already req.lines).map
        (fun line => (req.transaction source.accountId line).contents) ∧
      ∀ lineHash, Known req.tenantId req.sourceId d'.rows.table.committed lineHash ↔
        Known req.tenantId req.sourceId d.rows.table.committed lineHash ∨
          lineHash ∈ (importedLines sha256 account.currency already req.lines).map (StatementLine.hash sha256)

/-- What an import does when nobody else is at work. -/
theorem ranAlone {d d' : ImportDb} (hrows : d.rows.table.Quiet) (htargets : d.targets.Quiet)
    (h : atomically t (runImport sha256 hashtext sources accounts req) d = some (.ok result, d')) :
    RanAlone sha256 sources accounts t req d d' := by
  obtain ⟨d₁, heval, rfl⟩ := atomically_eq_ok h
  rw [runImport, Prog.eval_query_bind] at heval
  split at heval
  case h_1 => cases heval
  next source hsource =>
  rw [Prog.eval_query_bind] at heval
  split at heval
  case h_1 => cases heval
  next account haccount =>
  obtain ⟨_, d₂, hlock, hrest⟩ := Prog.eval_bind_eq_ok.mp heval
  rw [Prog.eval_query_bind] at hrest
  obtain ⟨pass, d₃, hpass, hrest⟩ := Prog.eval_bind_eq_ok.mp hrest
  obtain ⟨views, d₄, hviews, hpure⟩ := Prog.eval_bind_eq_ok.mp hrest
  obtain ⟨-, rfl⟩ := Prod.mk.inj (Option.some.inj hpure)
  -- the lock, then the two passes
  rw [Prog.eval_exec] at hlock
  obtain ⟨⟨_, d₂'⟩, hlocked, he⟩ := Option.map_eq_some_iff.mp hlock
  obtain ⟨-, rfl⟩ := Prod.mk.inj he
  obtain ⟨htable₂, htargets₂⟩ := tables_advisoryXactLock hlocked
  obtain ⟨hrows₃, new, hnew, hcontents⟩ := eval_decideLines hpass
  obtain ⟨htargets₄, newRows, hnewRows, hrecorded⟩ := eval_createLines hviews
  obtain ⟨hcounted, -, hseen⟩ := (decideLines_returns Pass.counted_start).eval hpass
  simp only [Pass.start, List.append_nil, List.nil_append] at hcontents hseen
  have hvisible : d.rows.table.visible t = d.rows.table.committed :=
    funext fun k => visible_of_inflight_none (hrows k)
  have hadds : Adds t d.rows.table d₄.rows.table newRows := by
    rw [hrows₃, htable₂] at hnewRows
    exact hnewRows
  have haddsTargets : Adds t d.targets d₄.targets new := by
    rw [htargets₄]
    exact htargets₂ ▸ hnew
  obtain ⟨hquiet, -, -⟩ := hadds.commit hrows
  obtain ⟨hquiet', hfree, hcommitted⟩ := haddsTargets.commit htargets
  refine ⟨hquiet, hquiet', source, account, hsource, haccount, new, _, ⟨hfree, haddsTargets.distinct, hcommitted⟩,
    fun line hline => ?_, hcontents, fun lineHash => ?_⟩
  · rw [mem_importedHashesForSource, htable₂, hvisible]
    exact ⟨fun h => h.2, fun h => ⟨List.mem_map_of_mem hline, h⟩⟩
  · rw [← hseen, ← hcounted.seen, ← hvisible]
    exact known_adds hadds hrecorded lineHash

theorem getSource_eq {sourceId sourceId' tenantId tenantId' : String}
    (h : getSource sources tenantId sourceId = some source)
    (h' : getSource sources tenantId' sourceId' = some source') (hid : sourceId' = sourceId) :
    source' = source ∧ tenantId' = tenantId := by
  obtain ⟨hfound, htenant⟩ := Option.filter_eq_some_iff.mp h
  obtain ⟨hfound', htenant'⟩ := Option.filter_eq_some_iff.mp h'
  obtain rfl : source' = source := Option.some.inj ((hid ▸ hfound').symm.trans hfound)
  exact ⟨rfl, (of_decide_eq_true htenant').symm.trans (of_decide_eq_true htenant)⟩

theorem contents_transaction (h : req'.tenantId = req.tenantId) (accountId : String) (line : StatementLine) :
    (req'.transaction accountId line).contents = (req.transaction accountId line).contents := by
  simp [ImportRequest.transaction, PersonalTransactionRow.contents, h]

/-- **Splitting**: one import of both lists creates what an import of the first and then one of
the second create. -/
theorem import_split {t₁ t₂ : Txn} {d d' d₁ d₂ : ImportDb} (hlines : req.lines = req₁.lines ++ req₂.lines)
    (hsource₁ : req₁.sourceId = req.sourceId) (hsource₂ : req₂.sourceId = req.sourceId)
    (h : RanAlone sha256 sources accounts t req d d') (h₁ : RanAlone sha256 sources accounts t₁ req₁ d d₁)
    (h₂ : RanAlone sha256 sources accounts t₂ req₂ d₁ d₂) :
    ∃ new new₁ new₂, Creates d d' new ∧ Creates d d₁ new₁ ∧ Creates d₁ d₂ new₂ ∧
      new.map (fun p => p.2.contents) = (new₁ ++ new₂).map fun p => p.2.contents := by
  obtain ⟨source, account, hsource, haccount, new, already, hnew, halready, hcontents, -⟩ := h.ran
  obtain ⟨source', account', hsource', haccount', new₁, already₁, hnew₁, halready₁, hcontents₁, hknown₁⟩ := h₁.ran
  obtain ⟨source'', account'', hsource'', haccount'', new₂, already₂, hnew₂, halready₂, hcontents₂, -⟩ := h₂.ran
  obtain ⟨rfl, htenant₁⟩ := getSource_eq hsource hsource' hsource₁
  obtain ⟨rfl, htenant₂⟩ := getSource_eq hsource hsource'' hsource₂
  obtain rfl : account = account' := Option.some.inj (haccount.symm.trans (htenant₁ ▸ haccount'))
  obtain rfl : account = account'' := Option.some.inj (haccount.symm.trans (htenant₂ ▸ haccount''))
  refine ⟨new, new₁, new₂, hnew, hnew₁, hnew₂, ?_⟩
  -- the first list meets the same references, the second what the first has left
  rw [htenant₁, hsource₁] at halready₁ hknown₁
  rw [htenant₂, hsource₂] at halready₂
  have hfirst : importedLines sha256 account.currency already req₁.lines =
      importedLines sha256 account.currency already₁ req₁.lines := by
    refine importedLines_congr fun line hline => ?_
    rw [halready line (hlines ▸ List.mem_append_left _ hline), halready₁ line hline]
  have hsecond : importedLines sha256 account.currency (already ++
      (importedLines sha256 account.currency already₁ req₁.lines).map (StatementLine.hash sha256)) req₂.lines =
      importedLines sha256 account.currency already₂ req₂.lines := by
    refine importedLines_congr fun line hline => ?_
    rw [List.mem_append, halready line (hlines ▸ List.mem_append_right _ hline), halready₂ line hline, hknown₁]
  rw [hcontents, hlines, importedLines_append, hfirst, hsecond, List.map_append, List.map_append, hcontents₁, hcontents₂]
  congr 1
  · exact List.map_congr_left fun line _ => (contents_transaction htenant₁ _ line).symm
  · exact List.map_congr_left fun line _ => (contents_transaction htenant₂ _ line).symm

end Alone

/-! ## the law of imports -/

/-- A database between imports. -/
structure SettledImports (sources : String → Option BankSourceRow) (d : ImportDb) : Prop where
  quiet : d.rows.table.Quiet
  quietTransactions : d.targets.Quiet
  once : ∀ t sourceId, ImportedOnce sources sourceId (sourceRows sourceId t d)
  explained : ∀ lineId row txnId, d.rows.table.committed lineId = some row → row.txnId = some txnId →
    ∃ target, d.targets.committed txnId = some target ∧ Explains row target
  injective : ∀ lineId lineId' row row' txnId, d.rows.table.committed lineId = some row →
    d.rows.table.committed lineId' = some row' → row.txnId = some txnId → row'.txnId = some txnId → lineId = lineId'
  imported : ∀ txnId target, d.targets.committed txnId = some target → IsStatement target →
    ∃ lineId row, d.rows.table.committed lineId = some row ∧ row.txnId = some txnId

theorem SettledImports.consistent {sources : String → Option BankSourceRow}
    (h : SettledImports sources d) (hashtext : String → Int) : Imports hashtext sources d := by
  refine consistent_of_quiet h.quiet h.quietTransactions (fun sourceId => ?_) h.explained h.injective
    h.imported
  rw [show d.rows.table.committed = d.rows.table.visible 0 from
    (funext fun k => visible_of_inflight_none (h.quiet k)).symm]
  exact h.once 0 sourceId

theorem settledImports_empty (sources : String → Option BankSourceRow) :
    SettledImports sources empty := by
  refine ⟨fun _ => rfl, fun _ => rfl, fun t sourceId => ?_, fun _ _ _ h => ?_, fun _ _ _ _ _ h => ?_, fun _ _ h => ?_⟩
  · exact ⟨fun p hp => absurd hp (Multiset.notMem_zero p), Multiset.nodup_zero⟩
  · exact absurd h.symm (Option.some_ne_none _)
  · exact absurd h.symm (Option.some_ne_none _)
  · exact absurd h.symm (Option.some_ne_none _)

/-- **Bank imports**, whatever the order of their statements: a reference of a source is imported
by one line, and a line and its transaction belong to each other alone; the counters of a result
add up; a list that comes again imports nothing; and lists can be split. -/
theorem bank_import_once (sha256 : ByteArray → String) (hashtext : String → Int)
    (sources : String → Option BankSourceRow) (accounts : String → Option PersonalAccountRow) (d : ImportDb)
    (hd : SettledImports sources d) :
    (∀ (schedule : List (Action ImportRequest)) (s : Sys ImportDb ImportError ImportRequest ImportResultView),
      run (runImport sha256 hashtext sources accounts) (Sys.start d) schedule = some s →
      (∀ t lineId lineId' row row' lineHash, s.db.rows.table.visible t lineId = some row →
        s.db.rows.table.visible t lineId' = some row' → row.sourceId = row'.sourceId →
        row.importedHash = some lineHash → row'.importedHash = some lineHash → lineId = lineId') ∧
      (∀ lineId row txnId, s.db.rows.table.committed lineId = some row → row.txnId = some txnId →
        (∃ target, s.db.targets.committed txnId = some target ∧ Explains row target) ∧
        ∀ lineId' row', s.db.rows.table.committed lineId' = some row' → row'.txnId = some txnId →
          lineId' = lineId) ∧
      (∀ txnId target, s.db.targets.committed txnId = some target → IsStatement target →
        ∃ lineId row, s.db.rows.table.committed lineId = some row ∧ row.txnId = some txnId) ∧
      (∀ t req result, s.procs t = .committed req result → result.recordsSupplied =
        result.recordsImported + result.recordsSkippedDuplicate + result.recordsRejected ∧
        result.recordsImported = (result.lines.filter fun view => view.outcome.txnId.isSome).length) ∧
      ∀ t req result schedule' s' t' req' result', s.procs t = .committed req result → s.procs t' = .idle →
        run (runImport sha256 hashtext sources accounts) s schedule' = some s' →
        s'.procs t' = .committed req' result' → SameImport req req' → result'.recordsImported = 0) ∧
    ∀ (t t₁ t₂ : Txn) (req req₁ req₂ : ImportRequest) (result result₁ result₂ : ImportResultView) (d' d₁ d₂ : ImportDb),
      atomically t (runImport sha256 hashtext sources accounts req) d = some (.ok result, d') →
      atomically t₁ (runImport sha256 hashtext sources accounts req₁) d = some (.ok result₁, d₁) →
      atomically t₂ (runImport sha256 hashtext sources accounts req₂) d₁ = some (.ok result₂, d₂) →
      req.lines = req₁.lines ++ req₂.lines → req₁.sourceId = req.sourceId → req₂.sourceId = req.sourceId →
      ∃ new new₁ new₂, Creates d d' new ∧ Creates d d₁ new₁ ∧ Creates d₁ d₂ new₂ ∧
        new.map (fun p => p.2.contents) = (new₁ ++ new₂).map fun p => p.2.contents := by
  refine ⟨fun schedule s hrun => ?_, fun t t₁ t₂ req req₁ req₂ result result₁ result₂ d' d₁ d₂ h h₁ h₂ hlines hsource₁
    hsource₂ => ?_⟩
  · have hok := importLogic_sound.run (ok_start (hd.consistent hashtext) hd.quietTransactions)
      (everyStep_permits (fun _ => trivial) (fun _ _ _ => trivial) schedule) hrun
    have hconsistent : Imports hashtext sources s.db := hok.inv
    refine ⟨fun t lineId lineId' row row' lineHash hrow hrow' hsource hhash hhash' => ?_, fun lineId row txnId hrow href =>
      ⟨hconsistent.references.committed lineId row txnId hrow href, fun lineId' row' hrow' href' =>
        hconsistent.references.injective lineId' lineId row' row txnId (.inl hrow') (.inl hrow) href' href⟩,
      hconsistent.referred, fun t req result hdone => ?_, fun t req result schedule' s' t' req' result' hdone hidle hrun'
        hdone' hsame => reimport hok hdone hidle hsame hrun' hdone'⟩
    · exact eq_of_importedHash (hconsistent.guarded.visible t row.sourceId).once hrow hrow' rfl hsource.symm hhash hhash'
    · have hproc := hok.procs t
      rw [hdone] at hproc
      exact ⟨hproc.counted, hproc.imported⟩
  · have hran₁ := ranAlone hd.quiet hd.quietTransactions h₁
    exact import_split hlines hsource₁ hsource₂ (ranAlone hd.quiet hd.quietTransactions h) hran₁
      (ranAlone hran₁.quiet hran₁.quietTransactions h₂)

section Sample

def sampleSources (sourceId : String) : Option BankSourceRow :=
  if sourceId = "source" then some ⟨"tenant", "account"⟩ else none

def sampleBankAccounts (accountId : String) : Option PersonalAccountRow :=
  if accountId = "account" then some ⟨"tenant", "USD"⟩ else none

def sampleLine (reference : String) : StatementLine where
  externalReference := reference
  amountMinorUnits := -500
  currency := "USD"
  occurredAt := 0
  category := .dining
  merchant := none
  description := ""

def sampleImport : ImportRequest where
  sourceId := "source"
  tenantId := "tenant"
  importedBy := "admin"
  lines := [sampleLine "a", sampleLine "b", sampleLine "a"]
  importId := "import"
  txnId := fun i => if i = 0 then "txn-0" else "txn-1"
  lineId := fun i => if i = 0 then "line-0" else if i = 1 then "line-1" else "line-2"
  now := 0

def sampleDigest (bytes : ByteArray) : String := String.ofList (bytes.data.toList.map fun b => Char.ofNat b.toNat)

def sampleImports : List (Action ImportRequest) :=
  [.begin 1 sampleImport, .exec 1, .exec 1, .exec 1, .exec 1, .exec 1, .exec 1, .exec 1, .exec 1, .exec 1, .commit 1]

theorem bank_import_once_sample : ∃ s req result,
    run (runImport sampleDigest (fun _ => 0) sampleSources sampleBankAccounts) (Sys.start empty)
        sampleImports = some s ∧
      s.procs 1 = .committed req result ∧ result.recordsSupplied = 3 ∧ result.recordsImported = 2 ∧
      result.recordsSupplied = result.recordsImported + result.recordsSkippedDuplicate + result.recordsRejected := by
  have hcounters : ((run (runImport sampleDigest (fun _ => 0) sampleSources sampleBankAccounts)
      (Sys.start empty) sampleImports).bind fun s =>
        (s.procs 1).result.map fun result => (s.db.rows.table.visible 2 "line-2", result.recordsSupplied,
          result.recordsImported)) = some (some ⟨"tenant", "import", "source", "a", .skippedDuplicate, 0⟩, 3, 2) := by
    decide +kernel
  obtain ⟨s, hrun, hresult⟩ := Option.bind_eq_some_iff.mp hcounters
  obtain ⟨result, hdone, hvalues⟩ := Option.map_eq_some_iff.mp hresult
  obtain ⟨-, hvalues⟩ := Prod.mk.inj hvalues
  obtain ⟨hsupplied, himported⟩ := Prod.mk.inj hvalues
  obtain ⟨req, hproc⟩ := Proc.result_eq_some hdone
  have hlaw := (bank_import_once sampleDigest (fun _ => 0) sampleSources sampleBankAccounts empty
    (settledImports_empty sampleSources)).1 sampleImports s hrun
  exact ⟨s, req, result, hrun, hproc, hsupplied, himported, (hlaw.2.2.2.1 1 req result hproc).1⟩

end Sample

end Anoryx.Delta
