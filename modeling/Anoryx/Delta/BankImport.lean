import Anoryx.Delta.PersonalFinance

/-!
# Anoryx.Delta.BankImport

The import of bank statements (`bank_import/service.py`, `store.py`): the lines of a batch
are decided one after the other under the advisory lock of their source, every imported one
with a transaction in the personal ledger, and then recorded with their outcomes.

The row of the run itself and its audit link are left out: what refuses them aborts the
import, and that may happen at any time.
-/

namespace Anoryx.Delta

open ReadCommitted

/-! ## the tables -/

/-- A row of `bank_sources`, under its `source_id`. -/
structure BankSourceRow where
  tenantId : String
  accountId : String

inductive LineRejectedReason
  | currencyMismatch
deriving DecidableEq

/-- `status`, with what a line has because of it. -/
inductive LineOutcome
  | imported (txnId : String)
  | skippedDuplicate
  | rejected (reason : LineRejectedReason)
deriving DecidableEq

/-- A row of `imported_statement_lines`, under its `line_id`. -/
structure ImportedLineRow where
  tenantId : String
  importId : String
  sourceId : String
  externalReferenceHash : String
  outcome : LineOutcome
  createdAt : Int
deriving DecidableEq

abbrev ImportDb := PersonalDb String ImportedLineRow

def LineOutcome.txnId : LineOutcome → Option String
  | imported txnId => some txnId
  | skippedDuplicate => none
  | rejected _ => none

def ImportedLineRow.txnId (row : ImportedLineRow) : Option String := row.outcome.txnId

/-- The reference that a line has imported. -/
def ImportedLineRow.importedHash (row : ImportedLineRow) : Option String :=
  row.txnId.map fun _ => row.externalReferenceHash

/-- `source_id = …` -/
def ofSource (sourceId : String) (row : ImportedLineRow) : Bool := row.sourceId = sourceId

/-! ## an import -/

structure StatementLine where
  externalReference : String
  amountMinorUnits : Int
  currency : String
  occurredAt : Int
  category : TransactionCategory
  merchant : Option String
  description : String

/-- An `ImportRequest` for a source, with the moment and the ids that the call takes. -/
structure ImportRequest where
  sourceId : String
  tenantId : String
  importedBy : String
  lines : List StatementLine
  importId : String
  txnId : Nat → String
  lineId : Nat → String
  now : Int

structure LineOutcomeView where
  lineId : String
  externalReferenceHash : String
  outcome : LineOutcome

structure ImportResultView where
  importId : String
  tenantId : String
  sourceId : String
  importedBy : String
  importedAt : Int
  recordsSupplied : Nat
  recordsImported : Nat
  recordsSkippedDuplicate : Nat
  recordsRejected : Nat
  lines : List LineOutcomeView

inductive ImportError
  | sourceNotFound (sourceId : String)
  | accountNotFound (accountId : String)
  | uniqueViolation
deriving DecidableEq

def ImportRequest.transaction (req : ImportRequest) (accountId : String) (line : StatementLine) :
    PersonalTransactionRow where
  tenantId := req.tenantId
  accountId := accountId
  category := line.category
  amountMinorUnits := line.amountMinorUnits
  currency := line.currency
  description := line.description
  merchant := line.merchant
  occurredAt := line.occurredAt
  createdAt := req.now
  source := .statement

def ImportRequest.row (req : ImportRequest) (decided : String × LineOutcome) : ImportedLineRow where
  tenantId := req.tenantId
  importId := req.importId
  sourceId := req.sourceId
  externalReferenceHash := decided.1
  outcome := decided.2
  createdAt := req.now

/-- The first pass over the lines: what was decided, in order, and the counters. -/
structure Pass where
  decided : List (String × LineOutcome)
  seenInBatch : List String
  imported : Nat
  skipped : Nat
  rejected : Nat

def Pass.start : Pass := ⟨[], [], 0, 0, 0⟩

def Pass.skip (pass : Pass) (lineHash : String) : Pass :=
  { pass with decided := pass.decided ++ [(lineHash, .skippedDuplicate)], skipped := pass.skipped + 1 }

def Pass.reject (pass : Pass) (lineHash : String) : Pass :=
  { pass with
    decided := pass.decided ++ [(lineHash, .rejected .currencyMismatch)]
    rejected := pass.rejected + 1 }

def Pass.importLine (pass : Pass) (lineHash txnId : String) : Pass :=
  { pass with
    decided := pass.decided ++ [(lineHash, .imported txnId)]
    seenInBatch := pass.seenInBatch ++ [lineHash]
    imported := pass.imported + 1 }

section Import

variable (sha256 : ByteArray → String)

def referenceHash (externalReference : String) : String := sha256 externalReference.toUTF8

def StatementLine.hash (line : StatementLine) : String := referenceHash sha256 line.externalReference

/-- `imported_hashes_for_source`, in a session of the tenant. -/
def importedHashesForSource (tenantId sourceId : String) (hashes : List String) (t : Txn) (d : ImportDb) :
    List String :=
  let rows := d.rows.table.rowsOf (d.rows.table.visible t) (ofSource sourceId)
  (rows.filterMap fun p => if p.2.tenantId = tenantId then p.2.importedHash else none).filter (· ∈ hashes)

/-- The first pass. -/
def decideLines (req : ImportRequest) (accountId currency : String) (alreadyImported : List String) :
    List StatementLine → Pass → Prog ImportDb ImportError Pass
  | [], pass => pure pass
  | line :: lines, pass =>
      let lineHash := line.hash sha256
      if lineHash ∈ alreadyImported ∨ lineHash ∈ pass.seenInBatch then
        decideLines req accountId currency alreadyImported lines (pass.skip lineHash)
      else if line.currency ≠ currency then
        decideLines req accountId currency alreadyImported lines (pass.reject lineHash)
      else do
        let txnId := req.txnId pass.decided.length
        Prog.inserting .uniqueViolation (ReferringTable.insertTarget txnId (req.transaction accountId line))
        decideLines req accountId currency alreadyImported lines (pass.importLine lineHash txnId)

/-- The second pass: a row for every line, from the `i`-th on. -/
def createLines (req : ImportRequest) : Nat → List (String × LineOutcome) →
    Prog ImportDb ImportError (List LineOutcomeView)
  | _, [] => pure []
  | i, decided :: rest => do
      Prog.inserting .uniqueViolation (ReferringTable.insert (req.lineId i) (req.row decided))
      let outcomes ← createLines req (i + 1) rest
      pure (⟨req.lineId i, decided.1, decided.2⟩ :: outcomes)

def ImportRequest.result (req : ImportRequest) (pass : Pass) (lines : List LineOutcomeView) : ImportResultView where
  importId := req.importId
  tenantId := req.tenantId
  sourceId := req.sourceId
  importedBy := req.importedBy
  importedAt := req.now
  recordsSupplied := req.lines.length
  recordsImported := pass.imported
  recordsSkippedDuplicate := pass.skipped
  recordsRejected := pass.rejected
  lines := lines

variable (hashtext : String → Int) (sources : String → Option BankSourceRow)
  (accounts : String → Option PersonalAccountRow)

/-- `get_source`, in a session of the tenant. -/
def getSource (tenantId sourceId : String) : Option BankSourceRow :=
  (sources sourceId).filter fun source => source.tenantId = tenantId

def runImport (req : ImportRequest) : Prog ImportDb ImportError ImportResultView := do
  let source ← Prog.query fun _ _ => getSource sources req.tenantId req.sourceId
  match source with
  | none => Prog.raise (.sourceNotFound req.sourceId)
  | some source =>
    let account ← Prog.query fun _ _ => getAccount accounts req.tenantId source.accountId
    match account with
    | none => Prog.raise (.accountNotFound source.accountId)
    | some account =>
      Prog.exec (ReferringTable.advisoryXactLock (hashtext req.sourceId))
      let hashes := req.lines.map (StatementLine.hash sha256)
      let alreadyImported ← Prog.query (importedHashesForSource req.tenantId req.sourceId hashes)
      let pass ← decideLines sha256 req source.accountId account.currency alreadyImported req.lines Pass.start
      let lines ← createLines req 0 pass.decided
      pure (req.result pass lines)

end Import

/-! ## which lines are imported -/

variable {known known' already : List String} {lines : List StatementLine} {pass : Pass} {req : ImportRequest}

section Lines

variable (sha256 : ByteArray → String)

/-- The lines that a batch imports, of what is known already: the first of every reference
that is in the currency of the account. -/
def importedLines (currency : String) : List String → List StatementLine → List StatementLine
  | _, [] => []
  | known, line :: lines =>
      if line.hash sha256 ∈ known ∨ line.currency ≠ currency then importedLines currency known lines
      else line :: importedLines currency (known ++ [line.hash sha256]) lines

variable {sha256} {currency : String}

theorem importedLines_append (known : List String) (lines lines' : List StatementLine) :
    importedLines sha256 currency known (lines ++ lines') = importedLines sha256 currency known lines ++
      importedLines sha256 currency
        (known ++ (importedLines sha256 currency known lines).map (StatementLine.hash sha256)) lines' := by
  induction lines generalizing known with
  | nil => simp [importedLines]
  | cons line lines ih =>
      rw [List.cons_append, importedLines, importedLines]
      split
      · exact ih known
      · rw [ih, List.cons_append, List.map_cons, List.append_assoc, List.singleton_append]

theorem importedLines_congr (h : ∀ line ∈ lines, line.hash sha256 ∈ known ↔ line.hash sha256 ∈ known') :
    importedLines sha256 currency known lines = importedLines sha256 currency known' lines := by
  induction lines generalizing known known' with
  | nil => rfl
  | cons line lines ih =>
      have hhead := h line List.mem_cons_self
      have htail : ∀ line ∈ lines, line.hash sha256 ∈ known ↔ line.hash sha256 ∈ known' :=
        fun line' hline' => h line' (List.mem_cons_of_mem _ hline')
      have hnew : ∀ line' ∈ lines, line'.hash sha256 ∈ known ++ [line.hash sha256] ↔
          line'.hash sha256 ∈ known' ++ [line.hash sha256] := by
        intro line' hline'
        rw [List.mem_append, List.mem_append, htail line' hline']
      rw [importedLines, importedLines, ih htail, ih hnew]
      exact if_congr (or_congr_left hhead) rfl rfl

theorem nodup_importedLines (known : List String) (lines : List StatementLine) :
    ((importedLines sha256 currency known lines).map (StatementLine.hash sha256)).Nodup ∧
      ∀ line ∈ importedLines sha256 currency known lines, line ∈ lines ∧ line.hash sha256 ∉ known := by
  induction lines generalizing known with
  | nil => exact ⟨List.nodup_nil, fun line h => absurd h List.not_mem_nil⟩
  | cons line lines ih =>
      rw [importedLines]
      split
      next hskip =>
        obtain ⟨hnodup, hnew⟩ := ih known
        exact ⟨hnodup, fun line' h => ⟨List.mem_cons_of_mem _ (hnew line' h).1, (hnew line' h).2⟩⟩
      next himport =>
        obtain ⟨hnodup, hnew⟩ := ih (known ++ [line.hash sha256])
        constructor
        · refine List.nodup_cons.mpr ⟨fun hmem => ?_, hnodup⟩
          obtain ⟨line', hline', hhash⟩ := List.mem_map.mp hmem
          exact (hnew line' hline').2 (by simp [hhash])
        · intro line' hline'
          rcases List.mem_cons.mp hline' with rfl | hline'
          · exact ⟨List.mem_cons_self, fun h => himport (.inl h)⟩
          · obtain ⟨hmem, hnot⟩ := hnew line' hline'
            exact ⟨List.mem_cons_of_mem _ hmem, fun h => hnot (List.mem_append_left _ h)⟩

theorem known_of_importedLines (known : List String) {line : StatementLine} (hline : line ∈ lines)
    (hcurrency : line.currency = currency) : line.hash sha256 ∈ known ∨
      line.hash sha256 ∈ (importedLines sha256 currency known lines).map (StatementLine.hash sha256) := by
  induction lines generalizing known with
  | nil => exact absurd hline List.not_mem_nil
  | cons line' lines ih =>
      rw [importedLines]
      rcases List.mem_cons.mp hline with rfl | hline
      · split
        next hskip => exact .inl (hskip.resolve_right fun h => h hcurrency)
        next => exact .inr (by simp)
      · split
        next => exact ih known hline
        next =>
          rcases ih (known ++ [line'.hash sha256]) hline with h | h
          · rcases List.mem_append.mp h with h | h
            · exact .inl h
            · exact .inr (by simp [List.mem_singleton.mp h])
          · exact .inr (List.mem_cons_of_mem _ h)

theorem importedLines_eq_nil (h : ∀ line ∈ lines, line.hash sha256 ∈ known ∨ line.currency ≠ currency) :
    importedLines sha256 currency known lines = [] := by
  induction lines with
  | nil => rfl
  | cons line lines ih =>
      rw [importedLines, if_pos (h line List.mem_cons_self)]
      exact ih fun line' hline' => h line' (List.mem_cons_of_mem _ hline')

/-! ## what the first pass decides -/

/-- The reference that a decision imports. -/
def decidedHash (decided : String × LineOutcome) : Option String :=
  decided.2.txnId.map fun _ => decided.1

structure Pass.Counted (pass : Pass) : Prop where
  decided : pass.decided.length = pass.imported + pass.skipped + pass.rejected
  imported : pass.imported = pass.seenInBatch.length
  seen : pass.decided.filterMap decidedHash = pass.seenInBatch

theorem Pass.counted_start : Pass.start.Counted := ⟨rfl, rfl, rfl⟩

theorem Pass.Counted.skip (h : pass.Counted) (lineHash : String) : (pass.skip lineHash).Counted where
  decided := by
    have hdecided := h.decided
    simp only [Pass.skip, List.length_append, List.length_singleton]
    omega
  imported := h.imported
  seen := by
    have hseen := h.seen
    simp [Pass.skip, hseen, decidedHash, LineOutcome.txnId]

theorem Pass.Counted.reject (h : pass.Counted) (lineHash : String) : (pass.reject lineHash).Counted where
  decided := by
    have hdecided := h.decided
    simp only [Pass.reject, List.length_append, List.length_singleton]
    omega
  imported := h.imported
  seen := by
    have hseen := h.seen
    simp [Pass.reject, hseen, decidedHash, LineOutcome.txnId]

theorem Pass.Counted.importLine (h : pass.Counted) (lineHash txnId : String) :
    (pass.importLine lineHash txnId).Counted where
  decided := by
    have hdecided := h.decided
    simp only [Pass.importLine, List.length_append, List.length_singleton]
    omega
  imported := by
    have himported := h.imported
    simp only [Pass.importLine, List.length_append, List.length_singleton]
    omega
  seen := by
    have hseen := h.seen
    simp [Pass.importLine, hseen, decidedHash, LineOutcome.txnId]

/-- **The first pass** counts every line, and imports what it should. -/
theorem decideLines_returns {accountId : String} (h : pass.Counted) :
    (decideLines sha256 req accountId currency already lines pass).Returns fun pass' => pass'.Counted ∧
      pass'.decided.length = pass.decided.length + lines.length ∧
      pass'.seenInBatch = pass.seenInBatch ++
        (importedLines sha256 currency (already ++ pass.seenInBatch) lines).map (StatementLine.hash sha256) := by
  induction lines generalizing pass with
  | nil => exact Prog.Returns.pure ⟨h, rfl, by simp [importedLines]⟩
  | cons line lines ih =>
      by_cases hknown : line.hash sha256 ∈ already ∨ line.hash sha256 ∈ pass.seenInBatch
      · simp only [decideLines, importedLines, List.mem_append, hknown, if_true, true_or]
        refine Prog.Returns.mono (fun pass' hpass' => ?_) (ih (h.skip (line.hash sha256)))
        obtain ⟨hcounted, hlength, hseen⟩ := hpass'
        refine ⟨hcounted, ?_, hseen⟩
        simp only [Pass.skip, List.length_append, List.length_cons, List.length_nil] at hlength ⊢
        omega
      by_cases hcurrency : line.currency ≠ currency
      · simp only [decideLines, importedLines, List.mem_append, hknown, hcurrency, if_true, if_false, or_true, ne_eq,
          not_false_eq_true]
        refine Prog.Returns.mono (fun pass' hpass' => ?_) (ih (h.reject (line.hash sha256)))
        obtain ⟨hcounted, hlength, hseen⟩ := hpass'
        refine ⟨hcounted, ?_, hseen⟩
        simp only [Pass.reject, List.length_append, List.length_cons, List.length_nil] at hlength ⊢
        omega
      · simp only [decideLines, importedLines, List.mem_append, hknown, hcurrency, if_false, or_self]
        refine Prog.Returns.inserting_bind (Prog.Returns.mono (fun pass' hpass' => ?_)
          (ih (h.importLine (line.hash sha256) (req.txnId pass.decided.length))))
        obtain ⟨hcounted, hlength, hseen⟩ := hpass'
        refine ⟨hcounted, ?_, ?_⟩
        · simp only [Pass.importLine, List.length_append, List.length_cons, List.length_nil] at hlength ⊢
          omega
        · rw [hseen]
          simp [Pass.importLine]

/-- **The second pass** records what the first has decided. -/
theorem createLines_returns {i : Nat} {decided : List (String × LineOutcome)} :
    (createLines req i decided).Returns fun views =>
      views.map (fun view => (view.externalReferenceHash, view.outcome)) = decided := by
  induction decided generalizing i with
  | nil => exact Prog.Returns.pure rfl
  | cons head rest ih =>
      refine Prog.Returns.inserting_bind (Prog.Returns.bind (Prog.Returns.mono (fun views hviews => ?_) ih))
      exact Prog.Returns.pure (by rw [List.map_cons, hviews])

end Lines

end Anoryx.Delta
