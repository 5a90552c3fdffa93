import Anoryx.Sentinel.AuditLog

/-!
# Anoryx.Sentinel.AuditChain

When the audit log of `AuditLog` validates.  A row is hashed before it is stored and
again after it is read, so the log is consistent as long as the columns give back what
they are given (`Survives`): then every interleaving of appends leaves a chain that every
session finds valid, and else it does not (`chain_validates`).

They do not always.  A cost in cents is hashed with all its digits and stored with six
(`honest_append_reported`).
-/

namespace Anoryx.Sentinel.AuditLog

open ReadCommitted PyJson PgColumn LockedLog

/-! ## the canonical form -/

variable {key expectedPrevHash : String} {column : Column} {cell : Cell} {session : Session} {t : Txn}
  {d d' : AuditDb} {p : Nat × EventsAuditLog}

section Canonical

variable {F : Type}

theorem get_setItem (event : List (String × Value F)) (key : String) (v : Value F) :
    get (setItem "prev_hash" v event) key = if "prev_hash" = key then v else get event key := by
  rw [get, getItem_setItem, apply_ite (Option.getD · Value.null)]
  rfl

variable {data data' : List (String × Value F)}

theorem filtered_congr (h : ∀ key ∈ canonicalFields ++ optInFields, get data key = get data' key) :
    filtered data = filtered data' := by
  unfold filtered
  congr 1
  · exact List.map_congr_left fun key hkey => by rw [h key (List.mem_append_left _ hkey)]
  · exact List.filterMap_congr fun key hkey => by rw [optIn, optIn, h key (List.mem_append_right _ hkey)]

theorem mem_filtered {v : Value F} (hkey : key ∈ canonicalFields ++ optInFields) (hv : v ≠ .null) :
    (key, v) ∈ filtered data ↔ get data key = v := by
  have hoptIn : ∀ key', optIn data key' = some (key, v) ↔ key' = key ∧ get data key = v := by
    intro key'
    unfold optIn
    split <;> grind
  simp only [filtered, List.mem_append, List.mem_map, List.mem_filterMap, hoptIn, Prod.mk.injEq]
  grind

theorem keys_filtered (data : List (String × Value F)) :
    ((filtered data).map Prod.fst).Sublist (canonicalFields ++ optInFields) := by
  have hsub : ∀ keys : List String, ((keys.filterMap (optIn data)).map Prod.fst).Sublist keys := by
    intro keys
    induction keys with
    | nil => simp
    | cons key keys ih =>
        cases hkey : optIn data key with
        | none => simpa [hkey] using ih.cons key
        | some p =>
            have hp : p.1 = key := by
              unfold optIn at hkey
              split at hkey <;> grind
            simpa [hkey, hp] using ih
  rw [filtered, List.map_append, List.map_map]
  exact List.Sublist.append (by simp [Function.comp_def]) (hsub _)

theorem nodup_filtered (data : List (String × Value F)) : ((filtered data).map Prod.fst).Nodup :=
  (keys_filtered data).nodup (by decide +kernel)

/-- What the columns can hold. -/
def Flat (data : List (String × Value F)) : Prop :=
  ∀ key ∈ canonicalFields ++ optInFields, (get data key).IsScalar

theorem Flat.distinct (h : Flat data) : (Value.obj (filtered data)).Distinct := by
  refine ⟨nodup_filtered data, distinctMembers_iff.mpr fun p hp => ?_⟩
  by_cases hnull : p.2 = .null
  · rw [hnull]
    trivial
  · have hkey : p.1 ∈ canonicalFields ++ optInFields :=
      (keys_filtered data).subset (List.mem_map_of_mem hp)
    rw [← (mem_filtered hkey hnull).mp hp]
    exact (h p.1 hkey).distinct

variable [FloatFormat F]

theorem get_of_canonicalJson (hdata : Flat data) (hdata' : Flat data') (h : canonicalJson data = canonicalJson data')
    (hkey : key ∈ canonicalFields ++ optInFields) : get data key = get data' key := by
  have hsame : Same (.obj (filtered data)) (.obj (filtered data')) :=
    (dumps_sortKeys_iff _ hdata.distinct hdata'.distinct).mp (String.toByteArray_inj.mp h)
  have hget : ∀ {d d' : List (String × Value F)}, Flat d → Same (.obj (filtered d)) (.obj (filtered d')) →
      get d key ≠ .null → get d' key = get d key := by
    intro d d' hd hs hne
    refine (mem_filtered hkey hne).mp ((getItem_eq_some (nodup_filtered d')).mp ?_)
    exact hs.getItem_scalar (nodup_filtered d) (hd key hkey)
      ((getItem_eq_some (nodup_filtered d)).mpr ((mem_filtered hkey hne).mpr rfl))
  by_cases hnull : get data key = .null
  · by_cases hnull' : get data' key = .null
    · rw [hnull, hnull']
    · exact hget hdata' hsame.symm hnull'
  · exact (hget hdata hsame hnull).symm

end Canonical

/-! ## what is hashed again -/

section Row

variable {F : Type} [Numerals F]

/-- Every column that is hashed keeps its value. -/
def Survives (event : List (String × Value F)) : Prop :=
  ∀ column ∈ columns, column.name ≠ "delivery_attempts" →
    column.type.Keeps (get event column.name)

instance [DecidableEq F] (event : List (String × Value F)) : Decidable (Survives event) :=
  inferInstanceAs (Decidable (∀ column ∈ columns, _ → _))

theorem columns_hashed : ∀ column ∈ columns, column.name ≠ "delivery_attempts" →
    column.name ∈ appendedFields ∧ column.name ∈ hashDataFields ∧
      column.name ∈ canonicalFields ++ optInFields := by
  decide +kernel

theorem hashed_columns : ∀ key ∈ canonicalFields ++ optInFields, key = "prev_hash" ∨
    ∃ column ∈ columns, column.name ≠ "delivery_attempts" ∧ column.name = key := by
  decide +kernel

variable {rowData : List (String × Value F)}

theorem Column.store_eq_some (h : column.store rowData = some cell) :
    column.type.store (bound rowData column.name) = some cell := by
  simp only [Column.store, Option.bind_eq_bind, Option.bind_eq_some_iff] at h
  obtain ⟨cell', hcell', hchecks⟩ := h
  split at hchecks
  · contradiction
  · split at hchecks
    · contradiction
    · rw [hcell', hchecks]

theorem lookup_cells {cols : List Column} {cells : List (String × Cell)}
    (h : (cols.mapM fun column => (column.store rowData).map fun cell => (column.name, cell)) =
      some cells) (hnodup : (cols.map Column.name).Nodup) (hmem : column ∈ cols) :
    ∃ cell, column.store rowData = some cell ∧ cells.lookup column.name = some cell := by
  induction cols generalizing cells with
  | nil => simp at hmem
  | cons c cols ih =>
      simp only [List.mapM_cons, Option.pure_def, Option.bind_eq_bind, Option.bind_eq_some_iff,
        Option.map_eq_some_iff, Option.some.injEq] at h
      obtain ⟨_, ⟨cell, hcell, rfl⟩, rest, hrest, rfl⟩ := h
      rw [List.map_cons, List.nodup_cons] at hnodup
      by_cases hc : column = c
      · subst hc
        exact ⟨cell, hcell, by simp⟩
      · have hmem' : column ∈ cols := by simpa [hc] using hmem
        have hne : column.name ≠ c.name := fun he =>
          hnodup.1 (he ▸ List.mem_map_of_mem (f := Column.name) hmem')
        obtain ⟨cell', hstore, hlookup⟩ := ih hrest hnodup.2 hmem'
        exact ⟨cell', hstore, by simpa [List.lookup_cons, beq_false_of_ne hne] using hlookup⟩

variable {event : List (String × Value F)} {prevHash rowHash : String} {row : EventsAuditLog}

/-- A stored row has in each column what the event gave it. -/
theorem stored_column (h : storeRow (setItem "prev_hash" (.str prevHash) event) prevHash rowHash = some row)
    {column : Column} (hcolumn : column ∈ columns) (hne : column.name ≠ "delivery_attempts") :
    ∃ cell : Cell, column.type.store (get event column.name) = some cell ∧
      get (rowToHashData row) column.name = (cell.load : Value F) ∧
      get (setItem "prev_hash" (.str prevHash) event) column.name = get event column.name := by
  simp only [storeRow, Option.bind_eq_bind, Option.bind_eq_some_iff, Option.some.injEq] at h
  obtain ⟨cells, hcells, rfl⟩ := h
  obtain ⟨cell, hstore, hlookup⟩ := lookup_cells hcells (by decide +kernel) hcolumn
  obtain ⟨happended, hread, -⟩ := columns_hashed column hcolumn hne
  have hprev : "prev_hash" ≠ column.name := by
    intro he
    exact absurd (he ▸ happended) (by decide +kernel)
  have hget : get (setItem "prev_hash" (.str prevHash) event) column.name = get event column.name := by
    rw [get_setItem, if_neg hprev]
  refine ⟨cell, ?_, ?_, hget⟩
  · rw [← hget]
    simpa [bound, happended] using Column.store_eq_some hstore
  · rw [get, rowToHashData, getItem_tabulate hread, Option.getD_some, EventsAuditLog.cell, hlookup]
    rfl

theorem get_prevHash (row : EventsAuditLog) :
    get (rowToHashData (F := F) row) "prev_hash" = .str row.prevHash := by
  simp [get, rowToHashData, hashDataFields]

theorem storeRow_hashes (h : storeRow rowData prevHash rowHash = some row) :
    row.prevHash = prevHash ∧ row.rowHash = rowHash := by
  simp only [storeRow, Option.bind_eq_bind, Option.bind_eq_some_iff, Option.some.injEq] at h
  obtain ⟨cells, -, rfl⟩ := h
  exact ⟨rfl, rfl⟩

variable (sha256 : ByteArray → String)

theorem computeRowHash_eq (h : (computeRowHash sha256 rowData).mapError AuditError.valueError = .ok rowHash) :
    rowHash = sha256 (canonicalJson rowData) := by
  unfold computeRowHash at h
  grind [Except.mapError]

/-- **A row is read back as it was appended**, if its columns keep their values. -/
theorem get_rowToHashData (hevent : Survives event)
    (h : storeRow (setItem "prev_hash" (.str prevHash) event) prevHash rowHash = some row)
    {key : String} (hkey : key ∈ canonicalFields ++ optInFields) :
    get (rowToHashData row) key = get (setItem "prev_hash" (.str prevHash) event) key := by
  rcases hashed_columns key hkey with rfl | ⟨column, hcolumn, hne, rfl⟩
  · rw [get_prevHash, get_setItem, if_pos rfl, (storeRow_hashes h).1]
  · obtain ⟨cell, hcell, hread, hget⟩ := stored_column h hcolumn hne
    rw [hread, hget]
    exact (ColumnType.load_store hcell).mpr (hevent column hcolumn hne)

theorem recomputed_hash (hevent : Survives event)
    (h : storeRow (setItem "prev_hash" (.str prevHash) event) prevHash rowHash = some row) :
    sha256 (canonicalJson (rowToHashData (F := F) row)) =
      sha256 (canonicalJson (setItem "prev_hash" (.str prevHash) event)) := by
  rw [canonicalJson, canonicalJson, filtered_congr fun key hkey => get_rowToHashData hevent h hkey]

/-! ## and only then -/

theorem isScalar_of_store {type : ColumnType} {v : Value F} (h : type.store v = some cell) : v.IsScalar := by
  cases v <;> cases type <;> simp_all [Value.IsScalar, ColumnType.store, intValue, decimalValue]

theorem isScalar_load (cell : Cell) : (cell.load : Value F).IsScalar := by
  cases cell <;> trivial

/-- **A row is hashed alike twice exactly when its event survives**, where no two texts have one
digest. -/
theorem recomputed_hash_iff (hsha : Function.Injective sha256)
    (h : storeRow (setItem "prev_hash" (.str prevHash) event) prevHash rowHash = some row) :
    sha256 (canonicalJson (rowToHashData (F := F) row)) =
      sha256 (canonicalJson (setItem "prev_hash" (.str prevHash) event)) ↔ Survives event := by
  refine ⟨fun hhash column hcolumn hne => ?_, fun hevent => recomputed_hash sha256 hevent h⟩
  have hflat : Flat (rowToHashData (F := F) row) ∧ Flat (setItem "prev_hash" (.str prevHash) event) := by
    constructor <;> intro key hkey <;> rcases hashed_columns key hkey with rfl | ⟨c, hc, hc', rfl⟩
    · rw [get_prevHash]
      trivial
    · obtain ⟨cell, -, hread, -⟩ := stored_column h hc hc'
      exact hread ▸ isScalar_load cell
    · rw [get_setItem, if_pos rfl]
      trivial
    · obtain ⟨cell, hcell, -, hget⟩ := stored_column h hc hc'
      exact hget ▸ isScalar_of_store hcell
  obtain ⟨cell, hcell, hread, hget⟩ := stored_column h hcolumn hne
  rw [← ColumnType.load_store hcell, ← hread, ← hget]
  exact get_of_canonicalJson hflat.1 hflat.2 (hsha hhash) (columns_hashed column hcolumn hne).2.2

end Row

/-! ## validated rows -/

section Validate

variable {F : Type} [Numerals F] (sha256 : ByteArray → String) (pyRepr : Value F → String)

/-- The chain that `validate_chain` walks. -/
def eventChain (F : Type) [Numerals F] (sha256 : ByteArray → String) :
    HashChain (Nat × EventsAuditLog) String where
  genesis := genesisHash sha256
  prev p := p.2.prevHash
  hash p := p.2.rowHash
  digest p := sha256 (canonicalJson (rowToHashData (F := F) p.2))

theorem computeRowHash_rowToHashData (row : EventsAuditLog) :
    computeRowHash sha256 (rowToHashData (F := F) row) =
      .ok (sha256 (canonicalJson (rowToHashData (F := F) row))) := by
  simp [computeRowHash, rowToHashData, hashDataFields]

theorem validateRows_of_valid {rows : List (Nat × EventsAuditLog)}
    (h : (eventChain F sha256).ValidFrom expectedPrevHash rows) (checked : Nat) :
    validateRows sha256 pyRepr expectedPrevHash checked rows =
      .ok ⟨true, checked + rows.length, none, none⟩ := by
  induction rows generalizing expectedPrevHash checked with
  | nil => rfl
  | cons p rows ih =>
      obtain ⟨hprev, hhash, hrows⟩ := h
      have hprev : ¬p.2.prevHash ≠ expectedPrevHash := not_not.mpr hprev
      have hhash : ¬p.2.rowHash ≠ sha256 (canonicalJson (rowToHashData (F := F) p.2)) := not_not.mpr hhash
      have hcount : checked + 1 + rows.length = checked + (p :: rows).length := by
        rw [List.length_cons]
        omega
      rw [validateRows, computeRowHash_rowToHashData, if_neg hprev]
      show (if p.2.rowHash ≠ _ then _ else _) = _
      rw [if_neg hhash, ← hcount]
      exact ih hrows (checked + 1)

theorem validateRows_isValid_iff (rows : List (Nat × EventsAuditLog)) (expectedPrevHash : String)
    (checked : Nat) :
    ∃ result, validateRows sha256 pyRepr expectedPrevHash checked rows = .ok result ∧
      (result.isValid = true ↔ (eventChain F sha256).ValidFrom expectedPrevHash rows) := by
  induction rows generalizing expectedPrevHash checked with
  | nil => exact ⟨_, rfl, by simp [HashChain.ValidFrom]⟩
  | cons p rows ih =>
      rw [validateRows, computeRowHash_rowToHashData]
      show ∃ result, _ ∧ (_ ↔ p.2.prevHash = _ ∧ p.2.rowHash = _ ∧ _)
      by_cases hprev : p.2.prevHash = expectedPrevHash
      · by_cases hhash : p.2.rowHash = sha256 (canonicalJson (rowToHashData (F := F) p.2))
        · obtain ⟨result, hresult, hiff⟩ := ih p.2.rowHash (checked + 1)
          refine ⟨result, ?_, hiff.trans ⟨fun h => ⟨hprev, hhash, h⟩, fun h => h.2.2⟩⟩
          rw [if_neg (not_not.mpr hprev)]
          show (if p.2.rowHash ≠ _ then _ else _) = _
          rw [if_neg (not_not.mpr hhash), hresult]
        · refine ⟨_, by rw [if_neg (not_not.mpr hprev)]; exact if_pos hhash, ?_⟩
          exact ⟨fun h => absurd h Bool.false_ne_true, fun h => absurd h.2.1 hhash⟩
      · exact ⟨_, if_pos hprev, fun h => absurd h Bool.false_ne_true, fun h => absurd h.1 hprev⟩

theorem validateChain_eq {result : ChainValidationResult} (hsession : assertPrivilegedSession pyRepr session = .ok ())
    (h : validateRows sha256 pyRepr (genesisHash sha256) 0 (rows t d) = .ok result) :
    validateChain sha256 pyRepr session t d = .ok result := by
  have hrole : session.currentUser ≠ some sentinelAppRole := by
    intro hrole
    rw [assertPrivilegedSession, if_pos hrole] at hsession
    contradiction
  simp [validateChain, hsession, h, bind, Except.bind, hrole]

theorem validateChain_of_valid (hsession : assertPrivilegedSession pyRepr session = .ok ())
    (h : (eventChain F sha256).Valid (rows t d)) :
    validateChain sha256 pyRepr session t d = .ok ⟨true, (rows t d).length, none, none⟩ := by
  refine validateChain_eq sha256 pyRepr hsession ?_
  rw [← Nat.zero_add (rows t d).length]
  exact validateRows_of_valid sha256 pyRepr h 0

theorem validateChain_isValid_iff (t : Txn) (d : AuditDb) (session : Session)
    (hsession : assertPrivilegedSession pyRepr session = .ok ()) :
    ∃ result, validateChain sha256 pyRepr session t d = .ok result ∧
      (result.isValid = true ↔ (eventChain F sha256).Valid (rows t d)) := by
  obtain ⟨result, hresult, hiff⟩ := validateRows_isValid_iff sha256 pyRepr (rows t d) (genesisHash sha256) 0
  exact ⟨result, validateChain_eq sha256 pyRepr hsession hresult, hiff⟩

end Validate

/-! ## every schedule -/

section Schedule

variable {F : Type} [Numerals F] {sha256 : ByteArray → String} {pyRepr : Value F → String}

/-- One chain, under one lock. -/
abbrev SoundAudit (F : Type) [Numerals F] (sha256 : ByteArray → String) : AuditDb → Prop :=
  Sound (eventChain F sha256) allRows fun _ => chainAdvisoryLockId

/-- Transactions that append events which survive. -/
abbrev auditLogic (F : Type) [Numerals F] (sha256 : ByteArray → String) :
    Logic AuditDb (AppendRequest F) (List (Nat × EventsAuditLog)) :=
  logic (eventChain F sha256) allRows (fun _ => chainAdvisoryLockId) fun req =>
    ∀ event ∈ req.events, Survives event

theorem wp_append {event : List (String × Value F)} (hevent : Survives event) :
    (auditLogic F sha256).wp t (fun _ _ => True) (append sha256 pyRepr session event) d := by
  refine Logic.wp_ofExcept_bind fun _ _ => Logic.wp_ofExcept_bind fun _ _ => ?_
  refine Logic.wp_exec_bind fun d₁ h₁ _ _ d₂ hlock _ => ?_
  obtain ⟨⟨hsound, hrely⟩, hheld⟩ := Sound.advisoryXactLock h₁ hlock
  refine ⟨⟨hsound, hrely⟩, Logic.wp_query_bind Relies.refl fun d₃ h₃ hr₃ => ?_⟩
  refine Logic.wp_ofExcept_bind fun rowHash hrowHash => ?_
  refine Logic.wp_checked fun d₄ h₄ hr₄ _ d₅ hinsert _ => ?_
  -- the lock is held since before the tip was read, so it is still the tip
  have hlock₃ : d₃.locks chainAdvisoryLockId = some t := hr₃.locks _ hheld
  have hlock₄ : d₄.locks chainAdvisoryLockId = some t := hr₄.locks _ hlock₃
  have htip : tipHash sha256 t d₃ =
      (eventChain F sha256).tip (d₄.rowsOf (d₄.table.visible t) (allRows ())) := by
    rw [tipHash, rows, hr₄.rows () hlock₃, HashChain.tip]
    cases (d₃.rowsOf (d₃.table.visible t) (allRows ())).getLast? <;> rfl
  unfold insertEvent at hinsert
  split at hinsert
  · obtain ⟨-, rfl⟩ := Prod.mk.inj (Option.some.inj hinsert)
    exact ⟨⟨h₄, fun u _ => Relies.refl u d₄⟩, fun _ _ _ _ _ => trivial⟩
  · next row hrow =>
      obtain ⟨-, rfl⟩ := Prod.mk.inj (Option.some.inj hinsert)
      obtain ⟨hprev, hhash⟩ := storeRow_hashes hrow
      have hdigest := computeRowHash_eq sha256 hrowHash
      rw [← recomputed_hash sha256 hevent hrow, ← hhash] at hdigest
      obtain ⟨hsound', hrely'⟩ := Sound.insert h₄ row (fun _ _ => hlock₄)
        (fun _ _ => hprev.trans htip) hdigest
      exact ⟨⟨hsound', hrely'⟩, fun _ _ _ _ _ => trivial⟩

theorem wp_appendEvents {events : List (List (String × Value F))} (hevents : ∀ event ∈ events, Survives event)
    (h : SoundAudit F sha256 d) :
    (auditLogic F sha256).wp t (fun _ _ => True) (appendEvents sha256 pyRepr session events) d := by
  induction events generalizing d with
  | nil => exact fun _ _ _ => trivial
  | cons event events ih =>
      refine Logic.wp_bind (Relies.refl t) h ?_
      refine Logic.wp_mono (Q := fun _ _ => True) (fun row d' h' _ => ?_) 
        (wp_append (hevents event (by simp)))
      refine Logic.wp_bind (Relies.refl t) h' ?_
      refine Logic.wp_mono (Q := fun _ _ => True) (fun rows d'' _ _ => ?_)
        (ih (fun e he => hevents e (by simp [he])) h')
      exact fun _ _ _ => trivial

theorem auditLogic_sound : (auditLogic F sha256).Sound (appendAll sha256 pyRepr) :=
  logic_sound fun _ _ _ hreq h => wp_appendEvents hreq h

end Schedule

/-- A log between transactions that validates: an empty one, or one that was filled
before. -/
structure Settled {F : Type} [Numerals F] (sha256 : ByteArray → String) (pyRepr : Value F → String)
    (d : AuditDb) : Prop where
  quiet : d.table.Quiet
  ordered : d.table.keys.Pairwise (· < ·)
  bounded : ∀ k ∈ d.table.keys, k < d.nextSequence
  valid : ∀ t, ∃ result, validateChain sha256 pyRepr ⟨none, some "privileged"⟩ t d = .ok result ∧
    result.isValid = true

section Settled

variable {F : Type} [Numerals F] {sha256 : ByteArray → String} {pyRepr : Value F → String}

theorem Settled.sound (h : Settled sha256 pyRepr d) : SoundAudit F sha256 d :=
  sound_of_quiet h.quiet h.ordered h.bounded fun t _ => by
    obtain ⟨result, hresult, hvalid⟩ := h.valid t
    obtain ⟨result', hresult', hiff⟩ := validateChain_isValid_iff sha256 pyRepr t d
      ⟨none, some "privileged"⟩ rfl
    obtain rfl := Except.ok.inj (hresult.symm.trans hresult')
    exact hiff.mp hvalid

theorem settled_empty : Settled sha256 pyRepr empty where
  quiet _ := rfl
  ordered := .nil
  bounded := nofun
  valid _ := ⟨_, rfl, rfl⟩

variable {event : List (String × Value F)}

theorem eval_append (h : (append sha256 pyRepr session event).eval t d = some (.ok p, d')) :
    ∃ d₀ row, advisoryXactLock chainAdvisoryLockId t d = some ((), d₀) ∧
      d' = d₀.insert t row ∧
      storeRow (setItem "prev_hash" (.str (tipHash sha256 t d₀)) event) (tipHash sha256 t d₀)
        (sha256 (canonicalJson (setItem "prev_hash" (.str (tipHash sha256 t d₀)) event))) = some row := by
  simp only [append, Prog.eval_bind_eq_ok, Prog.eval_ofExcept, Prog.eval_query, Option.some.injEq,
    Prod.mk.injEq] at h
  obtain ⟨-, d₁, ⟨-, rfl⟩, -, d₂, ⟨-, rfl⟩, _, d₀, hlock, prevHash, d₃, ⟨hprev, rfl⟩, rowHash, d₄,
    ⟨hrowHash, rfl⟩, hinsert⟩ := h
  obtain rfl := Except.ok.inj hprev
  rw [Prog.eval_exec] at hlock
  obtain ⟨⟨_, d₅⟩, hlocked, he⟩ := Option.map_eq_some_iff.mp hlock
  obtain rfl := (Prod.mk.inj he).2
  rw [Prog.eval_checked_eq_ok, insertEvent, computeRowHash_eq sha256 hrowHash] at hinsert
  split at hinsert
  · simp at hinsert
  · next row hrow =>
      obtain ⟨-, rfl⟩ := Prod.mk.inj (Option.some.inj hinsert)
      exact ⟨d₅, row, hlocked, rfl, hrow⟩

/-- **One append more**: from a log that validates, it validates afterwards exactly if the event
survives. -/
theorem append_validates_iff (hsha : Function.Injective sha256) (hd : Settled sha256 pyRepr d)
    (h : atomically t (append sha256 pyRepr session event) d = some (.ok p, d')) (u : Txn) (session' : Session)
    (hsession : assertPrivilegedSession pyRepr session' = .ok ()) :
    ∃ result, validateChain sha256 pyRepr session' u d' = .ok result ∧
      (result.isValid = true ↔ Survives event) := by
  obtain ⟨result, hresult, hiff⟩ := validateChain_isValid_iff sha256 pyRepr u d' session' hsession
  refine ⟨result, hresult, hiff.trans ?_⟩
  obtain ⟨d₁, heval, rfl⟩ := atomically_eq_ok h
  obtain ⟨d₀, row, hlock, rfl, hrow⟩ := eval_append heval
  obtain ⟨⟨hsound, -⟩, hheld⟩ := Sound.advisoryXactLock hd.sound hlock
  have hquiet : d₀.table.Quiet := by
    unfold advisoryXactLock at hlock
    grind [hd.quiet]
  obtain ⟨hprev, hhash⟩ := storeRow_hashes hrow
  have htip : row.prevHash = (eventChain F sha256).tip (rows t d₀) := by
    rw [hprev, tipHash, HashChain.tip]
    cases (rows t d₀).getLast? <;> rfl
  have hrows : rows u (Database.commit t (d₀.insert t row)) = rows t d₀ ++ [(d₀.nextSequence, row)] := by
    rw [rows, rowsOf_commit_insert hquiet,
      hsound.toOrdered.rowsOf_insert_self (fun _ _ => hheld)]
    rfl
  rw [hrows, HashChain.valid_concat, ← recomputed_hash_iff sha256 hsha hrow]
  have hvalid : (eventChain F sha256).Valid (rows t d₀) := hsound.visible t ()
  exact ⟨fun hx => hx.2.2.symm.trans hhash, fun hx => ⟨hvalid, htip, hhash.trans hx.symm⟩⟩

end Settled

/-- **The audit chain validates** for every privileged session, whatever the order of the
appends, if every event that is appended survives its columns; and an append that runs
alone leaves a chain that validates only then. -/
theorem chain_validates {F : Type} [Numerals F] (sha256 : ByteArray → String) (pyRepr : Value F → String)
    (d : AuditDb) (hd : Settled sha256 pyRepr d) :
    (∀ (schedule : List (Action (AppendRequest F)))
        (s : Sys AuditDb AuditError (AppendRequest F) (List (Nat × EventsAuditLog))),
      (∀ t req, .begin t req ∈ schedule → ∀ event ∈ req.events, Survives event) →
      run (appendAll sha256 pyRepr) (Sys.start d) schedule = some s →
      ∀ t session, assertPrivilegedSession pyRepr session = .ok () →
        validateChain sha256 pyRepr session t s.db = .ok ⟨true, (rows t s.db).length, none, none⟩) ∧
    (Function.Injective sha256 → ∀ (t : Txn) (session : Session) (event : List (String × Value F))
        (p : Nat × EventsAuditLog) (d' : AuditDb),
      atomically t (append sha256 pyRepr session event) d = some (.ok p, d') →
      ∀ u session', assertPrivilegedSession pyRepr session' = .ok () →
        ∃ result, validateChain sha256 pyRepr session' u d' = .ok result ∧
          (result.isValid = true ↔ Survives event)) := by
  constructor
  · intro schedule s hsurvives hrun t session hsession
    exact validateChain_of_valid sha256 pyRepr hsession
      (valid_of_run auditLogic_sound hd.sound hsurvives hrun t ())
  · intro hsha t session event p d' h u session' hsession
    exact append_validates_iff hsha hd h u session' hsession

section Sample

/-- Three floats of a usage event: the cost of nothing, of one token, and that cost as a
decimal of six digits. -/
inductive SampleFloat
  | free
  | oneToken
  | sixDigits
deriving DecidableEq

instance : Numerals SampleFloat where
  repr
    | .free => ['0', '.', '0']
    | .oneToken => ['1', '.', '5', 'e', '-', '0', '6']
    | .sixDigits => ['2', 'e', '-', '0', '6']
  ofText cs :=
    if cs = ['0', '.', '0'] then some .free
    else if cs = ['1', '.', '5', 'e', '-', '0', '6'] then some .oneToken
    else if cs = ['2', 'e', '-', '0', '6'] then some .sixDigits
    else none
  isFloatText_repr x := by cases x <;> rfl
  ofText_repr x := by cases x <;> rfl
  toDecimal
    | .free => .finite 0
    | .oneToken => .finite (1770887431076117 / 1180591620717411303424)
    | .sixDigits => .finite (4722366482869645 / 2361183241434822606848)
  ofDecimal d :=
    if d = .finite 0 then .free else if d = .finite (2 / 1000000) then .sixDigits else .oneToken
  parseDecimal _ := none

def sampleEvent (tokensIn : Int) (cost : SampleFloat) : List (String × Value SampleFloat) :=
  [("event_type", .str "usage"), ("tenant_id", .str "t-1"), ("team_id", .str "m-1"),
    ("project_id", .str "p-1"), ("agent_id", .str "gateway-core"), ("event_id", .str "e-1"),
    ("event_timestamp", .str "2026-07-08T12:00:00Z"), ("request_id", .str "r-1"),
    ("model", .str "gpt-4o"), ("tokens_in", .int tokensIn), ("tokens_out", .int 0),
    ("latency_ms", .int 12), ("cost_estimate_cents", .float cost)]

def sampleSha256 : ByteArray → String := HashChain.knownDigest
  [("anoryx-sentinel:events:genesis:v1",
      "8d7c3ee31ce45808a8871f3a844adf13622e17ef348c857d0cb9c7e066424607"),
    ("\x7b\"action_taken\":null,\"agent_id\":\"gateway-core\",\"attempt_index\":null,\"audit_mode\":null,\"classifier_reason\":null,\"classifier_score\":null,\"control_id\":null,\"cost_estimate_cents\":0.0,\"detected_endpoint\":null,\"direction\":null,\"event_id\":\"e-1\",\"event_timestamp\":\"2026-07-08T12:00:00Z\",\"event_type\":\"usage\",\"final_score\":null,\"first_seen_at\":null,\"framework\":null,\"judge_confidence\":null,\"judge_model\":null,\"judge_outcome\":null,\"judge_preset\":null,\"judge_score\":null,\"latency_ms\":12,\"model\":\"gpt-4o\",\"outcome\":null,\"pattern_name\":null,\"policy_id\":null,\"prev_hash\":\"8d7c3ee31ce45808a8871f3a844adf13622e17ef348c857d0cb9c7e066424607\",\"project_id\":\"p-1\",\"request_id\":\"r-1\",\"requested_model\":null,\"routing_reason\":null,\"rule_matched\":null,\"secret_type\":null,\"selected_provider\":null,\"severity\":null,\"status\":null,\"team_id\":\"m-1\",\"tenant_id\":\"t-1\",\"tokens_in\":0,\"tokens_out\":0,\"traffic_volume\":null,\"violation_type\":null\x7d",
      "4532dfadbb4dfb6d3aa397742a6f5ebd7e6c60ee4889c16a3eebec0d93c5b8c0"),
    ("\x7b\"action_taken\":null,\"agent_id\":\"gateway-core\",\"attempt_index\":null,\"audit_mode\":null,\"classifier_reason\":null,\"classifier_score\":null,\"control_id\":null,\"cost_estimate_cents\":1.5e-06,\"detected_endpoint\":null,\"direction\":null,\"event_id\":\"e-1\",\"event_timestamp\":\"2026-07-08T12:00:00Z\",\"event_type\":\"usage\",\"final_score\":null,\"first_seen_at\":null,\"framework\":null,\"judge_confidence\":null,\"judge_model\":null,\"judge_outcome\":null,\"judge_preset\":null,\"judge_score\":null,\"latency_ms\":12,\"model\":\"gpt-4o\",\"outcome\":null,\"pattern_name\":null,\"policy_id\":null,\"prev_hash\":\"8d7c3ee31ce45808a8871f3a844adf13622e17ef348c857d0cb9c7e066424607\",\"project_id\":\"p-1\",\"request_id\":\"r-1\",\"requested_model\":null,\"routing_reason\":null,\"rule_matched\":null,\"secret_type\":null,\"selected_provider\":null,\"severity\":null,\"status\":null,\"team_id\":\"m-1\",\"tenant_id\":\"t-1\",\"tokens_in\":1,\"tokens_out\":0,\"traffic_volume\":null,\"violation_type\":null\x7d",
      "dad73897e45721c0ba269ba637e873687720a5a3760cfb0b0b1c66ec0d968859"),
    ("\x7b\"action_taken\":null,\"agent_id\":\"gateway-core\",\"attempt_index\":null,\"audit_mode\":null,\"classifier_reason\":null,\"classifier_score\":null,\"control_id\":null,\"cost_estimate_cents\":2e-06,\"detected_endpoint\":null,\"direction\":null,\"event_id\":\"e-1\",\"event_timestamp\":\"2026-07-08T12:00:00Z\",\"event_type\":\"usage\",\"final_score\":null,\"first_seen_at\":null,\"framework\":null,\"judge_confidence\":null,\"judge_model\":null,\"judge_outcome\":null,\"judge_preset\":null,\"judge_score\":null,\"latency_ms\":12,\"model\":\"gpt-4o\",\"outcome\":null,\"pattern_name\":null,\"policy_id\":null,\"prev_hash\":\"8d7c3ee31ce45808a8871f3a844adf13622e17ef348c857d0cb9c7e066424607\",\"project_id\":\"p-1\",\"request_id\":\"r-1\",\"requested_model\":null,\"routing_reason\":null,\"rule_matched\":null,\"secret_type\":null,\"selected_provider\":null,\"severity\":null,\"status\":null,\"team_id\":\"m-1\",\"tenant_id\":\"t-1\",\"tokens_in\":1,\"tokens_out\":0,\"traffic_volume\":null,\"violation_type\":null\x7d",
      "62e6f5be8632f4da172f6aac54aa995988ed31874e966057daee343826919487")]

def samplePyRepr : Value SampleFloat → String
  | .str s => s!"'{s}'"
  | _ => "None"

def sampleSession : Session := ⟨some "sentinel", some "privileged"⟩

def sampleSchedule : List (Action (AppendRequest SampleFloat)) :=
  [.begin 1 ⟨sampleSession, [sampleEvent 0 .free]⟩, .exec 1, .exec 1, .exec 1, .commit 1]

theorem sampleSha256_injective : Function.Injective sampleSha256 :=
  HashChain.knownDigest_injective (by decide +kernel) (by decide +kernel)

theorem sampleEvent_accepted : ∀ event ∈ [sampleEvent 0 .free, sampleEvent 1 .oneToken],
    ∃ p d', atomically 1 (append sampleSha256 samplePyRepr sampleSession event) empty =
      some (.ok p, d') := by
  have hok : ∀ event ∈ [sampleEvent 0 .free, sampleEvent 1 .oneToken],
      ((atomically 1 (append sampleSha256 samplePyRepr sampleSession event) empty).bind fun r =>
        r.1.toOption.map fun _ => ()) = some () := by
    decide +kernel
  intro event hevent
  obtain ⟨⟨r, d'⟩, happend, hr⟩ := Option.bind_eq_some_iff.mp (hok event hevent)
  cases r with
  | error e => contradiction
  | ok p => exact ⟨p, d', happend⟩

/-- A request that was rejected costs nothing, and its event survives. -/
theorem chain_validates_sample :
    (∃ s, run (appendAll sampleSha256 samplePyRepr) (Sys.start empty) sampleSchedule = some s ∧
      validateChain sampleSha256 samplePyRepr sampleSession 2 s.db =
        .ok ⟨true, (rows 2 s.db).length, none, none⟩) ∧
    ∃ p d', atomically 1 (append sampleSha256 samplePyRepr sampleSession (sampleEvent 0 .free))
        empty = some (.ok p, d') ∧
      ∃ result, validateChain sampleSha256 samplePyRepr sampleSession 2 d' = .ok result ∧
        (result.isValid = true ↔ Survives (sampleEvent 0 .free)) := by
  obtain ⟨hruns, halone⟩ := chain_validates sampleSha256 samplePyRepr empty settled_empty
  have hsome : (run (appendAll sampleSha256 samplePyRepr) (Sys.start empty)
      sampleSchedule).isSome := by
    decide +kernel
  obtain ⟨s, hrun⟩ := Option.isSome_iff_exists.mp hsome
  have hsurvives : ∀ t req, .begin t req ∈ sampleSchedule → ∀ event ∈ req.events, Survives event := by
    intro t req hmem event hevent
    simp only [sampleSchedule, List.mem_cons, List.not_mem_nil, or_false, reduceCtorEq,
      Action.begin.injEq] at hmem
    obtain ⟨-, rfl⟩ := hmem
    obtain rfl := List.mem_singleton.mp hevent
    decide +kernel
  obtain ⟨p, d', happend⟩ := sampleEvent_accepted _ (List.mem_cons_self ..)
  exact ⟨⟨s, hrun, hruns sampleSchedule s hsurvives hrun 2 sampleSession rfl⟩, p, d', happend,
    halone sampleSha256_injective 1 sampleSession _ p d' happend 2 sampleSession rfl⟩

/-- **An honest log is reported**: one prompt token costs 0.0000015 cents, and the column
keeps 0.000002 of them. -/
theorem honest_append_reported :
    ∃ p d', atomically 1 (append sampleSha256 samplePyRepr sampleSession (sampleEvent 1 .oneToken))
        empty = some (.ok p, d') ∧
      ∃ result, validateChain sampleSha256 samplePyRepr sampleSession 2 d' = .ok result ∧
        result.isValid = false := by
  obtain ⟨p, d', happend⟩ := sampleEvent_accepted _ (List.mem_cons_of_mem _ (List.mem_cons_self ..))
  obtain ⟨result, hresult, hiff⟩ :=
    append_validates_iff sampleSha256_injective settled_empty happend 2 sampleSession rfl
  have hlost : ¬Survives (sampleEvent 1 .oneToken) := by decide +kernel
  exact ⟨p, d', happend, result, hresult, by simpa [hlost] using hiff⟩

end Sample

end Anoryx.Sentinel.AuditLog
