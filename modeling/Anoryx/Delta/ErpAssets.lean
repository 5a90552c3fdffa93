import Anoryx.Calendar
import Anoryx.ReadCommitted.Evolving

/-!
# Anoryx.Delta.ErpAssets

The asset register (`erp/store.py`, `erp/service.py`): assets are created active, and their
status moves by conditional UPDATEs, one for each request.

`retired_at` is to say when an asset stopped being active.  The UPDATE of a disposal writes it
again, so it is the time of the first exit exactly where no disposal came at another moment than
the retirement (`asset_lifecycle`).

`changes` is the history of a row; no statement reads it.
-/

namespace Anoryx.Delta.Erp

open ReadCommitted

/-! ## rows -/

inductive AssetStatus
  | active
  | retired
  | disposed
deriving DecidableEq

/-- A row of `assets`, under its `asset_id`. -/
structure Asset where
  tenantId : String
  name : String
  category : String
  status : AssetStatus
  acquisitionCostMinorUnits : Option Int
  currency : Option String
  acquiredAt : Option DateTime
  assignedTeamId : Option String
  retiredAt : Option DateTime
  createdAt : DateTime
  updatedAt : DateTime
  changes : List (AssetStatus × DateTime)
deriving DecidableEq

structure ErpDb where
  assets : Table String Asset

instance : Database ErpDb where
  commit t d := ⟨d.assets.commit t⟩
  rollback t d := ⟨d.assets.rollback t⟩

def ErpDb.empty : ErpDb := ⟨Table.empty⟩

/-! ## the requests -/

def defaultCurrency : String := "USD"

/-- A valid `AssetCreateRequest`, with the id and the moment that the call takes. -/
structure AssetCreateRequest where
  tenantId : String
  name : String
  category : String
  acquisitionCostMinorUnits : Option Int
  currency : Option String
  acquiredAt : Option DateTime
  assignedTeamId : Option String
  assetId : String
  now : DateTime

/-- A valid `AssetStatusTransitionRequest` for an asset, with the moment that the call takes. -/
structure AssetStatusTransitionRequest where
  assetId : String
  tenantId : String
  status : AssetStatus
  now : DateTime

inductive AssetError
  | notFound (assetId : String)
  | invalidTransition (text : String)
  | uniqueViolation
deriving DecidableEq

/-! ## the store -/

def requiredPriorStatus : AssetStatus → Option AssetStatus
  | .active => none
  | .retired => some .active
  | .disposed => some .retired

/-- The values that `create_asset` inserts. -/
def AssetCreateRequest.row (req : AssetCreateRequest) : Asset where
  tenantId := req.tenantId
  name := req.name
  category := req.category
  status := .active
  acquisitionCostMinorUnits := req.acquisitionCostMinorUnits
  currency := if req.acquisitionCostMinorUnits.isSome then some (req.currency.getD defaultCurrency) else none
  acquiredAt := req.acquiredAt
  assignedTeamId := req.assignedTeamId
  retiredAt := none
  createdAt := req.now
  updatedAt := req.now
  changes := []

/-- The INSERT of an asset; `false` when there is one under the id. -/
def insertAsset (assetId : String) (row : Asset) (t : Txn) (d : ErpDb) : Option (Bool × ErpDb) :=
  (d.assets.insertOrIgnore t assetId row).map fun p => (p.1, { d with assets := p.2 })

/-- `get_asset`, in a session of the tenant. -/
def getAsset (tenantId assetId : String) (t : Txn) (d : ErpDb) : Option Asset :=
  (d.assets.visible t assetId).filter fun a => a.tenantId = tenantId

/-- The values that the UPDATE of `try_transition_asset_status` sets. -/
def Asset.transition (targetStatus : AssetStatus) (now : DateTime) (a : Asset) : Asset :=
  let retiredAt := if targetStatus = .retired ∨ targetStatus = .disposed then some now else none
  { a with
    status := targetStatus
    updatedAt := now
    retiredAt := if targetStatus = .active then a.retiredAt else retiredAt
    changes := a.changes ++ [(targetStatus, now)] }

/-- `try_transition_asset_status`, in a session of the tenant. -/
def tryTransitionAssetStatus (tenantId assetId : String) (targetStatus requiredPrior : AssetStatus) (now : DateTime)
    (t : Txn) (d : ErpDb) : Option (Bool × ErpDb) :=
  (d.assets.updateWhere t assetId (fun a => a.tenantId = tenantId && a.status = requiredPrior)
    (Asset.transition targetStatus now)).map fun p => (p.1.isSome, { d with assets := p.2 })

/-! ## the service -/

def AssetStatus.text : AssetStatus → String
  | active => "active"
  | retired => "retired"
  | disposed => "disposed"

def createAsset (req : AssetCreateRequest) : Prog ErpDb AssetError Asset := do
  Prog.inserting .uniqueViolation (insertAsset req.assetId req.row)
  pure req.row

def transitionAssetStatus (req : AssetStatusTransitionRequest) : Prog ErpDb AssetError Asset := do
  let existing ← Prog.query (getAsset req.tenantId req.assetId)
  if existing.isNone then Prog.raise (.notFound req.assetId)
  else
    match requiredPriorStatus req.status with
    | none => Prog.raise (.invalidTransition (req.status.text ++ " is not a valid forward transition target"))
    | some requiredPrior => do
        let moved ← Prog.exec (tryTransitionAssetStatus req.tenantId req.assetId req.status requiredPrior req.now)
        if moved then
          let record ← Prog.query (getAsset req.tenantId req.assetId)
          match record with
          | none => Prog.raise (.notFound req.assetId)
          | some record => pure record
        else
          Prog.raise (.invalidTransition ("asset " ++ req.assetId ++ " is not currently '" ++ requiredPrior.text ++
            "' — cannot move to '" ++ req.status.text ++ "'"))

inductive AssetCall
  | create (req : AssetCreateRequest)
  | transition (req : AssetStatusTransitionRequest)

def AssetCall.prog : AssetCall → Prog ErpDb AssetError Asset
  | create req => createAsset req
  | transition req => transitionAssetStatus req

/-! ## lifecycles -/

/-- A status and a `retired_at`, with the changes that led to them. -/
inductive Lifecycle : AssetStatus → Option DateTime → List (AssetStatus × DateTime) → Prop
  | active : Lifecycle .active none []
  | retired (t : DateTime) : Lifecycle .retired (some t) [(.retired, t)]
  | disposed (t u : DateTime) : Lifecycle .disposed (some u) [(.retired, t), (.disposed, u)]

/-- The row is what its changes made of it. -/
def Asset.Lawful (a : Asset) : Prop := Lifecycle a.status a.retiredAt a.changes

/-- When an asset left `active`. -/
def firstExit (changes : List (AssetStatus × DateTime)) : Option DateTime :=
  (changes.find? fun c => c.1 ≠ .active).map Prod.snd

/-- No disposal came at another moment than the retirement. -/
def DisposedAtRetirement (changes : List (AssetStatus × DateTime)) : Prop :=
  ∀ t, (AssetStatus.disposed, t) ∈ changes → (AssetStatus.retired, t) ∈ changes

variable {a b : Asset} {target prior : AssetStatus} {now t : DateTime}

theorem Asset.Lawful.retiredAt_iff (h : a.Lawful) :
    a.retiredAt = firstExit a.changes ↔ DisposedAtRetirement a.changes := by
  unfold Asset.Lawful at h
  cases a
  cases h with
  | active => simp [firstExit, DisposedAtRetirement]
  | retired t => simp [firstExit, DisposedAtRetirement]
  | disposed t u => simp [firstExit, DisposedAtRetirement]

theorem Asset.Lawful.transition (h : a.Lawful) (hprior : requiredPriorStatus target = some prior)
    (hstatus : a.status = prior) : (a.transition target now).Lawful := by
  unfold Asset.Lawful at h ⊢
  cases a
  cases target with
  | active => simp [requiredPriorStatus] at hprior
  | retired =>
      cases hprior
      cases h <;> simp at hstatus
      exact .retired now
  | disposed =>
      cases hprior
      cases h <;> simp at hstatus
      exact .disposed _ now

/-! ## versions -/

/-- What becomes of a row: it gathers changes, and is left alone once it is disposed of. -/
structure Asset.Ages (a b : Asset) : Prop where
  lawful : a.Lawful → b.Lawful
  changes : a.changes <+: b.changes
  disposed : a.status = .disposed → b = a

instance : Std.Refl Asset.Ages := ⟨fun a => ⟨id, List.prefix_refl a.changes, fun _ => rfl⟩⟩

instance : IsTrans Asset Asset.Ages where
  trans a b c h h' := {
    lawful := fun ha => h'.lawful (h.lawful ha)
    changes := h.changes.trans h'.changes
    disposed := fun ha => by
      have hb := h.disposed ha
      rw [h'.disposed (hb ▸ ha), hb] }

theorem Asset.ages_transition (now : DateTime) (hprior : requiredPriorStatus target = some prior)
    (hstatus : a.status = prior) : a.Ages (a.transition target now) where
  lawful h := h.transition hprior hstatus
  changes := List.prefix_append a.changes _
  disposed hdisposed := by
    rw [← hstatus, hdisposed] at hprior
    cases target <;> cases hprior

theorem Asset.Ages.retiredAt_eq (h : a.Ages b) (ha : a.Lawful) (hb : DisposedAtRetirement b.changes)
    (ht : a.retiredAt = some t) : b.retiredAt = some t := by
  have hlawful := h.lawful ha
  have hchanges := h.changes
  have hdisposed := h.disposed
  unfold Asset.Lawful at ha hlawful
  cases a
  cases b
  cases ha <;> cases hlawful <;> simp_all [DisposedAtRetirement]

/-! ## the register -/

structure Register (d : ErpDb) : Prop where
  rows : ∀ assetId row, d.assets.HasVersion assetId row → row.Lawful
  ages : d.assets.Evolves Asset.Ages

/-- A register stays one, and its rows age. -/
def Keeps (d d' : ErpDb) : Prop := Register d → Register d' ∧ d.assets.Moves Asset.Ages d'.assets

theorem Keeps.refl (d : ErpDb) : Keeps d d := fun h => ⟨h, Table.Moves.refl d.assets⟩

theorem Keeps.trans (d d' d'' : ErpDb) (h : Keeps d d') (h' : Keeps d' d'') : Keeps d d'' := by
  intro hd
  obtain ⟨hd', hmoves⟩ := h hd
  obtain ⟨hd'', hmoves'⟩ := h' hd'
  exact ⟨hd'', hmoves.trans hmoves'⟩

theorem register_empty : Register ErpDb.empty where
  rows _ _ h := by rcases h with h | ⟨t, h⟩ <;> contradiction
  ages := Table.evolves_empty

theorem keeps_commit (t : Txn) (d : ErpDb) : Keeps d (Database.commit t d) := fun h =>
  ⟨⟨fun assetId row hrow => h.rows assetId row hrow.of_commit, (h.ages.commit t).1⟩, h.ages.moves_commit t⟩

theorem keeps_rollback (t : Txn) (d : ErpDb) : Keeps d (Database.rollback t d) := fun h =>
  ⟨⟨fun assetId row hrow => h.rows assetId row hrow.of_rollback, (h.ages.rollback t).1⟩, Table.Moves.refl d.assets⟩

theorem keeps_insertAsset (req : AssetCreateRequest) (t : Txn) (d : ErpDb) (b : Bool) (d' : ErpDb)
    (hrun : insertAsset req.assetId req.row t d = some (b, d')) : Keeps d d' := by
  intro h
  obtain ⟨⟨b', assets⟩, hinsert, he⟩ := Option.map_eq_some_iff.mp hrun
  cases he
  obtain ⟨hages, hfollows⟩ := h.ages.insertOrIgnore hinsert
  refine ⟨⟨fun assetId row hrow => ?_, hages⟩, (hfollows (t + 1) (Nat.succ_ne_self t)).moves⟩
  obtain ⟨-, rfl, -⟩ | ⟨-, rfl, -⟩ := Table.insertOrIgnore_cases hinsert
  · exact h.rows assetId row hrow
  · obtain hold | ⟨-, rfl⟩ := hrow.of_write
    · exact h.rows assetId row hold
    · exact Lifecycle.active

theorem keeps_tryTransition (req : AssetStatusTransitionRequest)
    (hprior : requiredPriorStatus req.status = some prior) (t : Txn) (d : ErpDb) (b : Bool) (d' : ErpDb)
    (hrun : tryTransitionAssetStatus req.tenantId req.assetId req.status prior req.now t d = some (b, d')) :
    Keeps d d' := by
  intro h
  obtain ⟨⟨row', assets⟩, hupdate, he⟩ := Option.map_eq_some_iff.mp hrun
  cases he
  have hstatus : ∀ a : Asset, (a.tenantId = req.tenantId && a.status = prior) = true → a.status = prior := by
    intro a ha
    simp only [Bool.and_eq_true, decide_eq_true_eq] at ha
    exact ha.2
  obtain ⟨hages, hfollows⟩ := h.ages.updateWhere (fun a ha => a.ages_transition req.now hprior (hstatus a ha)) hupdate
  refine ⟨⟨fun assetId row hrow => ?_, hages⟩, (hfollows (t + 1) (Nat.succ_ne_self t)).moves⟩
  obtain ⟨-, rfl, -⟩ | ⟨a, hvisible, ha, -, -, rfl⟩ := Table.updateWhere_cases hupdate
  · exact h.rows assetId row hrow
  · obtain hold | ⟨-, rfl⟩ := hrow.of_write
    · exact h.rows assetId row hold
    · exact (h.rows req.assetId a (.of_visible hvisible)).transition hprior (hstatus a ha)

/-! ## runs -/

theorem each_transitionAssetStatus (req : AssetStatusTransitionRequest) : (transitionAssetStatus req).Each Keeps := by
  refine (Prog.Each.query Keeps.refl _).bind fun existing => ?_
  split
  · exact .raise _
  · split
    · exact .raise _
    · next prior hprior =>
        refine (Prog.Each.exec (keeps_tryTransition req hprior)).bind fun moved => ?_
        split
        · refine (Prog.Each.query Keeps.refl _).bind fun record => ?_
          split
          · exact .raise _
          · exact .pure _
        · exact .raise _

theorem each_prog (call : AssetCall) : call.prog.Each Keeps := by
  cases call with
  | create req => exact (Prog.Each.inserting _ (keeps_insertAsset req)).bind fun _ => .pure _
  | transition req => exact each_transitionAssetStatus req

abbrev ErpSys := Sys ErpDb AssetError AssetCall Asset

def ErpSys.init : ErpSys := Sys.start ErpDb.empty

/-- **The lifecycle of an asset**, whatever calls run at the same time: `retired_at` is the time of
the first exit from `active`, unset while there was none, exactly where no disposal came at another
moment; a later version goes on from an earlier one and, where that is so, keeps its `retired_at`;
and what is disposed of does not change any more. -/
theorem asset_lifecycle {s s' : ErpSys} {sched sched' : List (Action AssetCall)}
    (hrun : run AssetCall.prog ErpSys.init sched = some s) (hrun' : run AssetCall.prog s sched' = some s')
    {assetId : String} {row' : Asset} (hrow' : s'.db.assets.committed assetId = some row') :
    (row'.retiredAt = firstExit row'.changes ↔ DisposedAtRetirement row'.changes) ∧
      ∀ row, s.db.assets.committed assetId = some row →
        row.changes <+: row'.changes ∧
          (DisposedAtRetirement row'.changes → ∀ t, row.retiredAt = some t → row'.retiredAt = some t) ∧
          (row.status = .disposed → row' = row) := by
  obtain ⟨hreach, hprocs⟩ := run_of_each Keeps.refl Keeps.trans keeps_commit keeps_rollback each_prog
    (fun t req p hidle => by contradiction) hrun
  obtain ⟨hmore, -⟩ := run_of_each Keeps.refl Keeps.trans keeps_commit keeps_rollback each_prog hprocs hrun'
  obtain ⟨hregister, -⟩ := hreach register_empty
  obtain ⟨hregister', hmoves⟩ := hmore hregister
  refine ⟨(hregister'.rows assetId row' (.inl hrow')).retiredAt_iff, fun row hrow => ?_⟩
  obtain ⟨v, hv, hages⟩ := hmoves assetId row hrow
  rw [hrow'] at hv
  cases hv
  have hlawful := hregister.rows assetId row (.inl hrow)
  exact ⟨hages.changes, fun hdisposed t ht => hages.retiredAt_eq hlawful hdisposed ht, hages.disposed⟩

/-! ## a disposal -/

def sampleCreate : AssetCreateRequest where
  tenantId := "tenant"
  name := "laptop"
  category := "hardware"
  acquisitionCostMinorUnits := none
  currency := none
  acquiredAt := none
  assignedTeamId := none
  assetId := "asset"
  now := .ofFields 2026 7 1 9 0 0 0 (Eq.refl true)

def sampleRetire : AssetStatusTransitionRequest :=
  ⟨"asset", "tenant", .retired, .ofFields 2026 7 2 9 0 0 0 (Eq.refl true)⟩

def sampleDispose : AssetStatusTransitionRequest :=
  ⟨"asset", "tenant", .disposed, .ofFields 2026 7 3 9 0 0 0 (Eq.refl true)⟩

def sampleSchedule : List (Action AssetCall) :=
  [.begin 0 (.create sampleCreate), .exec 0, .commit 0,
    .begin 1 (.transition sampleRetire), .exec 1, .exec 1, .exec 1, .commit 1]

def sampleDisposal : List (Action AssetCall) :=
  [.begin 2 (.transition sampleDispose), .exec 2, .exec 2, .exec 2, .commit 2]

def sampleRetired : Asset := sampleCreate.row.transition .retired sampleRetire.now

def sampleDisposed : Asset := sampleRetired.transition .disposed sampleDispose.now

theorem sample_runs : ∃ s s' : ErpSys,
    run AssetCall.prog ErpSys.init sampleSchedule = some s ∧ run AssetCall.prog s sampleDisposal = some s' ∧
      s.db.assets.committed "asset" = some sampleRetired ∧ s'.db.assets.committed "asset" = some sampleDisposed := by
  have heval : (run AssetCall.prog ErpSys.init sampleSchedule).bind (fun s =>
      (run AssetCall.prog s sampleDisposal).map fun s' =>
        (s.db.assets.committed "asset", s'.db.assets.committed "asset")) =
      some (some sampleRetired, some sampleDisposed) := by
    decide +kernel
  obtain ⟨s, hs, hrest⟩ := Option.bind_eq_some_iff.mp heval
  obtain ⟨s', hs', hrows⟩ := Option.map_eq_some_iff.mp hrest
  obtain ⟨hrow, hrow'⟩ := Prod.mk.inj hrows
  exact ⟨s, s', hs, hs', hrow, hrow'⟩

theorem asset_lifecycle_sample :
    (sampleDisposed.retiredAt = firstExit sampleDisposed.changes ↔ DisposedAtRetirement sampleDisposed.changes) ∧
      sampleRetired.changes <+: sampleDisposed.changes := by
  obtain ⟨s, s', hrun, hrun', hrow, hrow'⟩ := sample_runs
  obtain ⟨hexit, hlater⟩ := asset_lifecycle hrun hrun' hrow'
  exact ⟨hexit, (hlater sampleRetired hrow).1⟩

/-- The disposal overwrites the day of the retirement. -/
theorem retired_at_overwritten : ∃ s s' : ErpSys,
    run AssetCall.prog ErpSys.init sampleSchedule = some s ∧ run AssetCall.prog s sampleDisposal = some s' ∧
      ∃ row row', s.db.assets.committed "asset" = some row ∧ s'.db.assets.committed "asset" = some row' ∧
        row.retiredAt = some sampleRetire.now ∧ row'.retiredAt = some sampleDispose.now ∧
        firstExit row'.changes = some sampleRetire.now ∧ row'.retiredAt ≠ firstExit row'.changes := by
  obtain ⟨s, s', hrun, hrun', hrow, hrow'⟩ := sample_runs
  exact ⟨s, s', hrun, hrun', sampleRetired, sampleDisposed, hrow, hrow', rfl, rfl, rfl, by decide⟩

end Anoryx.Delta.Erp
