import Anoryx.Sentinel.VirtualKeys

/-!
# Anoryx.Sentinel.VirtualKeyRuns

What any run of mints, rotations, revocations and tenant deactivations does to the keys.

A rotation reads a key, clears its flag and inserts its successor, and asks nothing again in
between; a deactivation clears the keys that it finds when its statement starts.  As long as
a key that is being rotated stays active (`RotatesActive`), and no new key is committed to a
tenant that is deactivated or about to be (`Open`), what is revoked stays revoked.
-/

namespace Anoryx.Sentinel

open ReadCommitted Exclusive Table Function

variable {d d' d'' : KeyDb} {t u : Txn} {keyId tenantId : String} {row old : VirtualApiKey}

/-! ## how rows move -/

/-- A key stays as it is, or is made inactive. -/
def keyStep (row row' : VirtualApiKey) : Prop := row' = row ∨ row' = { row with isActive := false }

/-- An inactive tenant stays inactive. -/
def tenantStep (row row' : TenantRow) : Prop := row.isActive = false → row'.isActive = false

instance : Std.Refl keyStep := ⟨fun _ => .inl rfl⟩

instance : IsTrans VirtualApiKey keyStep where
  trans row row' row'' h h' := by
    rcases h with rfl | rfl
    · exact h'
    · rcases h' with rfl | rfl
      · exact .inr rfl
      · exact .inr rfl

instance : Std.Refl tenantStep := ⟨fun _ => id⟩

instance : IsTrans TenantRow tenantStep where
  trans _ _ _ h h' := fun hinactive => h' (h hinactive)

variable {row' v : VirtualApiKey} {found updated : Option VirtualApiKey} {directory : ScopeDirectory} {s s' : KeySys}
  {a : Action KeyRequest}

theorem keyStep.tenantId_eq (h : keyStep row row') : row'.tenantId = row.tenantId := by
  rcases h with rfl | rfl <;> rfl

theorem keyStep.inactive (h : keyStep row row') (hrow : row.isActive = false) : row'.isActive = false := by
  rcases h with rfl | rfl
  · exact hrow
  · rfl

theorem keyStep.eq_of_active (h : keyStep row row') (hrow' : row'.isActive = true) : row' = row := by
  rcases h with rfl | rfl
  · rfl
  · exact absurd hrow' Bool.false_ne_true

/-! ## the invariant -/

/-- A key that a rotation has loaded is active until the rotation has cleared it. -/
def RotatesActive (d : KeyDb) : Prop :=
  ∀ t keyId, d.rotating t = some keyId → ∃ row, d.keys.committed keyId = some row ∧ row.isActive = true

structure KeyInv (d : KeyDb) : Prop where
  tenants : d.tenants.Evolves tenantStep
  keys : d.keys.Evolves keyStep
  clearing : ∀ keyId t v w, d.keys.inflight keyId = some (t, v) → d.keys.committed keyId = some w → v.isActive = false
  loaded : RotatesActive d

def NoneActive (tenantId : String) (d : KeyDb) : Prop :=
  ∀ keyId row, d.keys.committed keyId = some row → row.tenantId = tenantId → row.isActive = false

/-- The tenant is inactive, and so are its keys. -/
def Retired (tenantId : String) (d : KeyDb) : Prop :=
  (∃ row, d.tenants.committed tenantId = some row ∧ row.isActive = false) ∧ NoneActive tenantId d

/-- The tenant is active, and nobody deactivates its keys. -/
def Open (tenantId : String) (d : KeyDb) : Prop :=
  (∀ row, d.tenants.committed tenantId = some row → row.isActive = true) ∧ ∀ u, d.cascading u ≠ some tenantId

/-- What `u` may rely on. -/
structure KeyRely (u : Txn) (d d' : KeyDb) : Prop where
  tenants : d.tenants.Follows tenantStep u d'.tenants
  keys : d.keys.Follows keyStep u d'.keys
  rotating : d'.rotating u = d.rotating u
  cascading : d'.cascading u = d.cascading u
  /-- no key of the tenant that `u` deactivates becomes active -/
  cascaded : ∀ tenantId, d.cascading u = some tenantId → ∀ keyId row, d'.keys.committed keyId = some row →
    row.tenantId = tenantId → row.isActive = true → d.keys.committed keyId = some row

theorem KeyRely.refl (u : Txn) (d : KeyDb) : KeyRely u d d :=
  ⟨Follows.refl u _, Follows.refl u _, rfl, rfl, fun _ _ _ _ h _ _ => h⟩

theorem KeyRely.trans (h : KeyRely u d d') (h' : KeyRely u d' d'') : KeyRely u d d'' where
  tenants := h.tenants.trans h'.tenants
  keys := h.keys.trans h'.keys
  rotating := h'.rotating.trans h.rotating
  cascading := h'.cascading.trans h.cascading
  cascaded tenantId hu keyId row hrow htenant hactive :=
    h.cascaded tenantId hu keyId row (h'.cascaded tenantId (h.cascading.trans hu) keyId row hrow htenant hactive) htenant hactive

/-- What every step does. -/
structure KeyMoves (d d' : KeyDb) : Prop where
  keys : d.keys.Moves keyStep d'.keys
  retired : ∀ tenantId, Retired tenantId d → Retired tenantId d'

/-! ## between two transactions -/

/-- Nothing in flight. -/
structure Clean (t : Txn) (d : KeyDb) : Prop where
  keys : d.keys.Unheld t
  tenants : d.tenants.Unheld t

theorem Clean.rely (h : Clean t d) (hr : KeyRely t d d') : Clean t d' :=
  ⟨h.keys.frame hr.keys.frame, h.tenants.frame hr.tenants.frame⟩

/-- A rotation has cleared the key, and inserted its successor. -/
structure Rotated (fingerprint : String → String) (t : Txn) (call : RotateKey) (old : VirtualApiKey) (d : KeyDb) : Prop where
  tenants : d.tenants.Unheld t
  version : d.keys.version t = update (update (fun _ => none) call.keyId
    (some { old with isActive := false })) call.newKeyId
    (some { old with keyFingerprint := fingerprint call.plaintext, isActive := true, expiresAt := none })
  key : d.keys.committed call.keyId = some old
  active : old.isActive = true
  tenantId : old.tenantId = call.tenantId
  fresh : d.keys.committed call.newKeyId = none

/-- All that a transaction has in flight are keys that it clears. -/
def ClearsOnly (t : Txn) (d : KeyDb) : Prop :=
  ∀ keyId v, d.keys.inflight keyId = some (t, v) → d.keys.committed keyId ≠ none

/-- What a request has come to before it is committed. -/
def KeyRequest.Done (fingerprint : String → String) (t : Txn) : KeyRequest → KeyDb → Prop
  | .mint call, d => d.tenants.Unheld t ∧ d.keys.HoldsOnly t call.keyId (call.row fingerprint)
  | .rotate call, d => ∃ old, Rotated fingerprint t call old d
  | .revoke tenantId keyId, d => ClearsOnly t d ∧ (∀ key v, d.keys.inflight key = some (t, v) → key = keyId) ∧
      ∃ row, d.keys.visible t keyId = some row ∧ row.tenantId = tenantId ∧ row.isActive = false
  | .deactivateTenant tenantId, d => ClearsOnly t d ∧
      (∃ row, d.tenants.visible t tenantId = some row ∧ row.isActive = false) ∧
      ∀ keyId row, d.keys.visible t keyId = some row → row.tenantId = tenantId → row.isActive = false

/-- Where a request may be committed: a new key goes to a tenant that is open. -/
def KeyRequest.Closes : KeyRequest → KeyDb → Prop
  | .mint call, d => Open call.tenantId d
  | .rotate call, d => Open call.tenantId d
  | .revoke _ _, _ => True
  | .deactivateTenant _, _ => True

def keySpec (fingerprint : String → String) : Exclusive KeyDb KeyRequest KeyAnswer Unit where
  key _ := none
  inv := KeyInv
  rely u _ := KeyRely u
  rests _ _ := True
  fresh := Clean
  works _ _ _ := True
  post t req _ d := req.Done fingerprint t d
  ended _ _ := True
  moves := KeyMoves
  closes := KeyRequest.Closes
  assumes := RotatesActive

variable {fingerprint : String → String}

/-! ## the end of a transaction -/

theorem KeyMoves.refl (d : KeyDb) : KeyMoves d d := ⟨Moves.refl _, fun _ => id⟩

theorem KeyMoves.trans (h : KeyMoves d d') (h' : KeyMoves d' d'') : KeyMoves d d'' :=
  ⟨h.keys.trans h'.keys, fun tenantId hretired => h'.retired tenantId (h.retired tenantId hretired)⟩

/-- **A commit**, of new keys for open tenants only. -/
theorem key_keeps_commit (hinv : KeyInv d) (hassumes : RotatesActive (Database.commit t d))
    (hnew : ∀ keyId v, d.keys.inflight keyId = some (t, v) → d.keys.committed keyId = none → Open v.tenantId d) :
    (keySpec fingerprint).Keeps t none d (Database.commit t d) := by
  -- an active key that is there afterwards was there, or is new
  have hactive : ∀ {keyId row}, (d.keys.commit t).committed keyId = some row → row.isActive = true →
      d.keys.committed keyId = some row ∨ Open row.tenantId d := by
    intro keyId row hrow hactive
    rw [committed_commit] at hrow
    rcases visible_cases d.keys t keyId with ⟨v, hin, hvisible⟩ | ⟨-, hvisible⟩
    · obtain rfl : v = row := Option.some.inj (hvisible.symm.trans hrow)
      cases hc : d.keys.committed keyId with
      | none => exact .inr (hnew keyId v hin hc)
      | some w =>
          rw [hinv.clearing keyId t v w hin hc] at hactive
          exact absurd hactive Bool.false_ne_true
    · exact .inl (hvisible.symm.trans hrow)
  refine ⟨⟨(hinv.tenants.commit t).1, (hinv.keys.commit t).1, fun keyId u v w hin hw => ?_, hassumes⟩,
    fun u _ hu _ => ⟨(hinv.tenants.commit t).2 u hu, (hinv.keys.commit t).2 u hu, update_of_ne hu _ _,
      update_of_ne hu _ _, fun tenantId hcascading keyId row hrow htenant hrowActive => ?_⟩,
    fun _ _ _ => trivial, hinv.keys.moves_commit t, fun tenantId hretired => ⟨?_, fun keyId row hrow htenant => ?_⟩⟩
  · obtain ⟨hin, hu⟩ := inflight_commit_eq_some.mp hin
    exact hinv.clearing keyId u v w hin ((committed_commit_of_held hu hin).symm.trans hw)
  · rcases hactive hrow hrowActive with hrow | hopen
    · exact hrow
    · exact absurd (htenant ▸ hcascading) (hopen.2 u)
  · obtain ⟨⟨row, hrow, hinactive⟩, -⟩ := hretired
    obtain ⟨row', hrow', hstep⟩ := hinv.tenants.moves_commit t tenantId row hrow
    exact ⟨row', hrow', hstep hinactive⟩
  · by_contra hne
    rcases hactive hrow (Bool.eq_true_of_not_eq_false hne) with hrow | hopen
    · exact hne (hretired.2 keyId row hrow htenant)
    · obtain ⟨⟨tenant, htenantRow, hinactive⟩, -⟩ := hretired
      rw [hopen.1 tenant (htenant ▸ htenantRow)] at hinactive
      exact absurd hinactive.symm Bool.false_ne_true

theorem key_keeps_rollback (hinv : KeyInv d) (hassumes : RotatesActive (Database.rollback t d)) :
    (keySpec fingerprint).Keeps t none d (Database.rollback t d) := by
  refine ⟨⟨(hinv.tenants.rollback t).1, (hinv.keys.rollback t).1, fun keyId u v w hin hw => ?_, hassumes⟩,
    fun u _ hu _ => ⟨(hinv.tenants.rollback t).2 u hu, (hinv.keys.rollback t).2 u hu, update_of_ne hu _ _,
      update_of_ne hu _ _, fun _ _ _ _ hrow _ _ => hrow⟩,
    fun _ _ _ => trivial, ⟨Moves.refl _, fun _ => id⟩⟩
  exact hinv.clearing keyId u v w (inflight_rollback_eq_some.mp hin).1 hw

/-! ## the statements -/

theorem key_keeps_of (hinv : KeyInv d') (htenants : ∀ u, u ≠ t → d.tenants.Follows tenantStep u d'.tenants)
    (hkeys : ∀ u, u ≠ t → d.keys.Follows keyStep u d'.keys) (hrotating : ∀ u, u ≠ t → d'.rotating u = d.rotating u)
    (hcascading : ∀ u, u ≠ t → d'.cascading u = d.cascading u) (hsameTenants : d'.tenants.committed = d.tenants.committed)
    (hsameKeys : d'.keys.committed = d.keys.committed) : (keySpec fingerprint).Keeps t none d d' := by
  refine ⟨hinv, fun u _ hu _ => ⟨htenants u hu, hkeys u hu, hrotating u hu, hcascading u hu,
    fun _ _ keyId row hrow _ _ => hsameKeys ▸ hrow⟩, fun _ _ _ => trivial, fun keyId row hrow => ⟨row, hsameKeys ▸ hrow, .inl rfl⟩,
    fun tenantId hretired => ?_⟩
  unfold Retired NoneActive
  rw [hsameTenants, hsameKeys]
  exact hretired

theorem KeyInv.write (rotating : Txn → Option String) (hinv : KeyInv d) (hfree : d.keys.free t keyId = true)
    (hstep : ∀ w, d.keys.committed keyId = some w → row = { w with isActive := false })
    (hloaded : RotatesActive { d with keys := d.keys.write t keyId row, rotating := rotating }) :
    KeyInv { d with keys := d.keys.write t keyId row, rotating := rotating } ∧
      ∀ u, u ≠ t → d.keys.Follows keyStep u (d.keys.write t keyId row) := by
  obtain ⟨hevolves, hfollows⟩ := hinv.keys.write hfree fun w hw => .inr (hstep w hw)
  refine ⟨⟨hinv.tenants, hevolves, fun key u v w hin hw => ?_, hloaded⟩, hfollows⟩
  rcases inflight_write_cases hin with ⟨rfl, -, rfl⟩ | ⟨-, hin⟩
  · rw [hstep w hw]
  · exact hinv.clearing key u v w hin hw

theorem loadForRotation_cases (h : loadForRotation keyId tenantId t d = some (found, d')) :
    (found = none ∧ d' = d) ∨ ∃ row, found = some row ∧ d.keys.visible t keyId = some row ∧ row.tenantId = tenantId ∧
      d' = { d with rotating := update d.rotating t (some keyId) } := by
  unfold loadForRotation at h
  cases hget : getById keyId tenantId t d with
  | none =>
      rw [hget] at h
      cases h
      exact .inl ⟨rfl, rfl⟩
  | some row =>
      rw [hget] at h
      cases h
      obtain ⟨hvisible, htenant⟩ := Option.filter_eq_some_iff.mp hget
      exact .inr ⟨row, rfl, hvisible, of_decide_eq_true htenant, rfl⟩

theorem clearActive_cases (h : clearActive keyId tenantId t d = some (updated, d')) :
    (updated = none ∧ d' = { d with rotating := update d.rotating t none } ∧
      ∀ row, d.keys.visible t keyId = some row → row.tenantId ≠ tenantId) ∨
    ∃ row, d.keys.visible t keyId = some row ∧ row.tenantId = tenantId ∧ d.keys.free t keyId = true ∧
      updated = some { row with isActive := false } ∧
      d' = { d with
        keys := d.keys.write t keyId { row with isActive := false }
        rotating := update d.rotating t none } := by
  obtain ⟨⟨r, keys⟩, hupdate, he⟩ := Option.map_eq_some_iff.mp h
  rcases updateWhere_cases hupdate with ⟨rfl, rfl, hnot⟩ | ⟨row, hvisible, hp, hfree, rfl, rfl⟩
  · cases he
    exact .inl ⟨rfl, rfl, fun row hrow htenant => absurd (decide_eq_true htenant) (Bool.eq_false_iff.mp (hnot row hrow))⟩
  · cases he
    exact .inr ⟨row, hvisible, of_decide_eq_true hp, hfree, rfl, rfl⟩

theorem insertKey_cases {b : Bool} (h : insertKey keyId row t d = some (b, d')) :
    (b = false ∧ d' = d) ∨ (b = true ∧ d' = { d with keys := d.keys.write t keyId row } ∧
      d.keys.inflight keyId = none ∧ d.keys.committed keyId = none) := by
  unfold insertKey at h
  split at h
  · contradiction
  split at h
  · cases h
    exact .inl ⟨rfl, rfl⟩
  · obtain ⟨⟨b', keys⟩, hins, he⟩ := Option.map_eq_some_iff.mp h
    rcases insertOrIgnore_cases hins with ⟨rfl, rfl, -⟩ | ⟨rfl, rfl, hin, hnone⟩
    · cases he
      exact .inl ⟨rfl, rfl⟩
    · cases he
      exact .inr ⟨rfl, rfl, hin, hnone⟩

theorem keeps_refl (hinv : KeyInv d) : (keySpec fingerprint).Keeps t none d d :=
  key_keeps_of hinv (fun u _ => Follows.refl u _) (fun u _ => Follows.refl u _) (fun _ _ => rfl) (fun _ _ => rfl) rfl rfl

theorem keeps_clear (rotating : Txn → Option String) (hinv : KeyInv d) (hfree : d.keys.free t keyId = true)
    (hvisible : d.keys.visible t keyId = some row) (hrotating : ∀ u, u ≠ t → rotating u = d.rotating u)
    (hloaded : RotatesActive { d with keys := d.keys.write t keyId { row with isActive := false }, rotating := rotating }) :
    (keySpec fingerprint).Keeps t none d
      { d with keys := d.keys.write t keyId { row with isActive := false }, rotating := rotating } := by
  have hcleared : ∀ w, d.keys.committed keyId = some w →
      ({ row with isActive := false } : VirtualApiKey) = { w with isActive := false } := by
    intro w hw
    rcases visible_cases d.keys t keyId with ⟨v, hin, hv⟩ | ⟨-, hv⟩
    · obtain rfl : v = row := Option.some.inj (hv.symm.trans hvisible)
      rcases hinv.keys keyId t v w hin hw with rfl | rfl <;> rfl
    · obtain rfl : w = row := Option.some.inj (hw.symm.trans (hv.symm.trans hvisible))
      rfl
  obtain ⟨hinv', hfollows⟩ := hinv.write rotating hfree hcleared hloaded
  exact key_keeps_of hinv' (fun u _ => Follows.refl u _) hfollows hrotating (fun _ _ => rfl) rfl rfl

theorem keeps_insert (hinv : KeyInv d) (hin : d.keys.inflight keyId = none) (hnone : d.keys.committed keyId = none) :
    (keySpec fingerprint).Keeps t none d { d with keys := d.keys.write t keyId row } := by
  have hfree : d.keys.free t keyId = true := by
    rw [free, hin]
  obtain ⟨hinv', hfollows⟩ := hinv.write d.rotating hfree
    (fun w hw => absurd (hnone.symm.trans hw) (Option.some_ne_none w).symm) hinv.loaded
  exact key_keeps_of hinv' (fun u _ => Follows.refl u _) hfollows (fun _ _ => rfl) (fun _ _ => rfl) rfl rfl

/-! ## a rotation -/

structure Loading (t : Txn) (call : RotateKey) (old : VirtualApiKey) (d : KeyDb) : Prop where
  clean : Clean t d
  rotating : d.rotating t = some call.keyId
  key : d.keys.committed call.keyId = some old
  active : old.isActive = true
  tenantId : old.tenantId = call.tenantId

structure Cleared (t : Txn) (call : RotateKey) (old : VirtualApiKey) (d : KeyDb) : Prop where
  tenants : d.tenants.Unheld t
  keys : d.keys.HoldsOnly t call.keyId { old with isActive := false }
  key : d.keys.committed call.keyId = some old
  active : old.isActive = true
  tenantId : old.tenantId = call.tenantId

section Rotate

variable {call : RotateKey}

theorem Loading.rely (h : Loading t call old d) (hinv : KeyInv d') (hr : KeyRely t d d') : Loading t call old d' := by
  have hrotating := hr.rotating.trans h.rotating
  obtain ⟨row, hrow, hactive⟩ := hinv.loaded t call.keyId hrotating
  obtain ⟨row', hrow', hstep⟩ := hr.keys.moves call.keyId old h.key
  obtain rfl : row = row' := Option.some.inj (hrow.symm.trans hrow')
  obtain rfl := hstep.eq_of_active hactive
  exact ⟨h.clean.rely hr, hrotating, hrow, hactive, h.tenantId⟩

theorem Cleared.rely (h : Cleared t call old d) (hr : KeyRely t d d') : Cleared t call old d' where
  tenants := h.tenants.frame hr.tenants.frame
  keys := h.keys.frame hr.keys.frame
  key := (hr.keys.held _ _ h.keys.holds).trans h.key
  active := h.active
  tenantId := h.tenantId

theorem Rotated.inflight (h : Rotated fingerprint t call old d) (hin : d.keys.inflight keyId = some (t, v)) :
    keyId = call.newKeyId ∧ v = { old with keyFingerprint := fingerprint call.plaintext, isActive := true, expiresAt := none } ∨
      keyId = call.keyId ∧ v = { old with isActive := false } := by
  have hversion := (congrFun h.version keyId).symm.trans (version_eq_some.mpr hin)
  by_cases hnew : keyId = call.newKeyId
  · subst hnew
    rw [update_self] at hversion
    exact .inl ⟨rfl, (Option.some.inj hversion).symm⟩
  · rw [update_of_ne hnew] at hversion
    by_cases hkey : keyId = call.keyId
    · subst hkey
      rw [update_self] at hversion
      exact .inr ⟨rfl, (Option.some.inj hversion).symm⟩
    · rw [update_of_ne hkey] at hversion
      contradiction

theorem Rotated.ne (h : Rotated fingerprint t call old d) : call.keyId ≠ call.newKeyId := by
  intro hsame
  have hfresh := h.fresh
  rw [← hsame, h.key] at hfresh
  contradiction

theorem Rotated.rely (h : Rotated fingerprint t call old d) (hr : KeyRely t d d') : Rotated fingerprint t call old d' := by
  have hnew : d.keys.inflight call.newKeyId =
      some (t, { old with keyFingerprint := fingerprint call.plaintext, isActive := true, expiresAt := none }) :=
    version_eq_some.mp ((congrFun h.version _).trans (update_self ..))
  have hkey : d.keys.inflight call.keyId = some (t, { old with isActive := false }) := by
    refine version_eq_some.mp ((congrFun h.version _).trans ?_)
    rw [update_of_ne h.ne, update_self]
  exact ⟨h.tenants.frame hr.tenants.frame, hr.keys.frame.version_eq.trans h.version,
    (hr.keys.held _ _ hkey).trans h.key, h.active, h.tenantId, (hr.keys.held _ _ hnew).trans h.fresh⟩

theorem Clean.load (h : Clean t d) (hvisible : d.keys.visible t call.keyId = some old) (htenant : old.tenantId = call.tenantId)
    (hassumes : RotatesActive { d with rotating := update d.rotating t (some call.keyId) }) :
    Loading t call old { d with rotating := update d.rotating t (some call.keyId) } := by
  have hkey : d.keys.committed call.keyId = some old := (h.keys.visible call.keyId).symm.trans hvisible
  obtain ⟨row, hrow, hactive⟩ := hassumes t call.keyId (update_self ..)
  obtain rfl : row = old := Option.some.inj (hrow.symm.trans hkey)
  exact ⟨⟨h.keys, h.tenants⟩, update_self .., hkey, hactive, htenant⟩

theorem wp_flushRotated (h : Loading t call old d) :
    (keySpec fingerprint).wp t (.rotate call) (fun _ d' => Cleared t call old d')
      (flushInactive call.keyId call.tenantId old) d := by
  unfold flushInactive
  rw [if_pos h.active]
  refine wp_assuming_bind fun d₁ h₁ hr₁ _ updated d₂ hclear hassumes => ?_
  have hloading := h.rely h₁ hr₁
  have hvisible := (hloading.clean.keys.visible call.keyId).trans hloading.key
  rcases clearActive_cases hclear with ⟨-, -, hnot⟩ | ⟨row, hrow, -, hfree, rfl, rfl⟩
  · exact absurd h.tenantId (hnot old hvisible)
  · obtain rfl : row = old := Option.some.inj (hrow.symm.trans hvisible)
    refine ⟨keeps_clear _ h₁ hfree hvisible (fun u hu => update_of_ne hu _ _) hassumes, trivial, fun d₃ _ hr₃ _ => ?_⟩
    refine Cleared.rely ?_ hr₃
    exact ⟨hloading.clean.tenants, hloading.clean.keys.write _ _, hloading.key, h.active, h.tenantId⟩

/-- What a rotation leaves of the two keys. -/
theorem wp_rotate (h : Clean t d) :
    (keySpec fingerprint).wp t (.rotate call) (fun _ d' => ∃ old, Rotated fingerprint t call old d')
      (rotate fingerprint call) d := by
  refine wp_assuming_bind fun d₁ h₁ hr₁ _ found d₂ hload hassumes => ?_
  have hclean := h.rely hr₁
  rcases loadForRotation_cases hload with ⟨rfl, rfl⟩ | ⟨old, rfl, hvisible, htenant, rfl⟩
  · exact ⟨keeps_refl h₁, trivial, wp_raise fun _ _ _ _ => trivial⟩
  have hinv₂ : KeyInv { d₁ with rotating := update d₁.rotating t (some call.keyId) } :=
    ⟨h₁.tenants, h₁.keys, h₁.clearing, hassumes⟩
  refine ⟨key_keeps_of hinv₂ (fun u _ => Follows.refl u _) (fun u _ => Follows.refl u _)
    (fun u hu => update_of_ne hu _ _) (fun _ _ => rfl) rfl rfl, trivial, ?_⟩
  refine wp_bind (KeyRely.refl t) hinv₂ trivial (wp_mono (fun _ d₃ _ _ hcleared => ?_)
    (wp_flushRotated (hclean.load hvisible htenant hassumes)))
  have hcleared : Cleared t call old d₃ := hcleared
  refine wp_exec_bind fun d₄ h₄ hr₄ _ b d₅ hinsert => ?_
  have hcleared := hcleared.rely hr₄
  rcases insertKey_cases hinsert with ⟨rfl, rfl⟩ | ⟨rfl, rfl, hin, hnone⟩
  · exact ⟨keeps_refl h₄, trivial, wp_raise fun _ _ _ _ => trivial⟩
  refine ⟨keeps_insert h₄ hin hnone, trivial, fun d₆ _ hr₆ _ => ⟨old, Rotated.rely ?_ hr₆⟩⟩
  refine ⟨hcleared.tenants, ?_, hcleared.key, hcleared.active, hcleared.tenantId, hnone⟩
  rw [version_write]
  congr 1
  funext key
  by_cases hkey : key = call.keyId
  · subst hkey
    rw [update_self]
    exact version_eq_some.mpr hcleared.keys.holds
  · rw [update_of_ne hkey, Option.eq_none_iff_forall_ne_some]
    exact fun v hv => hkey (hcleared.keys.only key v (version_eq_some.mp hv))

end Rotate

/-! ## a revocation, and a mint -/

theorem ClearsOnly.rely (h : ClearsOnly t d) (hr : KeyRely t d d') : ClearsOnly t d' := by
  intro keyId v hin
  have hin := (hr.keys.frame.inflight keyId v).mpr hin
  rw [hr.keys.held keyId v hin]
  exact h keyId v hin

theorem clearsOnly_of_unheld (h : d.keys.Unheld t) : ClearsOnly t d := fun keyId v hin => absurd hin (h keyId v)

theorem ClearsOnly.write (rotating : Txn → Option String) (h : ClearsOnly t d)
    (hvisible : d.keys.visible t keyId = some row) :
    ClearsOnly t { d with keys := d.keys.write t keyId v, rotating := rotating } := by
  intro key w hin
  by_cases hkey : key = keyId
  · subst hkey
    rcases visible_cases d.keys t key with ⟨v', hin', -⟩ | ⟨-, hv⟩
    · exact h key v' hin'
    · exact fun hnone => absurd (hvisible.symm.trans (hv.trans hnone)) (Option.some_ne_none row)
  · exact h key w ((inflight_write_of_ne hkey).symm.trans hin)

theorem KeyRely.visible (hr : KeyRely t d d') (h : d.keys.visible t keyId = some row) :
    ∃ row', d'.keys.visible t keyId = some row' ∧ keyStep row row' := by
  rcases visible_cases d.keys t keyId with ⟨v, hin, hv⟩ | ⟨hno, hv⟩
  · have hin' := (hr.keys.frame.inflight keyId v).mp hin
    exact ⟨row, (visible_of_inflight hin').trans (hv.symm.trans h), .inl rfl⟩
  · obtain ⟨row', hrow', hstep⟩ := hr.keys.moves keyId row (hv.symm.trans h)
    refine ⟨row', (visible_of_no_inflight fun v hin => ?_).trans hrow', hstep⟩
    exact hno v ((hr.keys.frame.inflight keyId v).mpr hin)

/-- A key is cleared, or was inactive. -/
structure Revoked (t : Txn) (tenantId keyId : String) (d : KeyDb) : Prop where
  clears : ClearsOnly t d
  only : ∀ key v, d.keys.inflight key = some (t, v) → key = keyId
  inactive : ∃ row, d.keys.visible t keyId = some row ∧ row.tenantId = tenantId ∧ row.isActive = false

theorem Revoked.rely (h : Revoked t tenantId keyId d) (hr : KeyRely t d d') : Revoked t tenantId keyId d' := by
  obtain ⟨row, hrow, htenant, hinactive⟩ := h.inactive
  obtain ⟨row', hrow', hstep⟩ := hr.visible hrow
  exact ⟨h.clears.rely hr, fun key v hin => h.only key v ((hr.keys.frame.inflight key v).mpr hin),
    ⟨row', hrow', hstep.tenantId_eq.trans htenant, hstep.inactive hinactive⟩⟩

/-- What a revocation leaves of the key. -/
theorem wp_deactivate (h : Clean t d) :
    (keySpec fingerprint).wp t (.revoke tenantId keyId) (fun _ d' => Revoked t tenantId keyId d') (deactivate keyId tenantId) d := by
  refine wp_query_bind (fun u _ => KeyRely.refl u) KeyMoves.refl fun d₁ h₁ hr₁ _ => ?_
  have hclean := h.rely hr₁
  cases hget : getById keyId tenantId t d₁ with
  | none => exact wp_raise fun _ _ _ _ => trivial
  | some row =>
      obtain ⟨hvisible, htenant⟩ := Option.filter_eq_some_iff.mp hget
      have htenant : row.tenantId = tenantId := of_decide_eq_true htenant
      show (keySpec fingerprint).wp t _ _ (flushInactive keyId tenantId row) d₁
      unfold flushInactive
      split
      · refine wp_assuming_bind fun d₂ h₂ hr₂ _ updated d₃ hclear hassumes => ?_
        obtain ⟨row', hvisible', hstep⟩ := KeyRely.visible hr₂ hvisible
        have hclean := hclean.rely hr₂
        rcases clearActive_cases hclear with ⟨-, -, hnot⟩ | ⟨found, hfound, -, hfree, rfl, rfl⟩
        · exact absurd (hstep.tenantId_eq.trans htenant) (hnot row' hvisible')
        · obtain rfl : found = row' := Option.some.inj (hfound.symm.trans hvisible')
          refine ⟨keeps_clear _ h₂ hfree hfound (fun u hu => update_of_ne hu _ _) hassumes, trivial,
            fun d₄ _ hr₄ _ => Revoked.rely ?_ hr₄⟩
          have honly := hclean.keys.write keyId { found with isActive := false }
          exact ⟨(clearsOnly_of_unheld hclean.keys).write _ hfound, honly.only,
            ⟨_, visible_of_inflight honly.holds, hstep.tenantId_eq.trans htenant, rfl⟩⟩
      · next hinactive =>
          refine fun d₂ _ hr₂ _ => Revoked.rely ?_ hr₂
          exact ⟨clearsOnly_of_unheld hclean.keys, fun key v hin => absurd hin (hclean.keys key v),
            ⟨row, hvisible, htenant, Bool.eq_false_iff.mpr hinactive⟩⟩

theorem wp_mintKey {call : MintKey} (h : Clean t d) :
    (keySpec fingerprint).wp t (.mint call) (fun _ d' => (KeyRequest.mint call).Done fingerprint t d')
      (mintKey fingerprint directory call) d := by
  unfold mintKey
  split
  · exact wp_raise fun _ _ _ _ => trivial
  split
  · exact wp_raise fun _ _ _ _ => trivial
  refine wp_exec_bind fun d₁ h₁ hr₁ _ b d₂ hinsert => ?_
  have hclean := h.rely hr₁
  rcases insertKey_cases hinsert with ⟨rfl, rfl⟩ | ⟨rfl, rfl, hin, hnone⟩
  · exact ⟨keeps_refl h₁, trivial, wp_raise fun _ _ _ _ => trivial⟩
  · refine ⟨keeps_insert h₁ hin hnone, trivial, fun d₃ _ hr₃ _ => ?_⟩
    exact ⟨hclean.tenants.frame (KeyRely.tenants hr₃).frame, (hclean.keys.write _ _).frame (KeyRely.keys hr₃).frame⟩

/-! ## the deactivation of a tenant -/

/-- The tenant is made inactive. -/
structure TenantDown (t : Txn) (tenantId : String) (d : KeyDb) : Prop where
  keys : d.keys.Unheld t
  tenant : ∃ row, d.tenants.inflight tenantId = some (t, row) ∧ row.isActive = false

/-- … and the keys that are left to be cleared are listed. -/
structure Cascading (t : Txn) (tenantId : String) (keyIds : List String) (d : KeyDb) : Prop where
  clears : ClearsOnly t d
  tenant : ∃ row, d.tenants.inflight tenantId = some (t, row) ∧ row.isActive = false
  cascading : d.cascading t = some tenantId
  listed : ∀ keyId row, d.keys.visible t keyId = some row → row.tenantId = tenantId → row.isActive = true → keyId ∈ keyIds

theorem TenantDown.rely (h : TenantDown t tenantId d) (hr : KeyRely t d d') : TenantDown t tenantId d' := by
  obtain ⟨row, hin, hinactive⟩ := h.tenant
  exact ⟨h.keys.frame hr.keys.frame, row, (hr.tenants.frame.inflight tenantId row).mp hin, hinactive⟩

variable {keyIds : List String}

theorem Cascading.rely (h : Cascading t tenantId keyIds d) (hr : KeyRely t d d') : Cascading t tenantId keyIds d' := by
  obtain ⟨row, hin, hinactive⟩ := h.tenant
  refine ⟨h.clears.rely hr, ⟨row, (hr.tenants.frame.inflight tenantId row).mp hin, hinactive⟩,
    hr.cascading.trans h.cascading, fun keyId row hrow htenant hactive => ?_⟩
  refine h.listed keyId row ?_ htenant hactive
  rcases visible_cases d'.keys t keyId with ⟨v, hin, hv⟩ | ⟨hno, hv⟩
  · exact (visible_of_inflight ((hr.keys.frame.inflight keyId v).mpr hin)).trans (hv.symm.trans hrow)
  · refine (visible_of_no_inflight fun v hin => ?_).trans
      (hr.cascaded tenantId h.cascading keyId row (hv.symm.trans hrow) htenant hactive)
    exact hno v ((hr.keys.frame.inflight keyId v).mp hin)

theorem wp_deactivateTenantRow (h : Clean t d) :
    (keySpec fingerprint).wp t (.deactivateTenant tenantId) (fun _ d' => TenantDown t tenantId d')
      (deactivateTenantRow tenantId) d := by
  refine wp_query_bind (fun u _ => KeyRely.refl u) KeyMoves.refl fun d₁ h₁ hr₁ _ => ?_
  have hclean := h.rely hr₁
  cases hloaded : d₁.tenants.visible t tenantId with
  | none => exact wp_raise fun _ _ _ _ => trivial
  | some loaded =>
      refine wp_exec_bind fun d₂ h₂ hr₂ _ updated d₃ hupdate => ?_
      have hclean₂ := hclean.rely hr₂
      obtain ⟨⟨r, tenants⟩, hwhere, he⟩ := Option.map_eq_some_iff.mp hupdate
      have hstep : ∀ row : TenantRow, tenantStep row { row with isActive := flushed loaded.isActive false row.isActive } := by
        intro row hrow
        show flushed loaded.isActive false row.isActive = false
        unfold flushed
        split
        · exact hrow
        · rfl
      obtain ⟨hevolves, hfollows⟩ := h₂.tenants.updateWhere (fun row _ => hstep row) hwhere
      have hinv : KeyInv { d₂ with tenants := tenants } := ⟨hevolves, h₂.keys, h₂.clearing, h₂.loaded⟩
      have hkeeps : (keySpec fingerprint).Keeps t none d₂ { d₂ with tenants := tenants } :=
        key_keeps_of hinv hfollows (fun u _ => Follows.refl u _) (fun _ _ => rfl) (fun _ _ => rfl)
          (committed_updateWhere hwhere) rfl
      rcases updateWhere_cases hwhere with ⟨rfl, rfl, -⟩ | ⟨row, hvisible, -, -, rfl, rfl⟩
      · cases he
        exact ⟨hkeeps, trivial, wp_raise fun _ _ _ _ => trivial⟩
      · cases he
        refine ⟨hkeeps, trivial, fun d₄ _ hr₄ _ => TenantDown.rely ?_ hr₄⟩
        refine ⟨hclean₂.keys, _, inflight_write_self .., ?_⟩
        show flushed loaded.isActive false row.isActive = false
        unfold flushed
        split
        · next hsame =>
            -- the tenant was inactive when it was loaded, and is
            obtain ⟨row', hrow', hmoved⟩ := (KeyRely.tenants hr₂).moves tenantId loaded
              ((hclean.tenants.visible tenantId).symm.trans hloaded)
            obtain rfl : row' = row := Option.some.inj (hrow'.symm.trans ((hclean₂.tenants.visible tenantId).symm.trans hvisible))
            exact hmoved hsame.symm
        · rfl

theorem Cascading.deactivateKey (fingerprint : String → String) (h : Cascading t tenantId (keyId :: keyIds) d)
    (hinv : KeyInv d) (hstep : Sentinel.deactivateKey tenantId keyId t d = some (updated, d')) :
    (keySpec fingerprint).Keeps t none d d' ∧ Cascading t tenantId keyIds d' := by
  obtain ⟨⟨r, keys⟩, hwhere, he⟩ := Option.map_eq_some_iff.mp hstep
  rcases updateWhere_cases hwhere with ⟨rfl, rfl, hnot⟩ | ⟨row, hvisible, hp, hfree, rfl, rfl⟩
  · cases he
    refine ⟨keeps_refl hinv, h.clears, h.tenant, h.cascading, fun key row hrow htenant hactive => ?_⟩
    rcases List.mem_cons.mp (h.listed key row hrow htenant hactive) with rfl | hmem
    · have hno := hnot row hrow
      simp [htenant, hactive] at hno
    · exact hmem
  · cases he
    refine ⟨keeps_clear d.rotating hinv hfree hvisible (fun _ _ => rfl) hinv.loaded,
      h.clears.write d.rotating hvisible, h.tenant, h.cascading, fun key other hrow htenant hactive => ?_⟩
    by_cases hkey : key = keyId
    · subst hkey
      obtain rfl := Option.some.inj ((visible_of_inflight (inflight_write_self ..)).symm.trans hrow)
      exact absurd hactive Bool.false_ne_true
    · have hold := (visible_write_of_ne hkey).symm.trans hrow
      exact (List.mem_cons.mp (h.listed key other hold htenant hactive)).resolve_left hkey

theorem wp_deactivateKeys (h : Cascading t tenantId keyIds d) :
    (keySpec fingerprint).wp t (.deactivateTenant tenantId) (fun _ d' => Cascading t tenantId [] d')
      (deactivateKeys tenantId keyIds) d := by
  induction keyIds generalizing d with
  | nil => exact fun d' _ hr _ => h.rely hr
  | cons keyId keyIds ih =>
      refine wp_exec_bind fun d₁ h₁ hr₁ _ updated d₂ hstep => ?_
      obtain ⟨hkeeps, hcascading⟩ := (h.rely hr₁).deactivateKey fingerprint h₁ hstep
      exact ⟨hkeeps, trivial, ih hcascading⟩

theorem wp_deactivateTenant (h : Clean t d) (hinv : KeyInv d) :
    (keySpec fingerprint).wp t (.deactivateTenant tenantId) (fun _ d' => Cascading t tenantId [] d')
      (deactivateTenant tenantId) d := by
  refine wp_bind (KeyRely.refl t) hinv trivial (wp_mono (fun _ d₁ h₁ _ hdown => ?_)
    (wp_deactivateTenantRow h))
  have hdown : TenantDown t tenantId d₁ := hdown
  refine wp_bind (KeyRely.refl t) h₁ trivial (wp_mono (fun _ _ _ _ hcascading _ _ hr _ =>
    Cascading.rely hcascading hr) ?_)
  refine wp_exec_bind fun d₂ h₂ hr₂ _ keyIds d₃ hselect => ?_
  have hdown := hdown.rely hr₂
  cases hselect
  refine ⟨key_keeps_of ⟨h₂.tenants, h₂.keys, h₂.clearing, h₂.loaded⟩ (fun u _ => Follows.refl u _)
    (fun u _ => Follows.refl u _) (fun _ _ => rfl) (fun u hu => update_of_ne hu _ _) rfl rfl, trivial,
    wp_deactivateKeys ⟨clearsOnly_of_unheld hdown.keys, hdown.tenant, update_self .., fun keyId row hrow htenant hactive => ?_⟩⟩
  refine List.mem_map.mpr ⟨(keyId, row), List.mem_filter.mpr ⟨mem_scan.mpr hrow, ?_⟩, rfl⟩
  simp [htenant, hactive]

/-! ## soundness -/

/-- Every request keeps the invariant of keys and tenants. -/
theorem keySpec_sound (fingerprint : String → String) (directory : ScopeDirectory) :
    (keySpec fingerprint).Sound (serveKeys fingerprint directory) where
  refl u _ := KeyRely.refl u
  trans := KeyRely.trans
  moves_refl := KeyMoves.refl
  moves_trans := KeyMoves.trans
  fresh_rely _ hr h := Clean.rely h hr
  ended_rely _ _ h := h
  works_rely _ _ h := h
  body {t req d} hinv _ hfresh _ := by
    refine ⟨trivial, ?_⟩
    cases req with
    | mint call => exact wp_mintKey hfresh
    | rotate call =>
        exact wp_bind (KeyRely.refl t) hinv trivial (wp_mono
          (fun _ d₁ _ _ hrotated d₂ _ hr₂ _ => hrotated.imp fun old h => Rotated.rely h hr₂) (wp_rotate hfresh))
    | revoke tenantId keyId =>
        refine wp_bind (KeyRely.refl t) hinv trivial (wp_mono
          (fun _ d₁ _ _ hrevoked d₂ _ hr₂ _ => ?_) (wp_deactivate hfresh))
        have hrevoked := Revoked.rely hrevoked hr₂
        exact ⟨hrevoked.clears, hrevoked.only, hrevoked.inactive⟩
    | deactivateTenant tenantId =>
        refine wp_mono (fun _ d₁ _ _ hcascading => ?_) (wp_deactivateTenant hfresh hinv)
        have hcascading : Cascading t tenantId [] d₁ := hcascading
        obtain ⟨row, hin, hinactive⟩ := hcascading.tenant
        refine ⟨hcascading.clears, ⟨row, visible_of_inflight hin, hinactive⟩, fun keyId row hrow htenant => ?_⟩
        by_contra hactive
        exact List.not_mem_nil (hcascading.listed keyId row hrow htenant (Bool.eq_true_of_not_eq_false hactive))
  commit {t req b d} hinv _ hpost hcloses hassumes := by
    refine ⟨key_keeps_commit hinv hassumes fun keyId v hin hnone => ?_, fun _ _ => trivial, trivial⟩
    cases req with
    | mint call =>
        obtain ⟨-, rfl⟩ := HoldsOnly.unique hpost.2 hin
        exact hcloses
    | rotate call =>
        obtain ⟨old, hrotated⟩ := hpost
        rcases Rotated.inflight hrotated hin with ⟨-, rfl⟩ | ⟨rfl, -⟩
        · exact hrotated.tenantId ▸ hcloses
        · exact absurd (hnone.symm.trans hrotated.key) (Option.some_ne_none old).symm
    | revoke tenantId key => exact absurd hnone (hpost.1 keyId v hin)
    | deactivateTenant tenantId => exact absurd hnone (hpost.1 keyId v hin)
  rollback {t req d} hinv _ _ hassumes := ⟨key_keeps_rollback hinv hassumes, fun _ _ => trivial, trivial⟩
  skips_rely _ _ h := h
  aside _ hskips _ := absurd hskips id
  leave _ hskips _ := absurd hskips id

/-! ## runs -/

/-- Nobody is in the middle of anything. -/
structure KeyDb.Quiet (d : KeyDb) : Prop where
  keys : d.keys.Quiet
  tenants : d.tenants.Quiet
  rotating : ∀ t, d.rotating t = none

theorem KeyDb.Quiet.inv (h : d.Quiet) : KeyInv d where
  tenants key _ _ _ hin := absurd ((h.tenants key).symm.trans hin) (Option.some_ne_none _).symm
  keys key _ _ _ hin := absurd ((h.keys key).symm.trans hin) (Option.some_ne_none _).symm
  clearing key _ _ _ hin := absurd ((h.keys key).symm.trans hin) (Option.some_ne_none _).symm
  loaded u _ hu := absurd ((h.rotating u).symm.trans hu) (Option.some_ne_none _).symm

theorem KeyDb.Quiet.ok (h : d.Quiet) : (keySpec fingerprint).Ok (Sys.start d : KeySys) :=
  ok_start h.inv (fun _ => ⟨fun key _ hin => absurd ((h.keys key).symm.trans hin) (Option.some_ne_none _).symm,
    fun key _ hin => absurd ((h.tenants key).symm.trans hin) (Option.some_ne_none _).symm⟩) fun _ => trivial

/-- A new key is committed only to an open tenant. -/
def CommitsOpen (s : KeySys) : Action KeyRequest → Prop
  | .commit t => ∀ req b, s.procs t = .running req (.pure b) → req.Closes s.db
  | _ => True

/-- A step after which the keys in rotation are active, and which commits no key to a tenant that is deactivated or about
to be. -/
def OrderlyKeys (s : KeySys) (a : Action KeyRequest) (s' : KeySys) : Prop := RotatesActive s'.db ∧ CommitsOpen s a

theorem OrderlyKeys.permits (fingerprint : String → String) (h : OrderlyKeys s a s') :
    (keySpec fingerprint).Permits s a s' := by
  cases a with
  | begin t req => exact .inl ⟨fun u k _ hk => absurd hk.symm (Option.some_ne_none k), trivial⟩
  | exec t => exact h.1
  | commit t => exact ⟨h.2, h.1⟩
  | abort t => exact ⟨fun _ _ _ => .inr trivial, h.1⟩

/-- A rotation replaces an active key by an active one, and no other key changes. -/
def Replaces (fingerprint : String → String) (call : RotateKey) (d d' : KeyDb) : Prop :=
  ∃ old, d.keys.committed call.keyId = some old ∧ old.isActive = true ∧
    d'.keys.committed call.keyId = some { old with isActive := false } ∧
    d.keys.committed call.newKeyId = none ∧
    d'.keys.committed call.newKeyId =
      some { old with keyFingerprint := fingerprint call.plaintext, isActive := true, expiresAt := none } ∧
    ∀ keyId, keyId ≠ call.keyId → keyId ≠ call.newKeyId → d'.keys.committed keyId = d.keys.committed keyId

theorem Rotated.replaces {call : RotateKey} (h : Rotated fingerprint t call old d) :
    Replaces fingerprint call d (Database.commit t d) := by
  have hcommit : (d.keys.commit t).committed = _ := committed_commit_two h.version
  refine ⟨old, h.key, h.active, ?_, h.fresh, ?_, fun keyId hkey hnew => ?_⟩
  all_goals
    show (d.keys.commit t).committed _ = _
    rw [hcommit]
  · rw [update_of_ne h.ne, update_self]
  · rw [update_self]
  · rw [update_of_ne hnew, update_of_ne hkey]

/-- The key that a request names. -/
def KeyRequest.key : KeyRequest → Option String
  | .mint _ => none
  | .rotate call => some call.keyId
  | .revoke _ keyId => some keyId
  | .deactivateTenant _ => none

theorem not_activated_of_revoked (hclears : ∀ key v, d.keys.inflight key = some (t, v) → key = keyId)
    (hinactive : ∃ row, d.keys.visible t keyId = some row ∧ row.isActive = false) {key : String}
    (hrow : (Database.commit t d : KeyDb).keys.committed key = some row) (hactive : row.isActive = true) :
    d.keys.committed key = some row := by
  have hvisible : d.keys.visible t key = some row := hrow
  by_cases hkey : key = keyId
  · subst hkey
    obtain ⟨row', hrow', hinactive⟩ := hinactive
    obtain rfl : row' = row := Option.some.inj (hrow'.symm.trans hvisible)
    exact absurd (hinactive.symm.trans hactive) Bool.false_ne_true
  · exact (visible_of_no_inflight fun v hin => hkey (hclears key v hin)).symm.trans hvisible

theorem exists_done {d₀ : KeyDb} {as : List (Action KeyRequest)} {req : KeyRequest} {b : KeyAnswer}
    (hquiet : d₀.Quiet) (hrun : run (serveKeys fingerprint directory) (Sys.start d₀) as = some s)
    (hp : EveryStep (serveKeys fingerprint directory) (keySpec fingerprint).Permits (Sys.start d₀) as)
    (ht : s.procs t = .committed req b) : ∃ d, req.Done fingerprint t d ∧ KeyMoves (Database.commit t d) s.db := by
  obtain ⟨as₁, as₂, s₁, s₂, rfl, hrun₁, hproc, hdb, hstep, hrun₂⟩ :=
    exists_commit hrun (fun _ _ hc => by contradiction) ht
  obtain ⟨hp₁, hp₂⟩ := everyStep_append hp hrun₁
  have hs := keySpec_sound fingerprint directory
  have hok₁ := (hs.run hquiet.ok hp₁ hrun₁).1
  have hok₂ := (ok_step hs hok₁ hstep (hp₂ s₂ hstep).1).1
  refine ⟨s₁.db, (hok₁.post hs hproc id).2, ?_⟩
  rw [← hdb]
  exact (hs.run hok₂ (hp₂ s₂ hstep).2 hrun₂).2

/-- **Revocation is final**, in a run of orderly steps: a rotation replaces one active key by one; after a key is revoked,
nothing that is done with it makes a key active; and the gateway accepts no key of a tenant that is deactivated. -/
theorem key_revocation_final {directory : ScopeDirectory} {d₀ : KeyDb} {as bs : List (Action KeyRequest)} {s s' : KeySys}
    (hquiet : d₀.Quiet) (hrun : run (serveKeys fingerprint directory) (Sys.start d₀) as = some s)
    (hrun' : run (serveKeys fingerprint directory) s bs = some s')
    (hp : EveryStep (serveKeys fingerprint directory) OrderlyKeys (Sys.start d₀) (as ++ bs)) :
    EveryStep (serveKeys fingerprint directory) (fun s₁ a s₂ => ∀ t call b, a = .commit t →
      s₁.procs t = .running (.rotate call) (.pure b) → Replaces fingerprint call s₁.db s₂.db) (Sys.start d₀) (as ++ bs) ∧
    (∀ t tenantId keyId b, s.procs t = .committed (.revoke tenantId keyId) b →
      EveryStep (serveKeys fingerprint directory) (fun s₁ a s₂ => ∀ u req b, a = .commit u →
        s₁.procs u = .running req (.pure b) → req.key = some keyId → ∀ key row, s₂.db.keys.committed key = some row →
          row.isActive = true → s₁.db.keys.committed key = some row) s bs) ∧
    ∀ t tenantId b, s.procs t = .committed (.deactivateTenant tenantId) b → ∀ header now keyId row,
      authenticate fingerprint header now s'.db = some (keyId, row) → row.tenantId ≠ tenantId := by
  have hs := keySpec_sound fingerprint directory
  have hpermits := hp.mono fun _ _ _ h => h.permits fingerprint
  obtain ⟨has, hbs⟩ := everyStep_append hpermits hrun
  have hok := (hs.run hquiet.ok has hrun).1
  refine ⟨?_, fun t tenantId keyId b ht => ?_, fun t tenantId b ht header now keyId row hauth htenant => ?_⟩
  · refine everyStep_mono (fun s₁ a s₂ hstep hok₁ => ?_) (hs.everyStep hquiet.ok hpermits)
    rintro u call b rfl hproc
    obtain ⟨old, hrotated⟩ : ∃ old, Rotated fingerprint u call old s₁.db := (hok₁.2.1.post hs hproc id).2
    rw [db_of_commit hstep]
    exact hrotated.replaces
  · -- the key is inactive from its revocation on
    obtain ⟨d, ⟨-, -, row, hvisible, -, hinactive⟩, hmoves⟩ := exists_done hquiet hrun has ht
    obtain ⟨row', hrow', hstep⟩ := hmoves.keys keyId row hvisible
    have hinactive := hstep.inactive hinactive
    refine everyStep_mono (fun s₁ a s₂ hstep hok₁ => ?_) (hs.everyStep_moves hok (KeyMoves.refl s.db) hbs)
    rintro u req b rfl hproc hkey key found hfound hactive
    obtain ⟨-, hok₁, hmoves₁⟩ := hok₁
    rw [db_of_commit hstep] at hfound
    have hdone : req.Done fingerprint u s₁.db := (hok₁.post hs hproc id).2
    cases req with
    | mint call => exact absurd hkey.symm (Option.some_ne_none keyId)
    | deactivateTenant other => exact absurd hkey.symm (Option.some_ne_none keyId)
    | rotate call =>
        obtain rfl : call.keyId = keyId := Option.some.inj hkey
        obtain ⟨old, hrotated⟩ := hdone
        obtain ⟨now, hnow, hstep₁⟩ := KeyMoves.keys hmoves₁ call.keyId row' hrow'
        obtain rfl : now = old := Option.some.inj (hnow.symm.trans hrotated.key)
        exact absurd ((hstep₁.inactive hinactive).symm.trans hrotated.active) Bool.false_ne_true
    | revoke other k =>
        obtain rfl : k = keyId := Option.some.inj hkey
        obtain ⟨-, honly, cleared, hcleared, -, hclearedInactive⟩ := hdone
        exact not_activated_of_revoked honly ⟨cleared, hcleared, hclearedInactive⟩ hfound hactive
  · obtain ⟨d, ⟨-, ⟨tenant, htenantRow, htenantInactive⟩, hkeys⟩, hmoves⟩ := exists_done hquiet hrun has ht
    have hretired : Retired tenantId s'.db :=
      (hs.run hok hbs hrun').2.retired tenantId (hmoves.retired tenantId ⟨⟨tenant, htenantRow, htenantInactive⟩, hkeys⟩)
    obtain ⟨hrow, hactive⟩ := authenticate_eq_some fingerprint hauth
    exact absurd ((hretired.2 keyId row hrow htenant).symm.trans hactive) Bool.false_ne_true

/-! ## keys that come back -/

section Sample

def sampleKey : VirtualApiKey := ⟨"secret-1", "tenant-1", "team-1", "project-1", "agent-1", none, true, none⟩

def sampleKeys : KeyDb where
  tenants := (empty.write 0 "tenant-1" ⟨true⟩).commit 0
  keys := (empty.write 0 "key-1" sampleKey).commit 0
  rotating _ := none
  cascading _ := none

def sampleDirectory : ScopeDirectory := ⟨fun _ _ => true, fun _ _ _ => true⟩

def sampleRotate (plaintext newKeyId : String) : KeyRequest := .rotate ⟨"tenant-1", "key-1", plaintext, newKeyId⟩

def sampleMint : KeyRequest := .mint ⟨"tenant-1", "team-1", "project-1", "agent-1", none, none, "secret-2", "key-2"⟩

def revokeRotate : List (Action KeyRequest) :=
  [.begin 1 (.revoke "tenant-1" "key-1"), .exec 1, .exec 1, .commit 1,
    .begin 2 (sampleRotate "secret-2" "key-2"), .exec 2, .exec 2, .commit 2]

/-- Two rotations load the key before one of them clears it. -/
def rotateTwice : List (Action KeyRequest) :=
  [.begin 1 (sampleRotate "secret-2" "key-2"), .begin 2 (sampleRotate "secret-3" "key-3"), .exec 1, .exec 2,
    .exec 1, .exec 1, .commit 1, .exec 2, .exec 2, .commit 2]

/-- The tenant is deactivated. -/
def deactivateSchedule : List (Action KeyRequest) :=
  [.begin 1 (.deactivateTenant "tenant-1"), .exec 1, .exec 1, .exec 1, .exec 1, .commit 1]

/-- What the gateway makes of a header after a run. -/
def acceptedKey (as : List (Action KeyRequest)) (header : String) : Option (String × VirtualApiKey) :=
  (run (serveKeys id sampleDirectory) (Sys.start sampleKeys) as).bind fun s => authenticate id header 0 s.db

/-- **An active key appears** when a revoked one is rotated, for each of two rotations of one key, and when a key is minted
for a deactivated tenant. -/
theorem revoked_key_comes_back :
    acceptedKey revokeRotate "Bearer secret-2" = some ("key-2", { sampleKey with keyFingerprint := "secret-2" }) ∧
    (acceptedKey rotateTwice "Bearer secret-2" = some ("key-2", { sampleKey with keyFingerprint := "secret-2" }) ∧
      acceptedKey rotateTwice "Bearer secret-3" = some ("key-3", { sampleKey with keyFingerprint := "secret-3" })) ∧
    acceptedKey (deactivateSchedule ++ [.begin 2 sampleMint, .exec 2, .commit 2]) "Bearer secret-2" =
      some ("key-2", { sampleKey with keyFingerprint := "secret-2" }) := by
  decide +kernel

theorem rotatesActive_of_none (h : ∀ t, d.rotating t = none) : RotatesActive d := fun u _ hu =>
  absurd ((h u).symm.trans hu) (Option.some_ne_none _).symm

theorem sampleKeys_quiet : sampleKeys.Quiet where
  keys := (Quiet.commit_write (fun _ => rfl) 0 _ _).1
  tenants := (Quiet.commit_write (fun _ => rfl) 0 _ _).1
  rotating _ := rfl

theorem orderly_of_none (h : ∀ t, s'.db.rotating t = none) (hcommits : CommitsOpen s a) :
    OrderlyKeys s a s' := ⟨rotatesActive_of_none h, hcommits⟩

/-- A key of the tenant is revoked once more. -/
def revokeAgain : List (Action KeyRequest) := [.begin 2 (.revoke "tenant-1" "key-1"), .exec 2, .commit 2]

theorem deactivateSchedule_orderly :
    EveryStep (serveKeys id sampleDirectory) OrderlyKeys (Sys.start sampleKeys) (deactivateSchedule ++ revokeAgain) := by
  have hnone : ∀ t u, update (fun _ : Txn => (none : Option String)) t none u = none := fun t u =>
    congrFun (update_eq_self t fun _ : Txn => (none : Option String)) u
  -- the deactivation
  refine everyStep_cons rfl (orderly_of_none (fun _ => rfl) trivial) ?_
  refine everyStep_cons rfl (orderly_of_none (fun _ => rfl) trivial) ?_
  refine everyStep_cons rfl (orderly_of_none (fun _ => rfl) trivial) ?_
  refine everyStep_cons rfl (orderly_of_none (fun _ => rfl) trivial) ?_
  refine everyStep_cons rfl (orderly_of_none (fun _ => rfl) trivial) ?_
  refine everyStep_cons rfl (orderly_of_none (hnone 1) fun req b hproc => ?_) ?_
  · cases hproc
    trivial
  -- the revocation
  refine everyStep_cons rfl (orderly_of_none (hnone 1) trivial) ?_
  refine everyStep_cons rfl (orderly_of_none (hnone 1) trivial) ?_
  refine everyStep_cons rfl (orderly_of_none (fun u => ?_) fun req b hproc => ?_) trivial
  · show update (update (fun _ : Txn => (none : Option String)) 1 none) 2 none u = none
    rw [show update (fun _ : Txn => (none : Option String)) 1 none = fun _ => none from funext (hnone 1)]
    exact hnone 2 u
  · cases hproc
    trivial

/-- The tenant of a key is deactivated, and the key revoked once more. -/
theorem key_revocation_final_sample : ∃ s s' : KeySys,
    run (serveKeys id sampleDirectory) (Sys.start sampleKeys) deactivateSchedule = some s ∧
    run (serveKeys id sampleDirectory) s revokeAgain = some s' ∧
    s.procs 1 = .committed (.deactivateTenant "tenant-1") (.deactivated "tenant-1") ∧
    ∀ header now keyId row, authenticate id header now s'.db = some (keyId, row) → row.tenantId ≠ "tenant-1" := by
  obtain ⟨s, hrun, hproc, s', hrun'⟩ : ∃ s : KeySys,
      run (serveKeys id sampleDirectory) (Sys.start sampleKeys) deactivateSchedule = some s ∧
      s.procs 1 = .committed (.deactivateTenant "tenant-1") (.deactivated "tenant-1") ∧
      ∃ s', run (serveKeys id sampleDirectory) s revokeAgain = some s' := ⟨_, rfl, rfl, _, rfl⟩
  exact ⟨s, s', hrun, hrun', hproc,
    (key_revocation_final sampleKeys_quiet hrun hrun' deactivateSchedule_orderly).2.2 1 "tenant-1" _ hproc⟩

end Sample

end Anoryx.Sentinel
