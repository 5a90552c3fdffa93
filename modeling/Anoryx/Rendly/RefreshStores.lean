import Anoryx.Rendly.RefreshRuns

/-!
# Anoryx.Rendly.RefreshStores

The two stores side by side: served the same calls, one after the other, they answer the
same, as long as the database can hold what it is given (`Suits`).

* `refresh_token_families` — the families of the database store, in any run of it, and the
  agreement of the stores.
-/

namespace Anoryx.Rendly

open ReadCommitted Function

/-! ## histories -/

/-- An answer, but for the text of an error. -/
def RefreshAnswer.withoutMessage : RefreshAnswer → RefreshAnswer
  | .invalid _ => .invalid ""
  | .reuse _ => .reuse ""
  | answer => answer

/-- How a call ends, but for the text of an error. -/
def outcome (answer : Except StoreError RefreshAnswer) : Except StoreError RefreshAnswer :=
  answer.map RefreshAnswer.withoutMessage

section Histories

variable (hashToken : String → String) (users : String → String → Bool)

def InMemoryStore.answers (store : InMemoryStore) : List RefreshCall → List (Except StoreError RefreshAnswer)
  | [] => []
  | call :: calls =>
      (store.serve hashToken call).1 :: InMemoryStore.answers (store.serve hashToken call).2 calls

/-- What the store in the database answers, call by call. -/
def RefreshDb.answers (t : Txn) (d : RefreshDb) : List RefreshCall → Option (List (Except StoreError RefreshAnswer))
  | [] => some []
  | call :: calls =>
      (atomically t (serve hashToken users call) d).bind fun p =>
        (RefreshDb.answers (t + 1) p.2 calls).map (p.1 :: ·)

/-- A rotation finds this record, and may exchange it. -/
structure InMemoryStore.Exchanges (store : InMemoryStore) (call : RotateCall) (record : TokenRecord) : Prop where
  found : store.byHash (hashToken call.rawToken) = some record
  active : record.familyId ∉ store.revokedFamilies
  current : call.checkedAt < record.expiresAt
  unused : record.used = false

/-- A hash that its column holds, and no token has. -/
structure InMemoryStore.Fresh (store : InMemoryStore) (tokenHash : String) : Prop where
  column : textColumn 64 tokenHash = some tokenHash
  free : store.byHash tokenHash = none

/-- The issue of a token that the database can store: its tenant is not blank and has the user, the
columns hold the texts, and what is drawn is new. -/
structure InMemoryStore.Issues (store : InMemoryStore) (call : IssueCall) : Prop where
  tenant : blank call.tenantId = false
  user : users call.tenantId call.userId = true
  familyId : textColumn 32 call.familyId = some call.familyId
  tenantId : textColumn 64 call.tenantId = some call.tenantId
  userId : textColumn 64 call.userId = some call.userId
  scopes : textArray (call.scopes.sort (· ≤ ·)) = some (call.scopes.sort (· ≤ ·))
  roles : textArray call.roles = some call.roles
  token : store.Fresh (hashToken call.token)
  family : ∀ h record, store.byHash h = some record → record.familyId ≠ call.familyId

/-- The call is one that the database can serve: where a token is exchanged, there is a moment at
which its successor expires, and an INTEGER for its generation. -/
def InMemoryStore.Suits (store : InMemoryStore) : RefreshCall → Prop
  | .issue call => store.Issues hashToken users call
  | .rotate call => ∀ record, store.Exchanges hashToken call record →
      (expiry call.mintedAt call.ttlSeconds).isSome ∧ record.generation < maxInteger ∧
        store.Fresh (hashToken call.successor)
  | .revoke _ => True

/-- Each call of a history is one that the database can serve. -/
def InMemoryStore.SuitsAll (store : InMemoryStore) : List RefreshCall → Prop
  | [] => True
  | call :: calls =>
      store.Suits hashToken users call ∧ InMemoryStore.SuitsAll (store.serve hashToken call).2 calls

end Histories

/-! ## one state for two stores -/

def TokenRecord.row (record : TokenRecord) : RefreshTokenRow :=
  ⟨record.familyId, record.tenantId, record.userId, record.generation, record.used, record.expiresAt,
    record.scopes.sort (· ≤ ·), record.roles⟩

/-- A token of the family is in the store. -/
def InMemoryStore.Knows (store : InMemoryStore) (familyId : String) : Prop :=
  ∃ h record, store.byHash h = some record ∧ record.familyId = familyId

/-- The store in memory holds what is committed. -/
structure Mirrored (store : InMemoryStore) (s : RefreshState) : Prop where
  tokens : ∀ h, s.tokens h = (store.byHash h).map TokenRecord.row
  families : ∀ f family, s.families f = some family → (family.revoked = true ↔ f ∈ store.revokedFamilies)
  known : ∀ f family, s.families f = some family → store.Knows f
  revoked : ∀ f ∈ store.revokedFamilies, store.Knows f
  nonblank : ∀ h record, store.byHash h = some record → blank record.tenantId = false

/-- The database between two calls: it holds what the store in memory does. -/
structure Mirrors (store : InMemoryStore) (d : RefreshDb) : Prop where
  inv : RefreshInv d
  families : d.families.Quiet
  tokens : d.tokens.Quiet
  mirrored : Mirrored store d.state

/-- Nobody but `t` has a row in flight. -/
structure Alone (t : Txn) (d : RefreshDb) : Prop where
  families : d.families.HeldBy t
  tokens : d.tokens.HeldBy t

variable {hashToken : String → String} {users : String → String → Bool} {store : InMemoryStore} {s : RefreshState}
  {d d' : RefreshDb} {t : Txn} {record successor : TokenRecord} {tokenHash successorHash familyId tenantId : String}
  {family : RefreshTokenFamilyRow}

theorem knows_put {f : String} (h : store.Knows f)
    (hold : ∀ old, store.byHash tokenHash = some old → record.familyId = old.familyId) :
    (store.put tokenHash record).Knows f := by
  obtain ⟨k, found, hfound, rfl⟩ := h
  by_cases hk : k = tokenHash
  · subst hk
    exact ⟨k, record, update_self .., hold found hfound⟩
  · exact ⟨k, found, (update_of_ne hk _ _).trans hfound, rfl⟩

/-! ### what the changes of the state mirror -/

theorem row_put (h : ∀ k, s.tokens k = (store.byHash k).map TokenRecord.row) (k : String) :
    update s.tokens tokenHash (some record.row) k =
      ((store.put tokenHash record).byHash k).map TokenRecord.row := by
  show _ = (update store.byHash tokenHash (some record) k).map _
  rw [update_apply, update_apply]
  split
  · rfl
  · exact h k

theorem Mirrored.issue (h : Mirrored store s) (hnone : store.byHash tokenHash = none)
    (hnew : ¬store.Knows record.familyId) (hfamily : family.revoked = false) (hblank : blank record.tenantId = false) :
    Mirrored (store.put tokenHash record) (s.issue record.familyId family tokenHash record.row) := by
  have hknows : ∀ {f}, store.Knows f → (store.put tokenHash record).Knows f := fun hf =>
    knows_put hf fun old hold => absurd (hnone.symm.trans hold) (Option.some_ne_none old).symm
  have hfamilies : ∀ {f family'}, (s.issue record.familyId family tokenHash record.row).families f = some family' →
      (f = record.familyId ∧ family' = family) ∨ s.families f = some family' := by
    intro f family' hf
    have hf : update s.families record.familyId (some family) f = some family' := hf
    grind [update_apply]
  refine ⟨row_put h.tokens, fun f family' hf => ?_, fun f family' hf => ?_, fun f hf => hknows (h.revoked f hf), ?_⟩
  · rcases hfamilies hf with ⟨rfl, rfl⟩ | hf
    · refine ⟨fun hrevoked => ?_, fun hmem => absurd (h.revoked _ hmem) hnew⟩
      rw [hfamily] at hrevoked
      contradiction
    · exact h.families f family' hf
  · rcases hfamilies hf with ⟨rfl, -⟩ | hf
    · exact ⟨tokenHash, record, update_self .., rfl⟩
    · exact hknows (h.known f family' hf)
  · intro k record' hk
    have hk : update store.byHash tokenHash (some record) k = some record' := hk
    grind [update_apply, h.nonblank k record']

theorem Mirrored.mint (h : Mirrored store s) (hrecord : store.byHash tokenHash = some record)
    (hnone : store.byHash successorHash = none) (htenant : successor.tenantId = record.tenantId) :
    Mirrored ((store.put tokenHash { record with used := true }).put successorHash successor)
      (s.mint t tokenHash record.row successorHash successor.row) := by
  have hne : successorHash ≠ tokenHash := by
    rintro rfl
    exact absurd (hnone.symm.trans hrecord) (Option.some_ne_none record).symm
  have hknows : ∀ {f}, store.Knows f →
      ((store.put tokenHash { record with used := true }).put successorHash successor).Knows f := by
    intro f hf
    refine knows_put (knows_put hf fun old hold => ?_) fun old hold => ?_
    · rw [Option.some.inj (hold.symm.trans hrecord)]
    · have hold : store.byHash successorHash = some old := (update_of_ne hne _ _).symm.trans hold
      exact absurd (hnone.symm.trans hold) (Option.some_ne_none old).symm
  have hmarked : ∀ k, update s.tokens tokenHash (some { record with used := true : TokenRecord }.row) k =
      ((store.put tokenHash { record with used := true }).byHash k).map TokenRecord.row := row_put h.tokens
  refine ⟨fun k => ?_, h.families, fun f family' hf => hknows (h.known f family' hf),
    fun f hf => hknows (h.revoked f hf), fun k record' hk => ?_⟩
  · exact row_put (s := { s with tokens := _ }) hmarked k
  · have hk : update (update store.byHash tokenHash (some { record with used := true }))
      successorHash (some successor) k = some record' := hk
    have hblank := h.nonblank tokenHash record hrecord
    grind [update_apply, h.nonblank k record']

theorem Mirrored.revoke (h : Mirrored store s) (hfamily : s.families familyId = some family) :
    Mirrored (store.revokeFamily familyId) (s.revoke familyId family) := by
  have hfamilies : ∀ {f family'}, (s.revoke familyId family).families f = some family' →
      (f = familyId ∧ family' = { family with revoked := true }) ∨ (f ≠ familyId ∧ s.families f = some family') := by
    intro f family' hf
    have hf : update s.families familyId (some { family with revoked := true }) f = some family' := hf
    grind [update_apply]
  refine ⟨h.tokens, fun f family' hf => ?_, fun f family' hf => ?_, fun f hf => ?_, h.nonblank⟩
  · rcases hfamilies hf with ⟨rfl, rfl⟩ | ⟨hne, hf⟩
    · exact ⟨fun _ => Finset.mem_insert_self f _, fun _ => rfl⟩
    · rw [h.families f family' hf]
      exact ⟨Finset.mem_insert_of_mem, fun hmem => Finset.mem_of_mem_insert_of_ne hmem hne⟩
  · rcases hfamilies hf with ⟨rfl, -⟩ | ⟨-, hf⟩
    · exact h.known f family hfamily
    · exact h.known f family' hf
  · rcases Finset.mem_insert.mp hf with rfl | hf
    · exact h.known f family hfamily
    · exact h.revoked f hf

/-! ## nobody else in the database -/

theorem Mirrors.alone (h : Mirrors store d) (t : Txn) : Alone t d := ⟨h.families.heldBy t, h.tokens.heldBy t⟩

theorem Mirrors.idle (h : Mirrors store d) (t : Txn) : Idle t d :=
  ⟨Table.Unheld.version_eq fun k _ hv => absurd ((h.families k).symm.trans hv) (Option.some_ne_none _).symm,
    Table.Unheld.version_eq fun k _ hv => absurd ((h.tokens k).symm.trans hv) (Option.some_ne_none _).symm⟩

theorem Mirrors.commit_eq (h : Mirrors store d) (t : Txn) : Database.commit t d = d := by
  show RefreshDb.mk (d.families.commit t) (d.tokens.commit t) d.successors = d
  rw [h.families.commit_eq_self, h.tokens.commit_eq_self]

theorem Alone.rollback (h : Alone t d) (hinv : RefreshInv d) (hmirrored : Mirrored store d.state) :
    Mirrors store (Database.rollback t d) :=
  ⟨(hinv.rollback t).1, h.families.othersInflight, h.tokens.othersInflight, hmirrored⟩

theorem Alone.commit (h : Alone t d) (hinv : RefreshInv d) (hvalid : (Database.commit t d).state.Valid)
    (hmirrored : Mirrored store (Database.commit t d).state) : Mirrors store (Database.commit t d) :=
  ⟨(hinv.commit hvalid).1, h.families.othersInflight, h.tokens.othersInflight, hmirrored⟩

theorem Alone.selectTokenForUpdate (h : Alone t d) (tenantId tokenHash : String) :
    ∃ r d', Rendly.selectTokenForUpdate tenantId tokenHash t d = some (r, d') ∧ Alone t d' := by
  obtain ⟨r, table, hupdate, hheld⟩ := h.tokens.updateWhere tokenHash (fun token => token.tenantId = tenantId) id
  exact ⟨r, _, Option.map_eq_some_iff.mpr ⟨_, hupdate, rfl⟩, h.families, hheld⟩

theorem Alone.updateUsed (h : Alone t d) (tenantId tokenHash : String) :
    ∃ r d', Rendly.updateUsed tenantId tokenHash t d = some (r, d') ∧ Alone t d' := by
  obtain ⟨r, table, hupdate, hheld⟩ := h.tokens.updateWhere tokenHash (fun token => token.tenantId = tenantId)
    fun token => { token with used := true }
  exact ⟨r, _, Option.map_eq_some_iff.mpr ⟨_, hupdate, rfl⟩, h.families, hheld⟩

theorem Alone.updateRevoked (h : Alone t d) (tenantId familyId : String) :
    ∃ r d', Rendly.updateRevoked tenantId familyId t d = some (r, d') ∧ Alone t d' := by
  obtain ⟨r, table, hupdate, hheld⟩ := h.families.updateWhere familyId (fun family => family.tenantId = tenantId)
    fun family => { family with revoked := true }
  exact ⟨r, _, Option.map_eq_some_iff.mpr ⟨_, hupdate, rfl⟩, hheld, h.tokens⟩

theorem Alone.insertFamily (h : Alone t d) (family : RefreshTokenFamilyRow) (hnone : d.families.visible t familyId = none) :
    ∃ d', Rendly.insertFamily familyId family t d = some (true, d') ∧ Alone t d' := by
  refine ⟨{ d with families := d.families.write t familyId family }, ?_, h.families.write, h.tokens⟩
  exact Option.map_eq_some_iff.mpr ⟨_, by rw [Table.insertOrIgnore, if_pos (h.families familyId), hnone], rfl⟩

theorem Alone.insertToken (h : Alone t d) (token : RefreshTokenRow) (hnone : d.tokens.visible t tokenHash = none) :
    ∃ d', Rendly.insertToken tokenHash token t d = some (true, d') ∧ Alone t d' := by
  refine ⟨{ d with tokens := d.tokens.write t tokenHash token }, ?_, h.families, h.tokens.write⟩
  exact Option.map_eq_some_iff.mpr ⟨_, by rw [Table.insertOrIgnore, if_pos (h.tokens tokenHash), hnone], rfl⟩

/-! ## one call -/

/-- Run alone, the program ends as the store in memory did. -/
def Agrees (t : Txn) (p : Prog RefreshDb StoreError RefreshAnswer) (d : RefreshDb)
    (served : Except StoreError RefreshAnswer × InMemoryStore) : Prop :=
  ∃ answer d', atomically t p d = some (answer, d') ∧ outcome answer = outcome served.1 ∧ Mirrors served.2 d'

theorem agrees_of_ok {p : Prog RefreshDb StoreError RefreshAnswer} (answer : RefreshAnswer)
    {served : Except StoreError RefreshAnswer × InMemoryStore} (heval : p.eval t d = some (.ok answer, d'))
    (houtcome : outcome (.ok answer) = outcome served.1) (h : Mirrors served.2 d') : Agrees t p d served :=
  ⟨.ok answer, Database.commit t d', atomically_of_ok heval, houtcome, (h.commit_eq t).symm ▸ h⟩

theorem Mirrors.rollback (h : Mirrors store d) (t : Txn) : Mirrors store (Database.rollback t d) :=
  (h.alone t).rollback h.inv h.mirrored

theorem Mirrors.discoverTenant (h : Mirrors store d) (t : Txn) (tokenHash : String) :
    Rendly.discoverTenant tokenHash t d = (store.byHash tokenHash).map TokenRecord.tenantId := by
  have htoken : d.tokens.committed tokenHash = (store.byHash tokenHash).map TokenRecord.row := h.mirrored.tokens tokenHash
  rw [Rendly.discoverTenant, (h.idle t).tokens_visible, htoken, Option.map_map]
  rfl

theorem Mirrors.committed (h : Mirrors store d) (hrecord : store.byHash tokenHash = some record) :
    d.tokens.committed tokenHash = some record.row := by
  have htoken : d.tokens.committed tokenHash = (store.byHash tokenHash).map TokenRecord.row := h.mirrored.tokens tokenHash
  rw [htoken, hrecord]
  rfl

theorem Mirrors.familyRow (h : Mirrors store d) (hrecord : store.byHash tokenHash = some record) :
    ∃ family, d.families.committed record.familyId = some family ∧ family.tenantId = record.tenantId ∧
      (family.revoked = true ↔ record.familyId ∈ store.revokedFamilies) := by
  obtain ⟨family, hfamily, htenant⟩ := h.inv.valid.owned tokenHash record.row (h.committed hrecord)
  exact ⟨family, hfamily, htenant, h.mirrored.families _ family hfamily⟩

theorem eval_revokeFamily {tokens : String → Option RefreshTokenRow} (answer : RefreshAnswer) (halone : Alone t d)
    (hinv : RefreshInv d) (hwrote : Wrote t (fun _ => none) tokens d)
    (htokens : ∀ k v, tokens k = some v → d.tokens.committed k = some v)
    (hfamily : d.families.committed familyId = some family) (htenant : family.tenantId = tenantId)
    (hmirrored : Mirrored store d.state) :
    ∃ d', (do let _ ← Prog.exec (updateRevoked tenantId familyId)
              Prog.commitWork
              pure answer : Prog RefreshDb StoreError RefreshAnswer).eval t d = some (.ok answer, d') ∧
      Mirrors (store.revokeFamily familyId) d' := by
  obtain ⟨r, d₁, hupdate, halone₁⟩ := halone.updateRevoked tenantId familyId
  obtain ⟨hkeeps, hstate, hwrote₁⟩ := hinv.updateRevoked hwrote hfamily htenant hupdate
  refine ⟨Database.commit t d₁, ?_, ?_⟩
  · rw [Prog.eval_exec_bind hupdate]
    rfl
  · have htokens₁ : ∀ k v, tokens k = some v → d₁.tokens.committed k = some v := by
      intro k v hv
      have hsame : d₁.state.tokens k = d.state.tokens k := by rw [hstate]
      exact hsame.trans (htokens k v hv)
    have hcommit := state_commit_revoke hwrote₁ htokens₁
    rw [hstate] at hcommit
    refine halone₁.commit hkeeps.1 ?_ ?_
    · rw [hcommit]
      exact hinv.valid.revoke hfamily
    · rw [hcommit]
      exact hmirrored.revoke hfamily

theorem Mirrors.revoke (h : Mirrors store d) (rawToken : String) :
    Agrees t (Rendly.revoke hashToken rawToken) d (store.revoke hashToken rawToken) := by
  have hrolled := h.rollback t
  have hdiscover := h.discoverTenant t (hashToken rawToken)
  unfold Agrees InMemoryStore.revoke
  cases hrecord : store.byHash (hashToken rawToken) with
  | none =>
      refine agrees_of_ok .revoked ?_ rfl hrolled
      rw [Rendly.revoke, Prog.eval_query_bind, hdiscover, hrecord]
      rfl
  | some record =>
      obtain ⟨family, hfamily, htenant, -⟩ := hrolled.familyRow hrecord
      have hselect : selectFamilyId record.tenantId (hashToken rawToken) t (Database.rollback t d) =
          some record.familyId := by
        have hfilter : (some record.row).filter (fun token => token.tenantId = record.tenantId) = some record.row :=
          Option.filter_eq_some_iff.mpr ⟨rfl, decide_eq_true rfl⟩
        rw [selectFamilyId, (hrolled.idle t).tokens_visible, hrolled.committed hrecord, hfilter]
        rfl
      obtain ⟨d', heval, hmirrors⟩ := eval_revokeFamily .revoked (hrolled.alone t) hrolled.inv (hrolled.idle t)
        (fun k v hv => by contradiction) hfamily htenant hrolled.mirrored
      refine agrees_of_ok _ ?_ rfl hmirrors
      rw [Rendly.revoke, Prog.eval_query_bind, hdiscover, hrecord, Prog.rollbackWork, Prog.eval_exec_bind rfl]
      simp only [Option.map_some]
      rw [if_neg (by rw [h.mirrored.nonblank _ record hrecord]; exact Bool.false_ne_true), Prog.eval_query_bind, hselect]
      exact heval

theorem orRaise_of_some {α : Type} {e : StoreError} {x : Option α} {a : α} (h : x = some a) : orRaise e x = .ok a := by
  rw [h]
  rfl

variable {answer : RefreshAnswer} {call : RotateCall}

theorem eval_refuse : (refuse answer).eval t d = some (.ok answer, Database.rollback t d) := rfl

theorem agrees_mint (halone : Alone t d) (hinv : RefreshInv d)
    (hlocked : Locked t (hashToken call.rawToken) record.row d) (hmirrored : Mirrored store d.state)
    (hexchanges : store.Exchanges hashToken call record)
    (hsuits : (expiry call.mintedAt call.ttlSeconds).isSome ∧ record.generation < maxInteger ∧
      store.Fresh (hashToken call.successor)) :
    ∃ answer d', (mint hashToken call record.row).eval t d = some (.ok answer, d') ∧
      outcome (.ok answer) = outcome (store.mint hashToken call record).1 ∧
        Mirrors (store.mint hashToken call record).2 d' := by
  obtain ⟨hexpiry, hgeneration, hfresh⟩ := hsuits
  obtain ⟨expiresAt, hexpiresAt⟩ := Option.isSome_iff_exists.mp hexpiry
  obtain ⟨r, d₁, hupdate, halone₁⟩ := halone.updateUsed record.row.tenantId (hashToken call.rawToken)
  obtain ⟨hkeeps₁, hstate₁, hwrote₁⟩ := hinv.updateUsed hlocked hupdate
  have hnone₁ : d₁.tokens.committed (hashToken call.successor) = none := by
    have htoken : d₁.state.tokens (hashToken call.successor) = _ := hstate₁ ▸ hmirrored.tokens _
    rw [hfresh.free] at htoken
    exact htoken
  have hne : hashToken call.successor ≠ hashToken call.rawToken := by
    intro he
    exact absurd (hfresh.free.symm.trans (he ▸ hexchanges.found)) (Option.some_ne_none record).symm
  have hvisible₁ : d₁.tokens.visible t (hashToken call.successor) = none := by
    refine (Table.visible_of_no_inflight fun v hv => ?_).trans hnone₁
    have hversion := Table.version_eq_some.mpr hv
    rw [hwrote₁.tokens, update_of_ne hne] at hversion
    contradiction
  obtain ⟨d₂, hinsert, halone₂⟩ := halone₁.insertToken (TokenRecord.row
    { record with generation := record.generation + 1, expiresAt := expiresAt, used := false }) hvisible₁
  obtain ⟨hkeeps₂, hstate₂, hinserted⟩ := hkeeps₁.1.insertToken hwrote₁ hinsert
  obtain ⟨hwrote₂, -⟩ := hinserted rfl
  obtain ⟨d₃, hcommit⟩ : ∃ d₃, commitSuccessor (hashToken call.rawToken) (hashToken call.successor) t d₂ = some ((), d₃) :=
    ⟨_, rfl⟩
  have hstate₃ := state_commitSuccessor hwrote₂ hcommit
  rw [hstate₂, hstate₁] at hstate₃
  have hvalid₃ : d₃.state.Valid := by
    rw [hstate₃]
    refine hinv.valid.mint hlocked.committed ?_ hexchanges.unused rfl rfl rfl
    rw [← hstate₁]
    exact hnone₁
  obtain ⟨hkeeps₃, -⟩ := hkeeps₂.1.commitSuccessor hvalid₃ hcommit
  have hmirrors₃ : Mirrors ((store.put (hashToken call.rawToken) { record with used := true }).put
      (hashToken call.successor)
        { record with generation := record.generation + 1, expiresAt := expiresAt, used := false }) d₃ := by
    refine ⟨hkeeps₃.1, ?_, ?_, ?_⟩
    · cases hcommit
      exact halone₂.families.othersInflight
    · cases hcommit
      exact halone₂.tokens.othersInflight
    · rw [hstate₃]
      exact hmirrored.mint hexchanges.found hfresh.free rfl
  have hscopes : record.row.scopes.toFinset = record.scopes := Finset.sort_toFinset record.scopes (· ≤ ·)
  have hrange : ¬maxInteger < record.row.generation + 1 := Nat.not_lt.mpr hgeneration
  refine ⟨.rotated ⟨call.successor, record.userId, record.tenantId, record.scopes, record.roles⟩, d₃, ?_, ?_, ?_⟩
  · rw [mint, Prog.eval_exec_bind hupdate, Prog.eval_ofExcept_bind (orRaise_of_some hexpiresAt),
      Prog.eval_ofExcept_bind (orRaise_of_some hfresh.column), if_neg hrange, hscopes]
    refine (Prog.eval_inserting_bind hinsert).trans ?_
    rw [Prog.eval_exec_bind hcommit]
    rfl
  · rw [InMemoryStore.mint, hexpiresAt]
  · rw [InMemoryStore.mint, hexpiresAt]
    exact hmirrors₃

/-- Rotations agree, where both stores know the tenant. -/
theorem Mirrors.rotate (h : Mirrors store d) (hsuits : store.Suits hashToken users (.rotate call)) :
    Agrees t (Rendly.rotate hashToken call) d (store.rotate hashToken call) := by
  have hrolled := h.rollback t
  have hdiscover := h.discoverTenant t (hashToken call.rawToken)
  unfold InMemoryStore.rotate
  cases hrecord : store.byHash (hashToken call.rawToken) with
  | none =>
      refine agrees_of_ok (.invalid "unknown refresh token") ?_ rfl hrolled
      rw [Rendly.rotate, Prog.eval_query_bind, hdiscover, hrecord]
      rfl
  | some record =>
      -- the token is locked, and its family is read
      obtain ⟨r, d₁, hselect, halone₁⟩ := (hrolled.alone t).selectTokenForUpdate record.tenantId
        (hashToken call.rawToken)
      obtain ⟨hkeeps₁, hstate₁, hmissing, hfound⟩ := hrolled.inv.selectTokenForUpdate (hrolled.idle t) hselect
      cases r with
      | none => exact absurd rfl ((hmissing rfl).2 record.row (hrolled.committed hrecord))
      | some token =>
          obtain ⟨hlocked, -⟩ := hfound token rfl
          obtain rfl : token = record.row := by
            have hsame : d₁.state.tokens (hashToken call.rawToken) = some record.row :=
              hstate₁ ▸ hrolled.committed hrecord
            exact Option.some.inj (hlocked.committed.symm.trans hsame)
          have hmirrored₁ : Mirrored store d₁.state := hstate₁ ▸ hrolled.mirrored
          have hrefused := halone₁.rollback hkeeps₁.1 hmirrored₁
          obtain ⟨family, hfamily, htenant, hrevoked⟩ := hrolled.familyRow hrecord
          have hfamily₁ : d₁.state.families record.familyId = some family := hstate₁ ▸ hfamily
          have hread : selectFamily record.tenantId record.familyId t d₁ = some family := by
            rw [selectFamily, hlocked.wrote.families_visible]
            exact Option.filter_eq_some_iff.mpr ⟨hfamily₁, decide_eq_true htenant⟩
          have hprogram : (Rendly.rotate hashToken call).eval t d =
              (rotateLocked hashToken call record.row (some family)).eval t d₁ := by
            rw [Rendly.rotate, Prog.eval_query_bind, hdiscover, hrecord, Prog.rollbackWork, Prog.eval_exec_bind rfl]
            simp only [Option.map_some]
            rw [if_neg (by rw [h.mirrored.nonblank _ record hrecord]; exact Bool.false_ne_true),
              Prog.eval_exec_bind hselect]
            show (Prog.query _ >>= _).eval t d₁ = _
            rw [Prog.eval_query_bind]
            exact congrArg (fun read => (rotateLocked hashToken call record.row read).eval t d₁) hread
          simp only [rotateLocked] at hprogram
          by_cases hmem : record.familyId ∈ store.revokedFamilies
          · rw [if_pos (hrevoked.mpr hmem), eval_refuse] at hprogram
            simp only [if_pos hmem]
            exact agrees_of_ok _ hprogram rfl hrefused
          rw [if_neg (mt hrevoked.mp hmem)] at hprogram
          simp only [if_neg hmem]
          by_cases hexpired : record.expiresAt ≤ call.checkedAt
          · rw [if_pos (show record.row.expiresAt ≤ call.checkedAt from hexpired), eval_refuse] at hprogram
            simp only [if_pos hexpired]
            exact agrees_of_ok _ hprogram rfl hrefused
          rw [if_neg (show ¬record.row.expiresAt ≤ call.checkedAt from hexpired)] at hprogram
          simp only [if_neg hexpired]
          by_cases hused : record.used = true
          · rw [if_pos (show record.row.used = true from hused)] at hprogram
            simp only [if_pos hused]
            obtain ⟨d₂, heval, hmirrors⟩ := eval_revokeFamily
              (.reuse "refresh token reuse detected; family revoked") halone₁ hkeeps₁.1 hlocked.wrote
              (fun k v hv => hlocked.only hv) hfamily₁ htenant hmirrored₁
            exact agrees_of_ok _ (hprogram.trans heval) rfl hmirrors
          · rw [if_neg (show ¬record.row.used = true from hused)] at hprogram
            simp only [if_neg hused]
            have hexchanges : store.Exchanges hashToken call record :=
              ⟨hrecord, hmem, Int.lt_of_not_ge hexpired, Bool.eq_false_iff.mpr hused⟩
            obtain ⟨answer, d₂, heval, houtcome, hmirrors⟩ :=
              agrees_mint halone₁ hkeeps₁.1 hlocked hmirrored₁ hexchanges (hsuits record hexchanges)
            exact agrees_of_ok _ (hprogram.trans heval) houtcome hmirrors

/-- So do issues. -/
theorem Mirrors.issue {call : IssueCall} (h : Mirrors store d) (hsuits : store.Issues hashToken users call) :
    Agrees t (Rendly.issue hashToken users call) d (store.issue hashToken call) := by
  have hidle := h.idle t
  -- the family id that is drawn is new
  have hnew : ¬store.Knows call.familyId := by
    rintro ⟨k, record, hrecord, hfamily⟩
    exact hsuits.family k record hrecord hfamily
  have hnone : d.families.committed call.familyId = none := by
    rw [Option.eq_none_iff_forall_ne_some]
    exact fun family hfamily => hnew (h.mirrored.known _ family hfamily)
  obtain ⟨d₁, hinsert, halone₁⟩ := (h.alone t).insertFamily ⟨call.tenantId, call.userId, false⟩
    ((hidle.families_visible call.familyId).trans hnone)
  obtain ⟨hkeeps₁, hstate₁, hinserted₁⟩ := h.inv.insertFamily hidle hinsert
  obtain ⟨hwrote₁, -⟩ := hinserted₁ rfl
  have hbegin : ∀ program, (Prog.inserting .integrity (insertFamily call.familyId ⟨call.tenantId, call.userId, false⟩) >>=
      program : Prog RefreshDb StoreError RefreshAnswer).eval t d = (program ()).eval t d₁ := fun program =>
    Prog.eval_inserting_bind hinsert
  unfold InMemoryStore.issue Rendly.issue
  rw [if_neg (by rw [hsuits.tenant]; exact Bool.false_ne_true)]
  cases hexpiry : expiry call.mintedAt call.ttlSeconds with
  | none =>
      have hmirrored₁ : Mirrored store d₁.state := hstate₁ ▸ h.mirrored
      refine ⟨.error .overflow, Database.rollback t d₁, atomically_of_error ?_, rfl, halone₁.rollback hkeeps₁.1 hmirrored₁⟩
      rw [Prog.eval_ofExcept_bind (orRaise_of_some hsuits.familyId), Prog.eval_ofExcept_bind
        (orRaise_of_some hsuits.tenantId), Prog.eval_ofExcept_bind (orRaise_of_some hsuits.userId), hbegin]
      rfl
  | some expiresAt =>
      have htoken₁ : d₁.tokens.committed (hashToken call.token) = none := by
        have htoken : d₁.state.tokens (hashToken call.token) = _ := hstate₁ ▸ h.mirrored.tokens _
        rw [hsuits.token.free] at htoken
        exact htoken
      obtain ⟨d₂, hinsert₂, halone₂⟩ := halone₁.insertToken (TokenRecord.row ⟨call.familyId, 0, call.userId,
        call.tenantId, call.scopes, call.roles, expiresAt, false⟩) ((hwrote₁.tokens_visible _).trans htoken₁)
      obtain ⟨hkeeps₂, hstate₂, hinserted⟩ := hkeeps₁.1.insertToken hwrote₁ hinsert₂
      obtain ⟨hwrote₂, -⟩ := hinserted rfl
      have hcommit := state_commit_issue hwrote₂
      rw [hstate₂, hstate₁] at hcommit
      have hvalid : (Database.commit t d₂).state.Valid := by
        rw [hcommit]
        exact h.inv.valid.issue hnone (hstate₁ ▸ htoken₁) rfl rfl rfl
      refine agrees_of_ok (.issued call.token) ?_ rfl
        (halone₂.commit hkeeps₂.1 hvalid ?_)
      · rw [Prog.eval_ofExcept_bind (orRaise_of_some hsuits.familyId), Prog.eval_ofExcept_bind
          (orRaise_of_some hsuits.tenantId), Prog.eval_ofExcept_bind (orRaise_of_some hsuits.userId), hbegin]
        rw [Prog.eval_ofExcept_bind (orRaise_of_some rfl), Prog.eval_ofExcept_bind (orRaise_of_some hsuits.token.column),
          Prog.eval_ofExcept_bind (orRaise_of_some hsuits.scopes), Prog.eval_ofExcept_bind (orRaise_of_some hsuits.roles)]
        refine (Prog.eval_inserting_bind hinsert₂).trans ?_
        rw [if_pos hsuits.user]
        rfl
      · rw [hcommit]
        exact h.mirrored.issue hsuits.token.free hnew rfl hsuits.tenant

/-- **One call**, of both stores. -/
theorem Mirrors.serve {call : RefreshCall} (h : Mirrors store d) (hsuits : store.Suits hashToken users call) :
    Agrees t (Rendly.serve hashToken users call) d (store.serve hashToken call) := by
  cases call with
  | issue call => exact h.issue hsuits
  | rotate call => exact h.rotate hsuits
  | revoke rawToken => exact h.revoke rawToken

theorem mirrors_empty : Mirrors InMemoryStore.empty RefreshDb.empty where
  inv := ⟨Table.evolves_empty, Table.evolves_empty, RefreshState.valid_empty⟩
  families _ := rfl
  tokens _ := rfl
  mirrored := by
    refine ⟨fun _ => rfl, fun f family hfamily => ?_, fun f family hfamily => ?_, fun f hf => ?_, fun h record hrecord => ?_⟩
    · contradiction
    · contradiction
    · exact absurd hf (Finset.notMem_empty f)
    · contradiction

/-- **A history**, of both stores. -/
theorem Mirrors.answers {calls : List RefreshCall} (h : Mirrors store d)
    (hsuits : store.SuitsAll hashToken users calls) :
    (d.answers hashToken users t calls).map (List.map outcome) = some ((store.answers hashToken calls).map outcome) := by
  induction calls generalizing store d t with
  | nil => rfl
  | cons call calls ih =>
      obtain ⟨hcall, hrest⟩ := hsuits
      obtain ⟨answer, d', hserve, houtcome, hmirrors⟩ := h.serve (t := t) hcall
      obtain ⟨answers, hanswers, hsame⟩ := Option.map_eq_some_iff.mp (ih (t := t + 1) hmirrors hrest)
      rw [RefreshDb.answers, hserve, Option.bind_some, hanswers, Option.map_some, Option.map_some, List.map_cons,
        houtcome, hsame]
      rfl

/-! ## the families in every run -/

section Runs

variable {as as₁ as₂ : List (Action RefreshCall)} {s₁ s₂ : Sys RefreshDb StoreError RefreshCall RefreshAnswer}

/-- Who begins at `s₁` or later has exchanged no token of the family at `s₂`. -/
def NotExchanged (hashToken : String → String) (s₁ s₂ : Sys RefreshDb StoreError RefreshCall RefreshAnswer)
    (familyId : String) : Prop :=
  ∀ t call result token, s₁.procs t = .idle → s₂.procs t = .committed (.rotate call) (.rotated result) →
    s₂.db.tokens.committed (hashToken call.rawToken) = some token → token.familyId ≠ familyId

theorem notExchanged_of_revoked (hok : (refreshLogic hashToken).Ok s₁) (hrun : run (serve hashToken users) s₁ as₂ = some s₂)
    (hrevoked : s₁.db.state.Revoked familyId) : NotExchanged hashToken s₁ s₂ familyId := by
  rintro t call result token hidle hanswer htoken rfl
  obtain ⟨token', successorHash, htoken', hfamily, -⟩ :=
    (answered_of_run hok hrun hidle hanswer : Rotated hashToken t _ call _ _).minted result rfl
  rw [Option.some.inj (htoken.symm.trans htoken')] at hrevoked
  exact hfamily hrevoked

/-- **Refresh-token families**: a token has one successor at most, a family one unused token at most
and consecutive generations, and no token of a family is exchanged after a replay or a
revocation of one.  The two stores answer the same. -/
theorem refresh_token_families (hashToken : String → String) (users : String → String → Bool)
    {s s₁ s₂ : Sys RefreshDb StoreError RefreshCall RefreshAnswer}
    (hrun : run (serve hashToken users) (Sys.start RefreshDb.empty) as = some s)
    (hrun₁ : run (serve hashToken users) s as₁ = some s₁) (hrun₂ : run (serve hashToken users) s₁ as₂ = some s₂)
    {calls : List RefreshCall} (hsuits : InMemoryStore.empty.SuitsAll hashToken users calls) :
    (∀ h, (s.db.successors h).length ≤ 1) ∧
    (∀ t t' call call' result result', s.procs t = .committed (.rotate call) (.rotated result) →
      s.procs t' = .committed (.rotate call') (.rotated result') →
      hashToken call.rawToken = hashToken call'.rawToken → t = t') ∧
    (∀ h h' token token', s.db.tokens.committed h = some token → s.db.tokens.committed h' = some token' →
      token.familyId = token'.familyId → token.used = false → token'.used = false → h = h') ∧
    (∀ familyId, ∃ n, (∀ g < n, ∃! h, s.db.state.Has familyId g h) ∧ ∀ g h, s.db.state.Has familyId g h → g < n) ∧
    (∀ t call answer token, s.procs t = .idle → s₁.procs t = .committed (.rotate call) answer →
      s.db.tokens.committed (hashToken call.rawToken) = some token → token.used = true →
      call.checkedAt < token.expiresAt → NotExchanged hashToken s₁ s₂ token.familyId) ∧
    (∀ t rawToken answer token, s.procs t = .idle → s₁.procs t = .committed (.revoke rawToken) answer →
      s.db.tokens.committed (hashToken rawToken) = some token → NotExchanged hashToken s₁ s₂ token.familyId) ∧
    (∀ familyId, s₁.db.state.Revoked familyId → NotExchanged hashToken s₁ s₂ familyId) ∧
    ∀ t, (RefreshDb.empty.answers hashToken users t calls).map (List.map outcome) =
      some ((InMemoryStore.empty.answers hashToken calls).map outcome) := by
  have hok := refresh_ok_of_run hrun
  have hok₁ := refresh_ok_of_run (run_append hrun hrun₁)
  have hvalid := hok.inv.valid
  have hminted : ∀ t call result, s.procs t = .committed (.rotate call) (.rotated result) →
      ∃ successorHash, (t, successorHash) ∈ s.db.successors (hashToken call.rawToken) := by
    intro t call result ht
    have hanswered := answered_of_run refresh_ok_start hrun rfl ht
    obtain ⟨-, successorHash, -, -, hmem⟩ := hanswered.minted result rfl
    exact ⟨successorHash, hmem⟩
  refine ⟨hvalid.single, ?_, fun h h' token token' => hvalid.unused_unique, fun familyId => ?_, ?_, ?_,
    fun familyId => notExchanged_of_revoked hok₁ hrun₂, fun t => mirrors_empty.answers hsuits⟩
  · intro t t' call call' result result' ht ht' hsame
    obtain ⟨successorHash, hmem⟩ := hminted t call result ht
    obtain ⟨successorHash', hmem'⟩ := hminted t' call' result' ht'
    rw [← hsame] at hmem'
    obtain ⟨p, hp⟩ : ∃ p, s.db.successors (hashToken call.rawToken) = [p] :=
      List.length_eq_one_iff.mp (Nat.le_antisymm (hvalid.single _) (List.length_pos_of_mem hmem))
    rw [hp, List.mem_singleton] at hmem hmem'
    exact congrArg Prod.fst (hmem.trans hmem'.symm)
  · obtain ⟨n, hn⟩ := hvalid.consecutive familyId
    refine ⟨n, fun g hg => ?_, fun g h hhas => (hn g).mp ⟨h, hhas⟩⟩
    obtain ⟨h, hhas⟩ := (hn g).mpr hg
    exact ⟨h, hhas, fun h' hhas' => hvalid.once familyId g h' h hhas' hhas⟩
  · intro t call answer token hidle hanswer htoken hused hbefore
    have hanswered : Rotated hashToken t s.db.state call answer s₁.db.state :=
      answered_of_run hok hrun₁ hidle hanswer
    exact notExchanged_of_revoked hok₁ hrun₂ (hanswered.replayed token htoken hused hbefore)
  · intro t rawToken answer token hidle hanswer htoken
    have hanswered : Answered hashToken t s.db.state (.revoke rawToken) answer s₁.db.state :=
      answered_of_run hok hrun₁ hidle hanswer
    exact notExchanged_of_revoked hok₁ hrun₂ (hanswered token htoken)

end Runs

/-! ## a token that is replayed -/

section Sample

def sampleIssue : IssueCall := ⟨"u-1", "t-1", ∅, ["member"], 3600, 0, "rt_1", "f-1"⟩

def sampleRotate : RotateCall := ⟨"rt_1", 3600, 10, 10, "rt_2"⟩

def sampleReplay : RotateCall := ⟨"rt_1", 3600, 20, 20, "rt_3"⟩

def sampleRefused : RotateCall := ⟨"rt_2", 3600, 30, 30, "rt_4"⟩

def sampleCalls : List RefreshCall := [.issue sampleIssue, .rotate sampleRotate, .rotate sampleReplay]

abbrev sampleHash (raw : String) : String := raw

abbrev sampleUsers (_ _ : String) : Bool := true

abbrev SampleRefreshSys := Sys RefreshDb StoreError RefreshCall RefreshAnswer

abbrev sampleServe : RefreshCall → Prog RefreshDb StoreError RefreshAnswer := serve sampleHash sampleUsers

def sampleRotation : List (Action RefreshCall) :=
  [.begin 1 (.issue sampleIssue), .exec 1, .exec 1, .exec 1, .commit 1, .begin 2 (.rotate sampleRotate), .exec 2,
    .exec 2, .exec 2, .exec 2, .exec 2, .exec 2, .exec 2, .commit 2]

def sampleReuse : List (Action RefreshCall) :=
  [.begin 3 (.rotate sampleReplay), .exec 3, .exec 3, .exec 3, .exec 3, .exec 3, .exec 3, .commit 3]

def sampleLate : List (Action RefreshCall) :=
  [.begin 4 (.rotate sampleRefused), .exec 4, .exec 4, .exec 4, .exec 4, .exec 4, .commit 4]

def rotation : Proc RefreshDb StoreError RefreshCall RefreshAnswer → Option (RotateCall × RefreshAnswer)
  | .committed (.rotate call) answer => some (call, answer)
  | _ => none

theorem rotation_eq_some {c : Proc RefreshDb StoreError RefreshCall RefreshAnswer}
    (h : rotation c = some (call, answer)) : c = .committed (.rotate call) answer := by
  unfold rotation at h
  split at h
  · cases h
    rfl
  · contradiction

theorem sampleCalls_suit : InMemoryStore.empty.SuitsAll sampleHash sampleUsers sampleCalls := by
  refine ⟨⟨rfl, rfl, rfl, rfl, rfl, by decide +kernel, rfl, ⟨rfl, rfl⟩, fun h record hrecord => by contradiction⟩,
    fun record hexchanges => ?_, fun record hexchanges => ?_, trivial⟩
  · obtain rfl : _ = record := Option.some.inj hexchanges.found
    exact ⟨by decide, by decide, rfl, rfl⟩
  · obtain rfl : _ = record := Option.some.inj hexchanges.found
    exact absurd hexchanges.unused.symm Bool.false_ne_true

/-- The replay revokes the family, and nobody can exchange the successor. -/
theorem refresh_token_families_sample : ∃ s s₁ s₂ : SampleRefreshSys, ∃ token,
    run sampleServe (Sys.start RefreshDb.empty) sampleRotation = some s ∧
    run sampleServe s sampleReuse = some s₁ ∧ run sampleServe s₁ sampleLate = some s₂ ∧
    s.db.tokens.committed "rt_1" = some token ∧ NotExchanged sampleHash s₁ s₂ token.familyId ∧
    (RefreshDb.empty.answers sampleHash sampleUsers 0 sampleCalls).map (List.map outcome) =
      some ((InMemoryStore.empty.answers sampleHash sampleCalls).map outcome) := by
  have hreport : (run sampleServe (Sys.start RefreshDb.empty) sampleRotation).bind (fun s =>
      (run sampleServe s sampleReuse).bind fun s₁ => (run sampleServe s₁ sampleLate).bind fun _ =>
        (rotation (s₁.procs 3)).bind fun p => (s.db.tokens.committed "rt_1").map fun token =>
          (p.1.rawToken, p.1.checkedAt, token.used, token.expiresAt)) =
      some ("rt_1", 20, true, 3600000000) := by
    decide +kernel
  obtain ⟨s, hrun, h⟩ := Option.bind_eq_some_iff.mp hreport
  obtain ⟨s₁, hrun₁, h⟩ := Option.bind_eq_some_iff.mp h
  obtain ⟨s₂, hrun₂, h⟩ := Option.bind_eq_some_iff.mp h
  obtain ⟨⟨call, answer⟩, hrotation, h⟩ := Option.bind_eq_some_iff.mp h
  obtain ⟨token, htoken, h⟩ := Option.map_eq_some_iff.mp h
  obtain ⟨hraw, h⟩ := Prod.mk.inj h
  obtain ⟨hchecked, h⟩ := Prod.mk.inj h
  obtain ⟨hused, hexpires⟩ := Prod.mk.inj h
  have hidle : s.procs 3 = .idle := run_procs hrun (by decide)
  obtain ⟨-, -, -, -, hreplayed, -, -, hagree⟩ :=
    refresh_token_families sampleHash sampleUsers hrun hrun₁ hrun₂ sampleCalls_suit
  refine ⟨s, s₁, s₂, token, hrun, hrun₁, hrun₂, htoken, ?_, hagree 0⟩
  refine hreplayed 3 call answer token hidle (rotation_eq_some hrotation) (hraw ▸ htoken) hused ?_
  show call.checkedAt < token.expiresAt
  have hchecked : call.checkedAt = 20 := hchecked
  omega

/-- For a blank tenant only the store in memory issues a token. -/
theorem blank_tenant_disagrees :
    (RefreshDb.empty.answers sampleHash sampleUsers 0 [.issue { sampleIssue with tenantId := " " }]).map
        (List.map outcome) ≠
      some ((InMemoryStore.empty.answers sampleHash [.issue { sampleIssue with tenantId := " " }]).map outcome) := by
  decide +kernel

end Sample

end Anoryx.Rendly
