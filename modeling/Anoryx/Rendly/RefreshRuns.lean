import Anoryx.Rendly.RefreshFamilies

/-!
# Anoryx.Rendly.RefreshRuns

Runs of the calls of the database store: any number of them at a time, cut off at any point.

A call that exchanges a token has its row locked from before it looks at the family to its
commit, so that nobody else can use up the same token; and a family that is revoked before
a call begins is seen to be revoked.  `Answered` says both, of the state in which a call
begins and the one in which it has its answer.
-/

namespace Anoryx.Rendly

open ReadCommitted RefreshState Table Function Logic

/-! ## states that follow each other -/

namespace RefreshState

/-- Rows stay, tokens are used up, families are revoked, successors are added. -/
structure Later (s s' : RefreshState) : Prop where
  tokens : ∀ h token, s.tokens h = some token → ∃ token', s'.tokens h = some token' ∧ token.Spends token'
  families : ∀ f family, s.families f = some family → ∃ family', s'.families f = some family' ∧ family.Revokes family'
  successors : ∀ h, s.successors h <+: s'.successors h

variable {s s' s'' : RefreshState} {h f : String}

theorem Later.trans (hs : s.Later s') (hs' : s'.Later s'') : s.Later s'' where
  tokens h token htoken := by
    obtain ⟨token', htoken', hspends⟩ := hs.tokens h token htoken
    obtain ⟨token'', htoken'', hspends'⟩ := hs'.tokens h token' htoken'
    exact ⟨token'', htoken'', IsTrans.trans _ _ _ hspends hspends'⟩
  families f family hfamily := by
    obtain ⟨family', hfamily', hrevokes⟩ := hs.families f family hfamily
    obtain ⟨family'', hfamily'', hrevokes'⟩ := hs'.families f family' hfamily'
    exact ⟨family'', hfamily'', IsTrans.trans _ _ _ hrevokes hrevokes'⟩
  successors h := (hs.successors h).trans (hs'.successors h)

theorem Later.revoked (hs : s.Later s') (hrevoked : s.Revoked f) : s'.Revoked f := by
  obtain ⟨family, hfamily, hrevoked⟩ := hrevoked
  obtain ⟨family', hfamily', rfl | rfl⟩ := hs.families f family hfamily
  · exact ⟨family', hfamily', hrevoked⟩
  · exact ⟨_, hfamily', rfl⟩

theorem Later.token (hs : s.Later s') {token token' : RefreshTokenRow} (htoken : s.tokens h = some token)
    (htoken' : s'.tokens h = some token') :
    token'.familyId = token.familyId ∧ token'.expiresAt = token.expiresAt ∧ (token.used = true → token'.used = true) := by
  obtain ⟨token'', htoken'', hspends⟩ := hs.tokens h token htoken
  obtain rfl := Option.some.inj (htoken'.symm.trans htoken'')
  rcases hspends with rfl | rfl
  · exact ⟨rfl, rfl, id⟩
  · exact ⟨rfl, rfl, fun _ => rfl⟩

theorem Later.tenant (hs : s.Later s') {token : RefreshTokenRow} (htoken : s.tokens h = some token) :
    ∃ token', s'.tokens h = some token' ∧ token'.tenantId = token.tenantId := by
  obtain ⟨token', htoken', rfl | rfl⟩ := hs.tokens h token htoken
  · exact ⟨token', htoken', rfl⟩
  · exact ⟨_, htoken', rfl⟩

theorem later_of_empty (s : RefreshState) : RefreshDb.empty.state.Later s where
  tokens h token htoken := by contradiction
  families f family hfamily := by contradiction
  successors _ := List.nil_prefix

end RefreshState

/-! ## what a call answers -/

section Answers

variable (hashToken : String → String) (t : Txn) (s₀ : RefreshState)

/-- What the answer of a rotation says, if it began at `s₀`: where there is a successor, its
family was not revoked, and the replay of a token revokes its family. -/
structure Rotated (call : RotateCall) (answer : RefreshAnswer) (s : RefreshState) : Prop where
  minted : ∀ result, answer = .rotated result → ∃ token successorHash,
    s.tokens (hashToken call.rawToken) = some token ∧ ¬s₀.Revoked token.familyId ∧
      (t, successorHash) ∈ s.successors (hashToken call.rawToken)
  replayed : ∀ token, s₀.tokens (hashToken call.rawToken) = some token → token.used = true →
    call.checkedAt < token.expiresAt → s.Revoked token.familyId

def Answered (call : RefreshCall) (answer : RefreshAnswer) (s : RefreshState) : Prop :=
  match call with
  | .issue _ => True
  | .rotate call => Rotated hashToken t s₀ call answer s
  | .revoke rawToken => ∀ token, s₀.tokens (hashToken rawToken) = some token → s.Revoked token.familyId

variable {hashToken t s₀} {s s' : RefreshState}

theorem Rotated.later {call : RotateCall} {answer : RefreshAnswer} (h : Rotated hashToken t s₀ call answer s)
    (hs : s.Later s') : Rotated hashToken t s₀ call answer s' where
  minted result hresult := by
    obtain ⟨token, successorHash, htoken, hfamily, hmem⟩ := h.minted result hresult
    obtain ⟨token', htoken', -⟩ := hs.tokens _ token htoken
    refine ⟨token', successorHash, htoken', ?_, (hs.successors _).subset hmem⟩
    rw [(hs.token htoken htoken').1]
    exact hfamily
  replayed token htoken hused hbefore := hs.revoked (h.replayed token htoken hused hbefore)

theorem Answered.later {call : RefreshCall} {answer : RefreshAnswer} (h : Answered hashToken t s₀ call answer s)
    (hs : s.Later s') : Answered hashToken t s₀ call answer s' := by
  cases call with
  | issue call => trivial
  | rotate call => exact Rotated.later h hs
  | revoke rawToken => exact fun token htoken => hs.revoked (h token htoken)

end Answers

/-! ## the invariant -/

/-- Between any two statements. -/
structure RefreshInv (d : RefreshDb) : Prop where
  families : d.families.Evolves RefreshTokenFamilyRow.Revokes
  tokens : d.tokens.Evolves RefreshTokenRow.Spends
  valid : d.state.Valid

/-- What a call may rely on while others move. -/
structure RefreshRely (u : Txn) (d d' : RefreshDb) : Prop where
  families : d.families.Follows RefreshTokenFamilyRow.Revokes u d'.families
  tokens : d.tokens.Follows RefreshTokenRow.Spends u d'.tokens
  successors : ∀ h, d.successors h <+: d'.successors h

/-- A statement of `t` that keeps the invariant, and what the others rely on. -/
def KeepsRefresh (t : Txn) (d d' : RefreshDb) : Prop :=
  RefreshInv d' ∧ ∀ u, u ≠ t → RefreshRely u d d'

/-- What `t` has in flight. -/
structure Wrote (t : Txn) (families : String → Option RefreshTokenFamilyRow)
    (tokens : String → Option RefreshTokenRow) (d : RefreshDb) : Prop where
  families : d.families.version t = families
  tokens : d.tokens.version t = tokens

/-- `t` has nothing in flight. -/
abbrev Idle (t : Txn) (d : RefreshDb) : Prop := Wrote t (fun _ => none) (fun _ => none) d

/-- `t` has the row of a token locked, and nothing else. -/
structure Locked (t : Txn) (tokenHash : String) (token : RefreshTokenRow) (d : RefreshDb) : Prop where
  wrote : Wrote t (fun _ => none) (update (fun _ => none) tokenHash (some token)) d
  committed : d.tokens.committed tokenHash = some token

variable {hashToken : String → String} {users : String → String → Bool} {d d' d'' : RefreshDb} {t u : Txn}
  {tenantId tokenHash familyId : String} {token : RefreshTokenRow} {family : RefreshTokenFamilyRow}
  {families : String → Option RefreshTokenFamilyRow} {tokens : String → Option RefreshTokenRow} {s₀ : RefreshState}

theorem RefreshRely.refl (u : Txn) (d : RefreshDb) : RefreshRely u d d :=
  ⟨.refl u _, .refl u _, fun _ => List.prefix_rfl⟩

theorem RefreshRely.trans (h : RefreshRely u d d') (h' : RefreshRely u d' d'') : RefreshRely u d d'' :=
  ⟨h.families.trans h'.families, h.tokens.trans h'.tokens, fun k => (h.successors k).trans (h'.successors k)⟩

theorem RefreshRely.later (h : RefreshRely u d d') : d.state.Later d'.state :=
  ⟨h.tokens.moves, h.families.moves, h.successors⟩

theorem KeepsRefresh.later (h : KeepsRefresh t d d') : d.state.Later d'.state :=
  (h.2 (t + 1) (Nat.succ_ne_self t)).later

theorem Wrote.rely (h : Wrote t families tokens d) (hr : RefreshRely t d d') : Wrote t families tokens d' :=
  ⟨hr.families.frame.version_eq.trans h.families, hr.tokens.frame.version_eq.trans h.tokens⟩

theorem Wrote.token_held (h : Wrote t families tokens d) (hr : RefreshRely t d d') (hin : tokens tokenHash = some token) :
    d'.tokens.committed tokenHash = d.tokens.committed tokenHash :=
  hr.tokens.held tokenHash token (version_eq_some.mp ((congrFun h.tokens tokenHash).trans hin))

theorem Wrote.family_held (h : Wrote t families tokens d) (hr : RefreshRely t d d')
    (hin : families familyId = some family) : d'.families.committed familyId = d.families.committed familyId :=
  hr.families.held familyId family (version_eq_some.mp ((congrFun h.families familyId).trans hin))

theorem Locked.rely (h : Locked t tokenHash token d) (hr : RefreshRely t d d') : Locked t tokenHash token d' :=
  ⟨h.wrote.rely hr, (h.wrote.token_held hr (update_self ..)).trans h.committed⟩

theorem Locked.visible (h : Locked t tokenHash token d) : d.tokens.visible t tokenHash = some token := by
  refine visible_of_inflight (version_eq_some.mp ?_)
  rw [h.wrote.tokens, update_self]

variable {k successorHash message h rawToken : String} {v successor : RefreshTokenRow}
  {table : Table String RefreshTokenFamilyRow} {r : Option RefreshTokenRow}

theorem Locked.only (h : Locked t tokenHash token d)
    (hv : update (fun _ => none) tokenHash (some token) k = some v) : d.tokens.committed k = some v := by
  by_cases hk : k = tokenHash
  · subst hk
    rw [update_self] at hv
    exact h.committed.trans hv
  · rw [update_of_ne hk] at hv
    contradiction

theorem Wrote.families_visible (h : Wrote t (fun _ => none) tokens d) (f : String) :
    d.families.visible t f = d.families.committed f := (unheld_of_version h.families).visible f

theorem Wrote.tokens_visible (h : Wrote t families (fun _ => none) d) (f : String) :
    d.tokens.visible t f = d.tokens.committed f := (unheld_of_version h.tokens).visible f

/-! ## what the statements keep -/

theorem state_of_tokens {table : Table String RefreshTokenRow} (hsame : table.committed = d.tokens.committed) :
    ({ d with tokens := table } : RefreshDb).state = d.state := by
  show RefreshState.mk d.families.committed table.committed d.successors = _
  rw [hsame]
  rfl

theorem RefreshInv.of_tokens {table : Table String RefreshTokenRow} (h : RefreshInv d)
    (htable : table.Evolves RefreshTokenRow.Spends ∧ ∀ u, u ≠ t → d.tokens.Follows RefreshTokenRow.Spends u table)
    (hsame : table.committed = d.tokens.committed) : KeepsRefresh t d { d with tokens := table } := by
  refine ⟨⟨h.families, htable.1, ?_⟩, fun u hu => ⟨.refl u _, htable.2 u hu, fun _ => List.prefix_rfl⟩⟩
  exact (state_of_tokens hsame).symm ▸ h.valid

theorem state_of_families (hsame : table.committed = d.families.committed) :
    ({ d with families := table } : RefreshDb).state = d.state := by
  show RefreshState.mk table.committed d.tokens.committed d.successors = _
  rw [hsame]
  rfl

theorem RefreshInv.of_families (h : RefreshInv d) (htable : table.Evolves RefreshTokenFamilyRow.Revokes ∧
      ∀ u, u ≠ t → d.families.Follows RefreshTokenFamilyRow.Revokes u table)
    (hsame : table.committed = d.families.committed) : KeepsRefresh t d { d with families := table } := by
  refine ⟨⟨htable.1, h.tokens, ?_⟩, fun u hu => ⟨htable.2 u hu, .refl u _, fun _ => List.prefix_rfl⟩⟩
  exact (state_of_families hsame).symm ▸ h.valid

theorem RefreshInv.rollback (h : RefreshInv d) (t : Txn) : KeepsRefresh t d (Database.rollback t d) := by
  obtain ⟨hfamilies, hfollows⟩ := h.families.rollback t
  obtain ⟨htokens, hfollows'⟩ := h.tokens.rollback t
  exact ⟨⟨hfamilies, htokens, h.valid⟩, fun u hu => ⟨hfollows u hu, hfollows' u hu, fun _ => List.prefix_rfl⟩⟩

theorem idle_rollback (t : Txn) (d : RefreshDb) : Idle t (Database.rollback t d) :=
  ⟨(unheld_rollback d.families t).version_eq, (unheld_rollback d.tokens t).version_eq⟩

theorem idle_commit (t : Txn) (d : RefreshDb) : Idle t (Database.commit t d) :=
  ⟨(unheld_commit d.families t).version_eq, (unheld_commit d.tokens t).version_eq⟩

theorem RefreshInv.commit (h : RefreshInv d) (hvalid : (Database.commit t d).state.Valid) :
    KeepsRefresh t d (Database.commit t d) := by
  obtain ⟨hfamilies, hfollows⟩ := h.families.commit t
  obtain ⟨htokens, hfollows'⟩ := h.tokens.commit t
  exact ⟨⟨hfamilies, htokens, hvalid⟩, fun u hu => ⟨hfollows u hu, hfollows' u hu, fun _ => List.prefix_rfl⟩⟩

theorem state_commit_idle (h : Idle t d) : (Database.commit t d).state = d.state := by
  have hfamilies : (d.families.commit t).committed = d.families.committed :=
    funext (unheld_of_version h.families).committed_commit
  have htokens : (d.tokens.commit t).committed = d.tokens.committed :=
    funext (unheld_of_version h.tokens).committed_commit
  show RefreshState.mk (d.families.commit t).committed (d.tokens.commit t).committed d.successors = _
  rw [hfamilies, htokens]
  rfl

theorem state_commit_issue
    (h : Wrote t (update (fun _ => none) familyId (some family))
      (update (fun _ => none) tokenHash (some token)) d) :
    (Database.commit t d).state = d.state.issue familyId family tokenHash token := by
  show RefreshState.mk (d.families.commit t).committed (d.tokens.commit t).committed d.successors = _
  rw [committed_commit_one h.families, committed_commit_one h.tokens]
  rfl

theorem state_commit_revoke
    (h : Wrote t (update (fun _ => none) familyId (some { family with revoked := true })) tokens d)
    (htokens : ∀ k v, tokens k = some v → d.tokens.committed k = some v) :
    (Database.commit t d).state = d.state.revoke familyId family := by
  have hsame : (d.tokens.commit t).committed = d.tokens.committed := by
    funext k
    rw [committed_commit_eq, h.tokens]
    cases hk : tokens k with
    | none => rfl
    | some v => exact (htokens k v hk).symm
  show RefreshState.mk (d.families.commit t).committed (d.tokens.commit t).committed d.successors = _
  rw [committed_commit_one h.families, hsame]
  rfl

/-! ### one statement each -/

theorem RefreshInv.selectTokenForUpdate (h : RefreshInv d) (hidle : Idle t d)
    (hselect : Rendly.selectTokenForUpdate tenantId tokenHash t d = some (r, d')) :
    KeepsRefresh t d d' ∧ d'.state = d.state ∧
      (r = none → d' = d ∧ ∀ token, d.tokens.committed tokenHash = some token → token.tenantId ≠ tenantId) ∧
      ∀ token, r = some token → Locked t tokenHash token d' ∧ token.tenantId = tenantId := by
  obtain ⟨⟨r', table⟩, hupdate, he⟩ := Option.map_eq_some_iff.mp hselect
  obtain ⟨hr, rfl⟩ := Prod.mk.inj he
  obtain rfl : r' = r := hr
  have htable := h.tokens.updateWhere (fun _ _ => Std.Refl.refl _) hupdate
  have hsame : table.committed = d.tokens.committed := committed_updateWhere hupdate
  refine ⟨h.of_tokens htable hsame, state_of_tokens hsame, ?_⟩
  rcases updateWhere_cases hupdate with ⟨rfl, rfl, hno⟩ | ⟨v, hvisible, htenant, hfree, rfl, rfl⟩
  · refine ⟨fun _ => ⟨rfl, fun token htoken htenant => ?_⟩, fun token hsome => by contradiction⟩
    have hp := hno token ((hidle.tokens_visible tokenHash).trans htoken)
    exact of_decide_eq_false hp htenant
  · refine ⟨fun hnone => by contradiction, fun token hsome => ?_⟩
    obtain rfl : v = token := Option.some.inj hsome
    refine ⟨⟨⟨hidle.families, ?_⟩, ?_⟩, of_decide_eq_true htenant⟩
    · show (d.tokens.write t tokenHash v).version t = _
      rw [version_write, hidle.tokens]
    · show d.tokens.committed tokenHash = some v
      rw [← hidle.tokens_visible, hvisible]

theorem RefreshInv.updateRevoked (h : RefreshInv d) (hwrote : Wrote t (fun _ => none) tokens d)
    {r : Option RefreshTokenFamilyRow} (hfamily : d.families.committed familyId = some family)
    (htenant : family.tenantId = tenantId) (hupdate : Rendly.updateRevoked tenantId familyId t d = some (r, d')) :
    KeepsRefresh t d d' ∧ d'.state = d.state ∧
      Wrote t (update (fun _ => none) familyId (some { family with revoked := true })) tokens d' := by
  obtain ⟨⟨r', table⟩, hwhere, he⟩ := Option.map_eq_some_iff.mp hupdate
  obtain ⟨-, rfl⟩ := Prod.mk.inj he
  have htable := h.families.updateWhere (fun _ _ => .inr rfl) hwhere
  have hvisible := (hwrote.families_visible familyId).trans hfamily
  refine ⟨h.of_families htable (committed_updateWhere hwhere), ?_⟩
  rcases updateWhere_cases hwhere with ⟨-, -, hno⟩ | ⟨v, hv, -, -, -, rfl⟩
  · exact absurd htenant (of_decide_eq_false (hno family hvisible))
  · obtain rfl := Option.some.inj (hv.symm.trans hvisible)
    refine ⟨rfl, ⟨?_, hwrote.tokens⟩⟩
    show (d.families.write t familyId _).version t = _
    rw [version_write, hwrote.families]

theorem RefreshInv.updateUsed (h : RefreshInv d) (hlocked : Locked t tokenHash token d)
    (hupdate : Rendly.updateUsed token.tenantId tokenHash t d = some (r, d')) :
    KeepsRefresh t d d' ∧ d'.state = d.state ∧
      Wrote t (fun _ => none) (update (fun _ => none) tokenHash (some { token with used := true })) d' := by
  obtain ⟨⟨r', table⟩, hwhere, he⟩ := Option.map_eq_some_iff.mp hupdate
  obtain ⟨-, rfl⟩ := Prod.mk.inj he
  have htable := h.tokens.updateWhere (fun _ _ => .inr rfl) hwhere
  have hsame : table.committed = d.tokens.committed := committed_updateWhere hwhere
  refine ⟨h.of_tokens htable hsame, state_of_tokens hsame, ?_⟩
  rcases updateWhere_cases hwhere with ⟨-, -, hno⟩ | ⟨v, hv, -, -, -, rfl⟩
  · exact absurd rfl (of_decide_eq_false (hno token hlocked.visible))
  · obtain rfl := Option.some.inj (hv.symm.trans hlocked.visible)
    refine ⟨hlocked.wrote.families, ?_⟩
    show (d.tokens.write t tokenHash _).version t = _
    rw [version_write, hlocked.wrote.tokens, update_idem]

theorem RefreshInv.insertFamily (h : RefreshInv d) (hidle : Idle t d) {b : Bool}
    (hinsert : Rendly.insertFamily familyId family t d = some (b, d')) :
    KeepsRefresh t d d' ∧ d'.state = d.state ∧
      (b = true → Wrote t (update (fun _ => none) familyId (some family)) (fun _ => none) d' ∧
        d'.families.committed familyId = none) := by
  obtain ⟨⟨b', table⟩, hins, he⟩ := Option.map_eq_some_iff.mp hinsert
  obtain ⟨hb, rfl⟩ := Prod.mk.inj he
  obtain rfl : b' = b := hb
  have hsame : table.committed = d.families.committed := committed_insertOrIgnore hins
  refine ⟨h.of_families (h.families.insertOrIgnore hins) hsame, state_of_families hsame, fun htrue => ?_⟩
  rcases insertOrIgnore_cases hins with ⟨rfl, -, -⟩ | ⟨-, rfl, -, hnone⟩
  · contradiction
  · refine ⟨⟨?_, hidle.tokens⟩, hnone⟩
    show (d.families.write t familyId family).version t = _
    rw [version_write, hidle.families]

theorem RefreshInv.insertToken (h : RefreshInv d) (hwrote : Wrote t families tokens d) {b : Bool}
    (hinsert : Rendly.insertToken tokenHash token t d = some (b, d')) : KeepsRefresh t d d' ∧
      d'.state = d.state ∧ (b = true → Wrote t families (update tokens tokenHash (some token)) d' ∧
        d'.tokens.committed tokenHash = none) := by
  obtain ⟨⟨b', table⟩, hins, he⟩ := Option.map_eq_some_iff.mp hinsert
  obtain ⟨hb, rfl⟩ := Prod.mk.inj he
  obtain rfl : b' = b := hb
  have hsame : table.committed = d.tokens.committed := committed_insertOrIgnore hins
  refine ⟨h.of_tokens (h.tokens.insertOrIgnore hins) hsame, state_of_tokens hsame, fun htrue => ?_⟩
  rcases insertOrIgnore_cases hins with ⟨rfl, -, -⟩ | ⟨-, rfl, -, hnone⟩
  · contradiction
  · refine ⟨⟨hwrote.families, ?_⟩, hnone⟩
    show (d.tokens.write t tokenHash token).version t = _
    rw [version_write, hwrote.tokens]

theorem state_commitSuccessor
    (hwrote : Wrote t (fun _ => none) (update (update (fun _ => none) tokenHash
      (some { token with used := true })) successorHash (some successor)) d)
    (hcommit : Rendly.commitSuccessor tokenHash successorHash t d = some ((), d')) :
    d'.state = d.state.mint t tokenHash token successorHash successor := by
  cases hcommit
  have hfamilies : (d.families.commit t).committed = d.families.committed :=
    funext (unheld_of_version hwrote.families).committed_commit
  show RefreshState.mk (d.families.commit t).committed (d.tokens.commit t).committed _ = _
  rw [hfamilies, committed_commit_two hwrote.tokens]
  rfl

theorem RefreshInv.commitSuccessor (h : RefreshInv d) (hvalid : d'.state.Valid)
    (hcommit : Rendly.commitSuccessor tokenHash successorHash t d = some ((), d')) :
    KeepsRefresh t d d' ∧ Idle t d' := by
  cases hcommit
  obtain ⟨hfamilies, hfollows⟩ := h.families.commit t
  obtain ⟨htokens, hfollows'⟩ := h.tokens.commit t
  refine ⟨⟨⟨hfamilies, htokens, hvalid⟩, fun u hu => ⟨hfollows u hu, hfollows' u hu, fun k => ?_⟩⟩,
    (idle_commit t d).families, (idle_commit t d).tokens⟩
  show d.successors k <+: update d.successors tokenHash _ k
  rw [update_apply]
  split
  · next hk =>
      subst hk
      exact List.prefix_append _ _
  · exact List.prefix_rfl

/-! ## the specification -/

/-- The specification of the calls. -/
def refreshLogic (hashToken : String → String) : Logic RefreshDb RefreshCall RefreshAnswer where
  inv := RefreshInv
  rely := RefreshRely
  fresh := Idle
  post t call answer d := Idle t d ∧ Answered hashToken t RefreshDb.empty.state call answer d.state
  ensures t call answer d := Answered hashToken t RefreshDb.empty.state call answer d.state
  undone _ _ := True

/-- What a call has to end with, if it began at `s₀`. -/
abbrev RefreshPost (hashToken : String → String) (t : Txn) (s₀ : RefreshState) (call : RefreshCall)
    (answer : RefreshAnswer) (d : RefreshDb) : Prop :=
  Idle t d ∧ Answered hashToken t s₀ call answer d.state

theorem KeepsRefresh.logic (h : KeepsRefresh t d d') : (refreshLogic hashToken).Keeps t d d' := ⟨h.1, h.2⟩

variable {answer : RefreshAnswer} {call : RefreshCall}

theorem RefreshPost.rely (h : RefreshPost hashToken t s₀ call answer d)
    (hr : RefreshRely t d d') : RefreshPost hashToken t s₀ call answer d' :=
  ⟨h.1.rely hr, h.2.later hr.later⟩

theorem wp_refuse
    (hanswer : Answered hashToken t s₀ call answer d.state) :
    (refreshLogic hashToken).wp t (RefreshPost hashToken t s₀ call) (refuse answer) d := by
  refine wp_rollbackWork_bind fun d₁ h₁ hr₁ => ?_
  have hkeeps := h₁.rollback t
  refine ⟨hkeeps.logic, fun d₂ _ hr₂ => ?_⟩
  have hended : RefreshPost hashToken t s₀ call answer (Database.rollback t d₁) :=
    ⟨idle_rollback t d₁, hanswer.later (hr₁.later.trans hkeeps.later)⟩
  exact hended.rely hr₂

/-- A family is revoked for good. -/
theorem wp_revokeFamily (hwrote : Wrote t (fun _ => none) tokens d)
    (htokens : ∀ k v, tokens k = some v → d.tokens.committed k = some v)
    (hfamily : d.families.committed familyId = some family) (htenant : family.tenantId = tenantId)
    (hanswer : ∀ s, d.state.Later s → s.Revoked familyId → Answered hashToken t s₀ call answer s) :
    (refreshLogic hashToken).wp t (RefreshPost hashToken t s₀ call)
      (do let _ ← Prog.exec (updateRevoked tenantId familyId)
          Prog.commitWork
          pure answer : Prog RefreshDb StoreError RefreshAnswer) d := by
  refine wp_exec_bind fun d₁ h₁ hr₁ r d₂ hupdate _ => ?_
  obtain ⟨family₁, hfamily₁, hrevokes⟩ := hr₁.later.families familyId family hfamily
  have htenant₁ : family₁.tenantId = tenantId := by
    rcases hrevokes with rfl | rfl
    · exact htenant
    · exact htenant
  obtain ⟨hkeeps₂, hstate₂, hwrote₂⟩ := h₁.updateRevoked (hwrote.rely hr₁) hfamily₁ htenant₁ hupdate
  refine ⟨hkeeps₂.logic, wp_commitWork_bind fun d₃ h₃ hr₃ => ?_⟩
  have hfamily₃ : d₃.state.families familyId = some family₁ := by
    have hsame : d₂.state.families familyId = some family₁ := hstate₂ ▸ hfamily₁
    exact (hwrote₂.family_held hr₃ (update_self ..)).trans hsame
  have htokens₃ : ∀ k v, tokens k = some v → d₃.tokens.committed k = some v := by
    intro k v hv
    have hsame : d₂.state.tokens k = some v := hstate₂ ▸ (hwrote.token_held hr₁ hv).trans (htokens k v hv)
    exact (hwrote₂.token_held hr₃ hv).trans hsame
  have hstate := state_commit_revoke (hwrote₂.rely hr₃) htokens₃
  have hkeeps₄ : KeepsRefresh t d₃ (Database.commit t d₃) :=
    h₃.commit (hstate ▸ h₃.valid.revoke hfamily₃)
  refine ⟨hkeeps₄.logic, fun d₅ _ hr₅ => ?_⟩
  have hrevoked : (Database.commit t d₃).state.Revoked familyId := by
    rw [hstate]
    exact RefreshState.revoked_revoke
  have hlater : d.state.Later (Database.commit t d₃).state :=
    ((hr₁.later.trans hkeeps₂.later).trans hr₃.later).trans hkeeps₄.later
  have hended : RefreshPost hashToken t s₀ call answer (Database.commit t d₃) :=
    ⟨idle_commit t d₃, hanswer _ hlater hrevoked⟩
  exact hended.rely hr₅

/-! ## rotating -/

/-- A token is used once, and its successor minted. -/
theorem wp_mint {call : RotateCall} (hlocked : Locked t (hashToken call.rawToken) token d)
    (hlater : s₀.Later d.state) (hunused : token.used = false) (hfamily : ¬s₀.Revoked token.familyId) :
    (refreshLogic hashToken).wp t (RefreshPost hashToken t s₀ (.rotate call)) (mint hashToken call token) d := by
  refine wp_exec_bind fun d₁ h₁ hr₁ r d₂ hupdate _ => ?_
  obtain ⟨hkeeps₂, hstate₂, hwrote₂⟩ := h₁.updateUsed (hlocked.rely hr₁) hupdate
  have hcommitted₂ : d₂.state.tokens (hashToken call.rawToken) = some token := hstate₂ ▸ (hlocked.rely hr₁).committed
  refine ⟨hkeeps₂.logic, wp_ofExcept_bind fun expiresAt _ => wp_ofExcept_bind fun successorHash _ => ?_⟩
  split
  case isTrue => trivial
  case isFalse =>
    refine wp_inserting_bind fun d₃ h₃ hr₃ b d₄ hinsert _ => ?_
    obtain ⟨hkeeps₄, hstate₄, hinserted⟩ := h₃.insertToken (hwrote₂.rely hr₃) hinsert
    refine ⟨hkeeps₄.logic, fun hb => ?_⟩
    obtain ⟨hwrote₄, hnone₄⟩ := hinserted hb
    refine wp_exec_bind fun d₅ h₅ hr₅ _ d₆ hcommit _ => ?_
    have htoken₃ : d₃.tokens.committed (hashToken call.rawToken) = some token :=
      (hwrote₂.token_held hr₃ (update_self ..)).trans hcommitted₂
    have hne : hashToken call.rawToken ≠ successorHash := by
      rintro rfl
      have hsame : d₄.state.tokens (hashToken call.rawToken) = some token := hstate₄ ▸ htoken₃
      exact absurd (hnone₄.symm.trans hsame) (Option.some_ne_none token).symm
    have htoken₅ : d₅.state.tokens (hashToken call.rawToken) = some token := by
      have hsame : d₄.state.tokens (hashToken call.rawToken) = some token := hstate₄ ▸ htoken₃
      exact (hwrote₄.token_held hr₅ ((update_of_ne hne _ _).trans (update_self ..))).trans hsame
    have hnone₅ : d₅.state.tokens successorHash = none :=
      (hwrote₄.token_held hr₅ (update_self ..)).trans hnone₄
    have hstate₆ := state_commitSuccessor (hwrote₄.rely hr₅) hcommit
    obtain ⟨hkeeps₆, hidle₆⟩ := h₅.commitSuccessor (hstate₆ ▸ h₅.valid.mint htoken₅ hnone₅ hunused rfl rfl rfl) hcommit
    refine ⟨hkeeps₆.logic, fun d₇ _ hr₇ => ?_⟩
    have hrotated : Rotated hashToken t s₀ call (.rotated ⟨call.successor, token.userId, token.tenantId,
        token.scopes.toFinset, token.roles⟩) d₆.state := by
      refine ⟨fun result _ => ⟨{ token with used := true }, successorHash, ?_, hfamily, ?_⟩, fun token₀ htoken₀ hused => ?_⟩
      · rw [hstate₆]
        exact (update_of_ne hne _ _).trans (update_self ..)
      · rw [hstate₆]
        show (t, successorHash) ∈ update d₅.state.successors _ _ _
        rw [update_self]
        exact List.mem_append_right _ List.mem_cons_self
      · have hused' := (hlater.token htoken₀ hlocked.committed).2.2 hused
        rw [hunused] at hused'
        exact absurd hused' Bool.false_ne_true
    have hended : RefreshPost hashToken t s₀ (.rotate call) _ d₆ := ⟨hidle₆, hrotated⟩
    exact hended.rely hr₇

theorem rotated_of_invalid {call : RotateCall} {s : RefreshState}
    (hreplayed : ∀ token, s₀.tokens (hashToken call.rawToken) = some token → token.used = true →
      call.checkedAt < token.expiresAt → s.Revoked token.familyId) :
    Rotated hashToken t s₀ call (.invalid message) s :=
  ⟨fun result hresult => by contradiction, hreplayed⟩

theorem wp_rotateLocked {call : RotateCall} (h : RefreshInv d) (hlocked : Locked t (hashToken call.rawToken) token d)
    (hlater : s₀.Later d.state) :
    (refreshLogic hashToken).wp t (RefreshPost hashToken t s₀ (.rotate call))
      (rotateLocked hashToken call token (selectFamily token.tenantId token.familyId t d)) d := by
  obtain ⟨family, hfamily, htenant⟩ := h.valid.owned _ token hlocked.committed
  have hselect : selectFamily token.tenantId token.familyId t d = some family := by
    unfold selectFamily
    rw [hlocked.wrote.families_visible]
    exact Option.filter_eq_some_iff.mpr ⟨hfamily, decide_eq_true htenant⟩
  rw [hselect]
  simp only [rotateLocked]
  split
  case isTrue hrevoked =>
    refine wp_refuse (rotated_of_invalid fun token₀ htoken₀ _ _ => ?_)
    rw [← (hlater.token htoken₀ hlocked.committed).1]
    exact ⟨family, hfamily, hrevoked⟩
  case isFalse hrevoked =>
    split
    case isTrue hexpired =>
      refine wp_refuse (rotated_of_invalid fun token₀ htoken₀ _ hbefore => ?_)
      have hsame := (hlater.token htoken₀ hlocked.committed).2.1
      omega
    case isFalse =>
      split
      case isTrue hused =>
        refine wp_revokeFamily hlocked.wrote (fun k v hv => hlocked.only hv) hfamily htenant fun s hs hrevoked => ?_
        refine ⟨fun result hresult => by contradiction, fun token₀ htoken₀ _ _ => ?_⟩
        rw [← (hlater.token htoken₀ hlocked.committed).1]
        exact hrevoked
      case isFalse hunused =>
        refine wp_mint hlocked hlater (Bool.eq_false_iff.mpr hunused) fun hrevoked₀ => hrevoked ?_
        obtain ⟨family', hfamily', hrevoked'⟩ := hlater.revoked hrevoked₀
        rw [Option.some.inj (hfamily.symm.trans hfamily')]
        exact hrevoked'

theorem discoverTenant_eq_some {tenantId : String} (hidle : Idle t d) : discoverTenant h t d = some tenantId ↔
    ∃ token, d.tokens.committed h = some token ∧ token.tenantId = tenantId := by
  rw [discoverTenant, hidle.tokens_visible, Option.map_eq_some_iff]

theorem discoverTenant_ne_none (hidle : Idle t d) (hlater : s₀.Later d.state) (htoken : s₀.tokens h = some token) :
    discoverTenant h t d ≠ none := by
  obtain ⟨token', htoken', -⟩ := hlater.tokens h token htoken
  have hsome := (discoverTenant_eq_some hidle).mpr ⟨token', htoken', rfl⟩
  rw [hsome]
  exact Option.some_ne_none _

/-- A token is exchanged, or its family revoked for a reuse. -/
theorem wp_rotate {call : RotateCall} (hidle : Idle t d) (hlater : s₀.Later d.state) :
    (refreshLogic hashToken).wp t (RefreshPost hashToken t s₀ (.rotate call)) (rotate hashToken call) d := by
  refine wp_query_bind RefreshRely.refl fun d₁ h₁ hr₁ => ?_
  refine wp_rollbackWork_bind fun d₂ h₂ hr₂ => ?_
  have hkeeps₂ := h₂.rollback t
  refine ⟨hkeeps₂.logic, ?_⟩
  have hlater₁ := hlater.trans hr₁.later
  have hlater₂ := hlater₁.trans (hr₂.later.trans hkeeps₂.later)
  have hidle₂ := idle_rollback t d₂
  split
  case h_1 hnone =>
    -- there was no such token when the call began
    refine fun d₃ _ hr₃ => ⟨hidle₂.rely hr₃, rotated_of_invalid fun token₀ htoken₀ _ _ => ?_⟩
    exact absurd hnone (discoverTenant_ne_none (hidle.rely hr₁) hlater₁ htoken₀)
  case h_2 tenant tenantId hsome =>
    split
    case isTrue => trivial
    case isFalse =>
      refine wp_exec_bind fun d₃ h₃ hr₃ r d₄ hselect _ => ?_
      obtain ⟨hkeeps₄, -, hnone, hlocked⟩ := h₃.selectTokenForUpdate (hidle₂.rely hr₃) hselect
      refine ⟨hkeeps₄.logic, ?_⟩
      cases r with
      | none =>
          refine wp_refuse (rotated_of_invalid fun _ _ _ _ => ?_)
          -- the token that was found is still there, under its tenant
          obtain ⟨rfl, hother⟩ := hnone rfl
          obtain ⟨token₁, htoken₁, htenant⟩ := (discoverTenant_eq_some (hidle.rely hr₁)).mp hsome
          have hlater₃ := (hr₂.later.trans hkeeps₂.later).trans hr₃.later
          obtain ⟨token₃, htoken₃, htenant₃⟩ := hlater₃.tenant htoken₁
          exact absurd (htenant₃.trans htenant) (hother token₃ htoken₃)
      | some token =>
          obtain ⟨hlocked, htenant⟩ := hlocked token rfl
          refine wp_query_bind RefreshRely.refl fun d₅ h₅ hr₅ => ?_
          rw [← htenant]
          exact wp_rotateLocked h₅ (hlocked.rely hr₅) (((hlater₂.trans hr₃.later).trans hkeeps₄.later).trans hr₅.later)

/-! ## revoking and issuing -/

theorem wp_revoke (hidle : Idle t d) (hlater : s₀.Later d.state) :
    (refreshLogic hashToken).wp t (RefreshPost hashToken t s₀ (.revoke rawToken)) (revoke hashToken rawToken) d := by
  refine wp_query_bind RefreshRely.refl fun d₁ h₁ hr₁ => ?_
  refine wp_rollbackWork_bind fun d₂ h₂ hr₂ => ?_
  have hkeeps₂ := h₂.rollback t
  refine ⟨hkeeps₂.logic, ?_⟩
  have hlater₁ := hlater.trans hr₁.later
  have hidle₂ := idle_rollback t d₂
  split
  case h_1 hnone =>
    refine fun d₃ _ hr₃ => ⟨hidle₂.rely hr₃, fun token₀ htoken₀ => ?_⟩
    exact absurd hnone (discoverTenant_ne_none (hidle.rely hr₁) hlater₁ htoken₀)
  case h_2 tenant tenantId hsome =>
    split
    case isTrue => trivial
    case isFalse =>
      refine wp_query_bind RefreshRely.refl fun d₃ h₃ hr₃ => ?_
      have hlater₃ := (hr₂.later.trans hkeeps₂.later).trans hr₃.later
      have hidle₃ := hidle₂.rely hr₃
      -- the token that was found is still there
      obtain ⟨token₁, htoken₁, htenant⟩ := (discoverTenant_eq_some (hidle.rely hr₁)).mp hsome
      obtain ⟨token₃, htoken₃, hsame⟩ := hlater₃.tenant htoken₁
      have htenant₃ : token₃.tenantId = tenantId := hsame.trans htenant
      have hselect : selectFamilyId tenantId (hashToken rawToken) t d₃ = some token₃.familyId := by
        unfold selectFamilyId
        rw [hidle₃.tokens_visible]
        exact congrArg (Option.map _) (Option.filter_eq_some_iff.mpr ⟨htoken₃, decide_eq_true htenant₃⟩)
      rw [hselect]
      obtain ⟨family, hfamily, hof⟩ := h₃.valid.owned _ token₃ htoken₃
      refine wp_revokeFamily hidle₃ (fun k v hv => by contradiction) hfamily (hof.trans htenant₃) fun s hs hrevoked => ?_
      intro token₀ htoken₀
      rw [← ((hlater₁.trans hlater₃).token htoken₀ htoken₃).1]
      exact hrevoked

/-- A new family with its first token. -/
theorem wp_issue {call : IssueCall} (hidle : Idle t d) :
    (refreshLogic hashToken).wp t (RefreshPost hashToken t s₀ (.issue call)) (issue hashToken users call) d := by
  unfold issue
  split
  case isTrue => trivial
  case isFalse =>
    refine wp_ofExcept_bind fun familyId _ => wp_ofExcept_bind fun tenantId _ =>
      wp_ofExcept_bind fun userId _ => wp_inserting_bind fun d₁ h₁ hr₁ b d₂ hinsert _ => ?_
    obtain ⟨hkeeps₂, -, hfamily⟩ := h₁.insertFamily (hidle.rely hr₁) hinsert
    refine ⟨hkeeps₂.logic, fun hb => ?_⟩
    obtain ⟨hwrote₂, hnone₂⟩ := hfamily hb
    refine wp_ofExcept_bind fun expiresAt _ => wp_ofExcept_bind fun tokenHash _ =>
      wp_ofExcept_bind fun scopes _ => wp_ofExcept_bind fun roles _ =>
      wp_inserting_bind fun d₃ h₃ hr₃ b' d₄ hinsert' _ => ?_
    obtain ⟨hkeeps₄, hstate₄, hinserted⟩ := h₃.insertToken (hwrote₂.rely hr₃) hinsert'
    refine ⟨hkeeps₄.logic, fun hb' => ?_⟩
    obtain ⟨hwrote₄, hnone₄⟩ := hinserted hb'
    split
    case isFalse => trivial
    case isTrue =>
      refine wp_commitWork_bind fun d₅ h₅ hr₅ => ?_
      have hfamily₅ : d₅.state.families familyId = none := by
        have hnone₃ : d₃.state.families familyId = none :=
          (hwrote₂.family_held hr₃ (update_self ..)).trans hnone₂
        have hsame : d₄.state.families familyId = none := hstate₄ ▸ hnone₃
        exact (hwrote₄.family_held hr₅ (update_self ..)).trans hsame
      have htoken₅ : d₅.state.tokens tokenHash = none :=
        (hwrote₄.token_held hr₅ (update_self ..)).trans hnone₄
      have hkeeps₆ : KeepsRefresh t d₅ (Database.commit t d₅) := by
        refine h₅.commit ?_
        rw [state_commit_issue (hwrote₄.rely hr₅)]
        exact h₅.valid.issue hfamily₅ htoken₅ rfl rfl rfl
      exact ⟨hkeeps₆.logic, fun d₇ _ hr₇ => ⟨(idle_commit t d₅).rely hr₇, trivial⟩⟩

/-! ## runs -/

/-- **Each call**, from where it begins. -/
theorem wp_serve (call : RefreshCall) (hidle : Idle t d) (hlater : s₀.Later d.state) :
    (refreshLogic hashToken).wp t (RefreshPost hashToken t s₀ call) (serve hashToken users call) d := by
  cases call with
  | issue call => exact wp_issue hidle
  | rotate call => exact wp_rotate hidle hlater
  | revoke rawToken => exact wp_revoke hidle hlater

theorem refreshLogic_sound : (refreshLogic hashToken).Sound (serve hashToken users) where
  refl := RefreshRely.refl
  trans := RefreshRely.trans
  fresh_rely _ hr h := h.rely hr
  ensures_rely _ hr h := Answered.later h hr.later
  undone_rely _ _ h := h
  body {_ call _} _ _ hidle := wp_serve call hidle (later_of_empty _)
  commit {t _ _ d} h hpost := by
    have hstate := state_commit_idle hpost.1
    refine ⟨(h.commit (t := t) (hstate ▸ h.valid)).logic, ?_⟩
    show Answered hashToken t _ _ _ (Database.commit t d).state
    rw [hstate]
    exact hpost.2
  rollback h := ⟨(h.rollback _).logic, trivial⟩

theorem refresh_ok_start : (refreshLogic hashToken).Ok (Sys.start RefreshDb.empty : Sys RefreshDb StoreError _ _) where
  inv := ⟨evolves_empty, evolves_empty, RefreshState.valid_empty⟩
  procs _ := ⟨rfl, rfl⟩

variable {as : List (Action RefreshCall)} {s s' : Sys RefreshDb StoreError RefreshCall RefreshAnswer}

theorem refresh_ok_of_run (hrun : run (serve hashToken users) (Sys.start RefreshDb.empty) as = some s) :
    (refreshLogic hashToken).Ok s :=
  refreshLogic_sound.run refresh_ok_start (everyStep_permits (fun _ => trivial) (fun _ _ _ => trivial) as) hrun

/-- **What a call answers** that begins after `s`: of the state that was committed then. -/
theorem answered_of_run (hok : (refreshLogic hashToken).Ok s) (hrun : run (serve hashToken users) s as = some s')
    (hidle : s.procs t = .idle)
    (hanswer : s'.procs t = .committed call answer) : Answered hashToken t s.db.state call answer s'.db.state := by
  have hstable : (refreshLogic hashToken).Stable fun d => s.db.state.Later d.state :=
    fun u d d' _ hr hlater => hlater.trans hr.later
  have hlater : s.db.state.Later s.db.state := (RefreshRely.refl t s.db).later
  have hsound : ((refreshLogic hashToken).given fun d => s.db.state.Later d.state).Sound (serve hashToken users) :=
    refreshLogic_sound.given hstable
  have hsound' : (((refreshLogic hashToken).given fun d => s.db.state.Later d.state).alsoFrom t
      fun call answer d => Answered hashToken t s.db.state call answer d.state).Sound (serve hashToken users) := hsound.alsoFrom
    (fun call answer u d d' _ hr h => Answered.later h hr.later)
    (fun call d hinv hfresh => wp_mono (fun _ _ _ h => h.2)
      (wp_given hstable hinv.2 (wp_serve call hfresh hinv.2)))
  have hok' := hsound'.run ((hok.given hstable hlater).alsoFrom hidle)
    (everyStep_permits (fun _ => trivial) (fun _ _ _ => trivial) as) hrun
  have hproc := hok'.procs t
  rw [hanswer] at hproc
  exact hproc.2 rfl

end Anoryx.Rendly
