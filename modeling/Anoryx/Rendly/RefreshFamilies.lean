import Anoryx.ReadCommitted.Evolving
import Anoryx.Rendly.RefreshTokens

/-!
# Anoryx.Rendly.RefreshFamilies

What is committed of the refresh tokens, and the three ways in which it changes: a family
begins with its first token, a token is exchanged for its successor, a family is revoked.

`Valid` is what they keep: a family is a row of generations, and only the last of them may
be unused.
-/

namespace Anoryx.Rendly

open ReadCommitted Function

/-! ## rows -/

/-- A token is only ever marked as used. -/
def RefreshTokenRow.Spends (token token' : RefreshTokenRow) : Prop :=
  token' = token ∨ token' = { token with used := true }

/-- A family is only ever revoked. -/
def RefreshTokenFamilyRow.Revokes (family family' : RefreshTokenFamilyRow) : Prop :=
  family' = family ∨ family' = { family with revoked := true }

instance : Std.Refl RefreshTokenRow.Spends := ⟨fun _ => .inl rfl⟩

instance : Std.Refl RefreshTokenFamilyRow.Revokes := ⟨fun _ => .inl rfl⟩

instance : IsTrans RefreshTokenRow RefreshTokenRow.Spends where
  trans := by
    rintro token _ _ (rfl | rfl) (rfl | rfl)
    · exact .inl rfl
    · exact .inr rfl
    · exact .inr rfl
    · exact .inr rfl

instance : IsTrans RefreshTokenFamilyRow RefreshTokenFamilyRow.Revokes where
  trans := by
    rintro family _ _ (rfl | rfl) (rfl | rfl)
    · exact .inl rfl
    · exact .inr rfl
    · exact .inr rfl
    · exact .inr rfl

/-! ## the committed state -/

/-- What is committed. -/
structure RefreshState where
  families : String → Option RefreshTokenFamilyRow
  tokens : String → Option RefreshTokenRow
  successors : String → List (Txn × String)

def RefreshDb.state (d : RefreshDb) : RefreshState := ⟨d.families.committed, d.tokens.committed, d.successors⟩

namespace RefreshState

/-- A family begins with a token. -/
def issue (s : RefreshState) (familyId : String) (family : RefreshTokenFamilyRow) (tokenHash : String)
    (token : RefreshTokenRow) : RefreshState :=
  { s with
    families := update s.families familyId (some family)
    tokens := update s.tokens tokenHash (some token) }

/-- A token is exchanged for its successor. -/
def mint (s : RefreshState) (t : Txn) (tokenHash : String) (token : RefreshTokenRow) (successorHash : String)
    (successor : RefreshTokenRow) : RefreshState :=
  { s with
    tokens := update (update s.tokens tokenHash (some { token with used := true })) successorHash
      (some successor)
    successors := update s.successors tokenHash (s.successors tokenHash ++ [(t, successorHash)]) }

def revoke (s : RefreshState) (familyId : String) (family : RefreshTokenFamilyRow) : RefreshState :=
  { s with families := update s.families familyId (some { family with revoked := true }) }

def Has (s : RefreshState) (familyId : String) (generation : Nat) (tokenHash : String) : Prop :=
  ∃ token, s.tokens tokenHash = some token ∧ token.familyId = familyId ∧ token.generation = generation

def Revoked (s : RefreshState) (familyId : String) : Prop :=
  ∃ family, s.families familyId = some family ∧ family.revoked = true

/-- What holds of whatever is committed. -/
structure Valid (s : RefreshState) : Prop where
  once : ∀ f g h h', s.Has f g h → s.Has f g h' → h = h'
  consecutive : ∀ f, ∃ n, ∀ g, (∃ h, s.Has f g h) ↔ g < n
  last : ∀ h token, s.tokens h = some token → token.used = false → ∀ g h', s.Has token.familyId g h' → g ≤ token.generation
  owned : ∀ h token, s.tokens h = some token →
    ∃ family, s.families token.familyId = some family ∧ family.tenantId = token.tenantId
  unspent : ∀ h, (∀ token, s.tokens h = some token → token.used = false) → s.successors h = []
  single : ∀ h, (s.successors h).length ≤ 1
  succeeded : ∀ h p, p ∈ s.successors h → ∃ f g, s.Has f g h ∧ s.Has f (g + 1) p.2

variable {s : RefreshState} {t : Txn} {tokenHash successorHash familyId : String} {token successor : RefreshTokenRow}
  {family : RefreshTokenFamilyRow}

/-! ## a family begins -/

theorem has_issue (hnone : s.tokens tokenHash = none) {f h : String} {g : Nat} :
    (s.issue familyId family tokenHash token).Has f g h ↔
      s.Has f g h ∨ (h = tokenHash ∧ token.familyId = f ∧ token.generation = g) := by
  unfold Has issue
  by_cases hh : h = tokenHash
  · subst hh
    simp [hnone]
  · simp [hh]

theorem Valid.issue (hs : s.Valid) (hfamily : s.families familyId = none) (hnone : s.tokens tokenHash = none)
    (hgeneration : token.generation = 0) (hof : token.familyId = familyId) (htenant : family.tenantId = token.tenantId) :
    (s.issue familyId family tokenHash token).Valid := by
  have hold : ∀ g h, ¬s.Has familyId g h := by
    rintro g h ⟨token', htoken', hof', -⟩
    obtain ⟨family', hfamily', -⟩ := hs.owned h token' htoken'
    rw [hof', hfamily] at hfamily'
    contradiction
  have htokens : ∀ {h token'}, (s.issue familyId family tokenHash token).tokens h = some token' →
      (h = tokenHash ∧ token' = token) ∨ (h ≠ tokenHash ∧ s.tokens h = some token') := by
    intro h token' hin
    by_cases hh : h = tokenHash
    · subst hh
      refine .inl ⟨rfl, ?_⟩
      have hself : update s.tokens h (some token) h = some token' := hin
      rw [update_self] at hself
      exact (Option.some.inj hself).symm
    · exact .inr ⟨hh, (update_of_ne hh _ _).symm.trans hin⟩
  constructor
  case once =>
    intro f g h h' hhas hhas'
    rw [has_issue hnone] at hhas hhas'
    rcases hhas with hhas | ⟨rfl, hf, -⟩
    · rcases hhas' with hhas' | ⟨-, hf', -⟩
      · exact hs.once f g h h' hhas hhas'
      · rw [← hf', hof] at hhas
        exact absurd hhas (hold g h)
    · rcases hhas' with hhas' | ⟨rfl, -, -⟩
      · rw [← hf, hof] at hhas'
        exact absurd hhas' (hold g h')
      · rfl
  case consecutive =>
    intro f
    simp only [has_issue hnone]
    by_cases hf : f = familyId
    · subst hf
      refine ⟨1, fun g => ⟨?_, fun hg => ⟨tokenHash, .inr ⟨rfl, hof, ?_⟩⟩⟩⟩
      · rintro ⟨h, hhas | ⟨-, -, hg⟩⟩
        · exact absurd hhas (hold g h)
        · omega
      · omega
    · obtain ⟨n, hn⟩ := hs.consecutive f
      refine ⟨n, fun g => Iff.trans ⟨?_, ?_⟩ (hn g)⟩
      · rintro ⟨h, hhas | ⟨-, hf', -⟩⟩
        · exact ⟨h, hhas⟩
        · exact absurd (hf'.symm.trans hof) hf
      · rintro ⟨h, hhas⟩
        exact ⟨h, .inl hhas⟩
  case last =>
    intro h token' hin hused g h' hhas
    rw [has_issue hnone] at hhas
    rcases htokens hin with ⟨-, rfl⟩ | ⟨-, hin⟩
    · rcases hhas with hhas | ⟨-, -, hg⟩
      · rw [hof] at hhas
        exact absurd hhas (hold g h')
      · omega
    · rcases hhas with hhas | ⟨-, hf, hg⟩
      · exact hs.last h token' hin hused g h' hhas
      · exact absurd ⟨token', hin, hf.symm.trans hof, rfl⟩ (hold token'.generation h)
  case owned =>
    intro h token' hin
    rcases htokens hin with ⟨-, rfl⟩ | ⟨-, hin⟩
    · refine ⟨family, ?_, htenant⟩
      rw [hof]
      exact update_self ..
    · obtain ⟨family', hfamily', htenant'⟩ := hs.owned h token' hin
      refine ⟨family', ?_, htenant'⟩
      refine (update_of_ne (fun he => ?_) _ _).trans hfamily'
      rw [he, hfamily] at hfamily'
      contradiction
  case unspent =>
    intro h hunused
    refine hs.unspent h fun token' hin => hunused token' ?_
    refine (update_of_ne (fun he => ?_) _ _).trans hin
    rw [he, hnone] at hin
    contradiction
  case single => exact hs.single
  case succeeded =>
    intro h p hp
    obtain ⟨f, g, hhas, hnext⟩ := hs.succeeded h p hp
    exact ⟨f, g, (has_issue hnone).mpr (.inl hhas), (has_issue hnone).mpr (.inl hnext)⟩

/-! ## a token is exchanged -/

theorem has_mint (htoken : s.tokens tokenHash = some token) (hnone : s.tokens successorHash = none) {f h : String}
    {g : Nat} : (s.mint t tokenHash token successorHash successor).Has f g h ↔
      s.Has f g h ∨ (h = successorHash ∧ successor.familyId = f ∧ successor.generation = g) := by
  unfold Has mint
  by_cases hh : h = successorHash
  · subst hh
    simp [hnone]
  · by_cases hh' : h = tokenHash
    · subst hh'
      simp [hh, htoken]
    · simp [hh, hh']

/-- A successor takes the place of the token that was used. -/
theorem Valid.mint (hs : s.Valid) (htoken : s.tokens tokenHash = some token) (hnone : s.tokens successorHash = none)
    (hunused : token.used = false) (hof : successor.familyId = token.familyId)
    (hgeneration : successor.generation = token.generation + 1) (htenant : successor.tenantId = token.tenantId) :
    (s.mint t tokenHash token successorHash successor).Valid := by
  have hne : tokenHash ≠ successorHash := by
    rintro rfl
    exact absurd (hnone.symm.trans htoken) (Option.some_ne_none token).symm
  -- of what is there, the token is the last
  have hlast : ∀ g h, s.Has token.familyId g h → g ≤ token.generation := hs.last tokenHash token htoken hunused
  have htokens : ∀ {h token'}, (s.mint t tokenHash token successorHash successor).tokens h = some token' →
      (h = successorHash ∧ token' = successor) ∨ (h = tokenHash ∧ token' = { token with used := true }) ∨
        (h ≠ tokenHash ∧ s.tokens h = some token') := by
    intro h token' hin
    have hin : update (update s.tokens tokenHash (some { token with used := true })) successorHash
      (some successor) h = some token' := hin
    grind [update_apply]
  have hhas_mint : ∀ {f g h}, (s.mint t tokenHash token successorHash successor).Has f g h ↔
      s.Has f g h ∨ (h = successorHash ∧ successor.familyId = f ∧ successor.generation = g) :=
    has_mint htoken hnone
  have hself : s.Has token.familyId token.generation tokenHash := ⟨token, htoken, rfl, rfl⟩
  constructor
  case once =>
    intro f g h h' hhas hhas'
    rw [hhas_mint] at hhas hhas'
    rcases hhas with hhas | ⟨rfl, rfl, rfl⟩
    · rcases hhas' with hhas' | ⟨-, rfl, rfl⟩
      · exact hs.once f g h h' hhas hhas'
      · have hle := hlast _ h (hof ▸ hhas)
        omega
    · rcases hhas' with hhas' | ⟨rfl, -, -⟩
      · have hle := hlast _ h' (hof ▸ hhas')
        omega
      · rfl
  case consecutive =>
    intro f
    simp only [hhas_mint]
    obtain ⟨n, hn⟩ := hs.consecutive f
    by_cases hf : f = token.familyId
    · subst hf
      -- the token is the last of its family
      have hn' : n = token.generation + 1 := by
        have hlt : token.generation < n := (hn _).mp ⟨tokenHash, hself⟩
        by_contra hne
        obtain ⟨h, hhas⟩ := (hn (token.generation + 1)).mpr (by omega)
        have hle := hlast _ h hhas
        omega
      refine ⟨n + 1, fun g => ⟨?_, fun hg => ?_⟩⟩
      · rintro ⟨h, hhas | ⟨-, -, rfl⟩⟩
        · have hlt := (hn g).mp ⟨h, hhas⟩
          omega
        · omega
      · by_cases hg' : g < n
        · obtain ⟨h, hhas⟩ := (hn g).mpr hg'
          exact ⟨h, .inl hhas⟩
        · exact ⟨successorHash, .inr ⟨rfl, hof, by omega⟩⟩
    · refine ⟨n, fun g => Iff.trans ⟨?_, ?_⟩ (hn g)⟩
      · rintro ⟨h, hhas | ⟨-, hf', -⟩⟩
        · exact ⟨h, hhas⟩
        · exact absurd (hf'.symm.trans hof) hf
      · rintro ⟨h, hhas⟩
        exact ⟨h, .inl hhas⟩
  case last =>
    intro h token' hin hused g h' hhas
    rw [hhas_mint] at hhas
    rcases htokens hin with ⟨-, rfl⟩ | ⟨-, rfl⟩ | ⟨hh, hin⟩
    · rcases hhas with hhas | ⟨-, -, hg⟩
      · have hle := hlast g h' (hof ▸ hhas)
        omega
      · omega
    · contradiction
    · rcases hhas with hhas | ⟨-, hf, -⟩
      · exact hs.last h token' hin hused g h' hhas
      · -- there are no two that are unused
        have hf : token.familyId = token'.familyId := hof.symm.trans hf
        have hle := hlast token'.generation h ⟨token', hin, hf.symm, rfl⟩
        have hge := hs.last h token' hin hused token.generation tokenHash ⟨token, htoken, hf, rfl⟩
        have hsame : token'.generation = token.generation := Nat.le_antisymm hle hge
        exact absurd (hs.once token.familyId token.generation h tokenHash ⟨token', hin, hf.symm, hsame⟩ hself) hh
  case owned =>
    intro h token' hin
    rcases htokens hin with ⟨-, rfl⟩ | ⟨-, rfl⟩ | ⟨-, hin⟩
    · rw [hof, htenant]
      exact hs.owned tokenHash token htoken
    · exact hs.owned tokenHash token htoken
    · exact hs.owned h token' hin
  case unspent =>
    intro h hunused'
    have hh : h ≠ tokenHash := by
      rintro rfl
      have hin : (s.mint t h token successorHash successor).tokens h = some { token with used := true } :=
        (update_of_ne hne _ _).trans (update_self ..)
      exact absurd (hunused' _ hin).symm Bool.false_ne_true
    refine (update_of_ne hh _ _).trans (hs.unspent h fun token' hin => hunused' token' ?_)
    have hh' : h ≠ successorHash := by
      rintro rfl
      rw [hnone] at hin
      contradiction
    exact (update_of_ne hh' _ _).trans ((update_of_ne hh _ _).trans hin)
  case single =>
    intro h
    have hempty : s.successors tokenHash = [] := by
      refine hs.unspent tokenHash fun token' hin => ?_
      rw [← Option.some.inj (htoken.symm.trans hin)]
      exact hunused
    show (update s.successors tokenHash (s.successors tokenHash ++ [(t, successorHash)]) h).length ≤ 1
    rw [hempty, update_apply]
    split
    · exact Nat.le_refl 1
    · exact hs.single h
  case succeeded =>
    intro h p hp
    have hp : p ∈ update s.successors tokenHash (s.successors tokenHash ++ [(t, successorHash)]) h := hp
    by_cases hh : h = tokenHash
    · subst hh
      rw [update_self, List.mem_append, List.mem_singleton] at hp
      rcases hp with hp | rfl
      · obtain ⟨f, g, hhas, hnext⟩ := hs.succeeded h p hp
        exact ⟨f, g, hhas_mint.mpr (.inl hhas), hhas_mint.mpr (.inl hnext)⟩
      · exact ⟨_, _, hhas_mint.mpr (.inl hself), hhas_mint.mpr (.inr ⟨rfl, hof, hgeneration⟩)⟩
    · rw [update_of_ne hh] at hp
      obtain ⟨f, g, hhas, hnext⟩ := hs.succeeded h p hp
      exact ⟨f, g, hhas_mint.mpr (.inl hhas), hhas_mint.mpr (.inl hnext)⟩

/-! ## a family is revoked -/

theorem revoked_revoke : (s.revoke familyId family).Revoked familyId :=
  ⟨{ family with revoked := true }, update_self .., rfl⟩

theorem Valid.revoke (hs : s.Valid) (hfamily : s.families familyId = some family) :
    (s.revoke familyId family).Valid := by
  refine ⟨hs.once, hs.consecutive, hs.last, fun h token htoken => ?_, hs.unspent, hs.single, hs.succeeded⟩
  obtain ⟨family', hfamily', htenant⟩ := hs.owned h token htoken
  by_cases hf : token.familyId = familyId
  · subst hf
    obtain rfl := Option.some.inj (hfamily'.symm.trans hfamily)
    exact ⟨{ family' with revoked := true }, update_self .., htenant⟩
  · exact ⟨family', (update_of_ne hf _ _).trans hfamily', htenant⟩

/-! ## what was never issued -/

theorem valid_empty : RefreshDb.empty.state.Valid where
  once := by
    rintro f g h h' ⟨token, htoken, -⟩
    contradiction
  consecutive f := by
    refine ⟨0, fun g => ⟨?_, fun hg => absurd hg (Nat.not_lt_zero g)⟩⟩
    rintro ⟨h, token, htoken, -⟩
    contradiction
  last h token htoken := by contradiction
  owned h token htoken := by contradiction
  unspent _ _ := rfl
  single _ := Nat.zero_le 1
  succeeded h p hp := absurd hp List.not_mem_nil

theorem Valid.unused_unique (hs : s.Valid) {h h' : String} {token token' : RefreshTokenRow}
    (htoken : s.tokens h = some token) (htoken' : s.tokens h' = some token') (hof : token.familyId = token'.familyId)
    (hunused : token.used = false) (hunused' : token'.used = false) : h = h' := by
  have hle : token'.generation ≤ token.generation :=
    hs.last h token htoken hunused _ h' ⟨token', htoken', hof.symm, rfl⟩
  have hge : token.generation ≤ token'.generation :=
    hs.last h' token' htoken' hunused' _ h ⟨token, htoken, hof, rfl⟩
  exact hs.once token.familyId token.generation h h' ⟨token, htoken, rfl, rfl⟩
    ⟨token', htoken', hof.symm, Nat.le_antisymm hle hge⟩

end RefreshState

end Anoryx.Rendly
