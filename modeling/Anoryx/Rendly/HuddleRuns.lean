import Anoryx.ReadCommitted.Exclusive
import Anoryx.Rendly.Huddles

/-!
# Anoryx.Rendly.HuddleRuns

What any run of the handlers does to the huddles.

A user is mapped to a huddle as long as it is registered and he is in it (`ManagerInv.index`).
A huddle with less than two users is about to be ended by somebody who has left it
(`Peopled`), and what becomes of a huddle is only ever an advance (`Advances`).
-/

namespace Anoryx.Rendly

open ReadCommitted Exclusive Function

variable {m m' : HuddleManager} {d d' d'' : HuddleDb} {t u : Txn} {key : HuddleKey} {huddle huddle' : Huddle}
  {ending ending' : Txn → Option HuddleKey}

/-! ## what is known of the manager -/

def HuddleState.rank : HuddleState → Nat
  | .ringing => 0
  | .accepted => 1
  | .active => 2
  | .declined => 3
  | .ended => 3
  | .busy => 4

/-- What becomes of a huddle: its users only leave, and its state only advances. -/
structure Huddle.Advances (huddle huddle' : Huddle) : Prop where
  roster : huddle'.roster = huddle.roster
  shrinks : huddle'.liveIds ⊆ huddle.liveIds
  rank : huddle.state.rank ≤ huddle'.state.rank
  terminal : huddle.state ∈ terminalStates → huddle'.state = huddle.state

/-- No huddle is forgotten, and each only advances. -/
def HuddleManager.Advances (m m' : HuddleManager) : Prop :=
  ∀ key huddle, m.objects key = some huddle → ∃ huddle', m'.objects key = some huddle' ∧ huddle.Advances huddle'

/-- The user is in a huddle that is registered. -/
def HuddleManager.Has (m : HuddleManager) (key : HuddleKey) (userId : String) : Prop :=
  m.registered key = true ∧ ∃ huddle, m.objects key = some huddle ∧ userId ∈ huddle.liveIds

/-- A huddle as it may be, live or not -/
structure Huddle.Sound (huddle : Huddle) : Prop where
  nodup : huddle.liveIds.Nodup
  subset : huddle.liveIds ⊆ huddle.roster
  notBusy : huddle.state ≠ .busy

structure ManagerInv (m : HuddleManager) : Prop where
  index : ∀ tenantId userId huddleId, m.byUser (tenantId, userId) = some huddleId ↔ m.Has (tenantId, huddleId) userId
  sound : ∀ key huddle, m.objects key = some huddle → huddle.Sound
  registered : ∀ key, m.registered key = true → ∃ huddle, m.objects key = some huddle ∧ huddle.state ∉ terminalStates

/-- A huddle with less than two users is about to be ended, and who is about to end one has left it so. -/
structure Peopled (m : HuddleManager) (ending : Txn → Option HuddleKey) : Prop where
  peopled : ∀ key huddle, m.registered key = true → m.objects key = some huddle →
    2 ≤ huddle.liveIds.length ∨ ∃ t, ending t = some key
  ending : ∀ t key, ending t = some key →
    ∃ huddle, m.objects key = some huddle ∧ huddle.liveIds.length ≤ 1 ∧ huddle.state ≠ .declined

theorem Huddle.Advances.refl (huddle : Huddle) : huddle.Advances huddle := ⟨rfl, List.Subset.refl _, le_rfl, fun _ => rfl⟩

theorem Huddle.Advances.trans {huddle'' : Huddle} (h : huddle.Advances huddle') (h' : huddle'.Advances huddle'') :
    huddle.Advances huddle'' where
  roster := h'.roster.trans h.roster
  shrinks _ hmem := h.shrinks (h'.shrinks hmem)
  rank := h.rank.trans h'.rank
  terminal hterminal := by
    have hsame := h.terminal hterminal
    exact (h'.terminal (hsame ▸ hterminal)).trans hsame

theorem HuddleManager.Advances.refl (m : HuddleManager) : m.Advances m := fun _ huddle h => ⟨huddle, h, Huddle.Advances.refl huddle⟩

theorem HuddleManager.Advances.trans {m'' : HuddleManager} (h : m.Advances m') (h' : m'.Advances m'') : m.Advances m'' := by
  intro key huddle hobject
  obtain ⟨huddle', hobject', hadvances⟩ := h key huddle hobject
  obtain ⟨huddle'', hobject'', hadvances'⟩ := h' key huddle' hobject'
  exact ⟨huddle'', hobject'', hadvances.trans hadvances'⟩

theorem advances_update (hobject : m.objects key = some huddle) (hadvances : huddle.Advances huddle')
    (hm' : m'.objects = update m.objects key (some huddle')) : m.Advances m' := by
  intro k h hk
  rw [hm']
  by_cases hkey : k = key
  · subst hkey
    obtain rfl : huddle = h := Option.some.inj (hobject.symm.trans hk)
    exact ⟨huddle', update_self .., hadvances⟩
  · exact ⟨h, (update_of_ne hkey _ _).trans hk, Huddle.Advances.refl h⟩

/-! ## the index -/

variable {userIds participantIds : List String} {callerId tenantId huddleId leaverId userId : String}
  {now endedAt : DateTime} {state : HuddleState} {leaving : Leaving} {call : HuddleInvite}

theorem index_unmap
    (hindex : ∀ tenantId userId huddleId, m.byUser (tenantId, userId) = some huddleId ↔ m.Has (tenantId, huddleId) userId)
    (hbyUser : m'.byUser = m.unmap key userIds) (hother : ∀ k, k ≠ key → ∀ userId, m'.Has k userId ↔ m.Has k userId)
    (hkey : ∀ userId, m'.Has key userId ↔ m.Has key userId ∧ userId ∉ userIds) :
    ∀ tenantId userId huddleId, m'.byUser (tenantId, userId) = some huddleId ↔ m'.Has (tenantId, huddleId) userId := by
  intro tenantId userId huddleId
  rw [hbyUser]
  show (if tenantId = key.1 ∧ userId ∈ userIds ∧ m.byUser (tenantId, userId) = some key.2 then none
    else m.byUser (tenantId, userId)) = some huddleId ↔ _
  split
  · next hcond =>
      obtain ⟨rfl, hmem, hmapped⟩ := hcond
      refine ⟨fun h => by contradiction, fun hhas => ?_⟩
      by_cases hk : (key.1, huddleId) = key
      · rw [hk] at hhas
        exact absurd hmem ((hkey userId).mp hhas).2
      · have hmapped' := (hindex _ _ _).mpr ((hother _ hk userId).mp hhas)
        exact absurd (congrArg (key.1, ·) (Option.some.inj (hmapped'.symm.trans hmapped))) hk
  · next hcond =>
      rw [hindex]
      by_cases hk : (tenantId, huddleId) = key
      · subst hk
        refine ⟨fun hhas => (hkey userId).mpr ⟨hhas, fun hmem => hcond ⟨rfl, hmem, (hindex _ _ _).mpr hhas⟩⟩, fun hhas => ?_⟩
        exact ((hkey userId).mp hhas).1
      · exact (hother _ hk userId).symm

theorem has_of_ne {huddle' : Option Huddle} {registered : HuddleKey → Bool}
    (hobjects : m'.objects = update m.objects key huddle') (hregistered : m'.registered = registered)
    (hsame : ∀ k, k ≠ key → registered k = m.registered k) {k : HuddleKey} (hk : k ≠ key) (userId : String) :
    m'.Has k userId ↔ m.Has k userId := by
  unfold HuddleManager.Has
  rw [hobjects, update_of_ne hk, hregistered, hsame k hk]

/-! ## what is done to the manager -/

/-- One huddle changes, and its people's entries with it. -/
theorem Peopled.update (h : Peopled m ending) (hobjects : m'.objects = update m.objects key (some huddle'))
    (hregistered : ∀ k, k ≠ key → m'.registered k = true → m.registered k = true)
    (hkept : ∀ k, k ≠ key → ∀ u, ending u = some k → ∃ u', ending' u' = some k)
    (hending : ∀ u k, ending' u = some k → ending u = some k ∨ k = key)
    (hpeopled : m'.registered key = true → 2 ≤ huddle'.liveIds.length ∨ ∃ u, ending' u = some key)
    (hlast : ∀ u, ending' u = some key → huddle'.liveIds.length ≤ 1 ∧ huddle'.state ≠ .declined) : Peopled m' ending' := by
  refine ⟨fun k huddle hk hhuddle => ?_, fun u k hu => ?_⟩
  · rw [hobjects] at hhuddle
    by_cases hkey : k = key
    · subst hkey
      rw [update_self] at hhuddle
      cases hhuddle
      exact hpeopled hk
    · rw [update_of_ne hkey] at hhuddle
      rcases h.peopled k huddle (hregistered k hkey hk) hhuddle with htwo | ⟨u, hu⟩
      · exact .inl htwo
      · exact .inr (hkept k hkey u hu)
  · rw [hobjects]
    by_cases hkey : k = key
    · subst hkey
      exact ⟨huddle', update_self .., hlast u hu⟩
    · obtain ⟨huddle, hold, hrest⟩ := h.ending u k ((hending u k hu).resolve_right hkey)
      exact ⟨huddle, (update_of_ne hkey _ _).trans hold, hrest⟩

theorem sound_update (h : ManagerInv m) (hobjects : m'.objects = update m.objects key (some huddle'))
    (hsound : huddle'.Sound) : ∀ k huddle, m'.objects k = some huddle → huddle.Sound := by
  intro k huddle hk
  rw [hobjects] at hk
  by_cases hkey : k = key
  · subst hkey
    rw [update_self] at hk
    cases hk
    exact hsound
  · rw [update_of_ne hkey] at hk
    exact h.sound k huddle hk

/-- **A huddle is started** between users who are in none. -/
theorem ManagerInv.start (h : ManagerInv m) (hnew : m.objects key = none)
    (hfree : ∀ userId ∈ callerId :: participantIds, m.byUser (key.1, userId) = none)
    (hnodup : (callerId :: participantIds).Nodup) : ManagerInv (m.start key callerId participantIds now) := by
  have hself : (m.start key callerId participantIds now).objects key =
      some ⟨callerId, callerId :: participantIds, callerId :: participantIds, .ringing, now⟩ := by
    show update m.objects key _ key = _
    rw [update_self, hnodup.dedup]
  have hother : ∀ k, k ≠ key → ∀ userId, (m.start key callerId participantIds now).Has k userId ↔ m.Has k userId := fun k hk =>
    has_of_ne rfl rfl (fun k hk => update_of_ne hk _ _) hk
  refine ⟨fun tenantId userId huddleId => ?_, ?_, fun k hk => ?_⟩
  · show (if tenantId = key.1 ∧ userId ∈ callerId :: participantIds then some key.2 else m.byUser (tenantId, userId)) =
      some huddleId ↔ _
    split
    · next hcond =>
        obtain ⟨rfl, hmem⟩ := hcond
        by_cases hk : (key.1, huddleId) = key
        · rw [hk]
          exact ⟨fun _ => ⟨update_self .., _, hself, hmem⟩, fun _ => congrArg some (congrArg Prod.snd hk).symm⟩
        · refine ⟨fun he => absurd (congrArg (key.1, ·) (Option.some.inj he)).symm hk, fun hhas => ?_⟩
          have hmapped := (h.index _ _ _).mpr ((hother _ hk userId).mp hhas)
          exact absurd ((hfree userId hmem).symm.trans hmapped).symm (Option.some_ne_none _)
    · next hcond =>
        rw [h.index]
        by_cases hk : (tenantId, huddleId) = key
        · subst hk
          refine ⟨fun hhas => ?_, fun hhas => ?_⟩
          · obtain ⟨-, huddle, hobject, -⟩ := hhas
            exact absurd (hnew.symm.trans hobject).symm (Option.some_ne_none huddle)
          · obtain ⟨-, huddle, hhuddle, hmem⟩ := hhas
            rw [hself] at hhuddle
            cases hhuddle
            exact absurd ⟨rfl, hmem⟩ hcond
        · exact (hother _ hk userId).symm
  · refine sound_update h rfl ⟨?_, ?_, by intro he; contradiction⟩
    · exact List.nodup_dedup _
    · exact List.Subset.refl _
  · by_cases hkey : k = key
    · subst hkey
      exact ⟨_, hself, show HuddleState.ringing ∉ terminalStates by decide⟩
    · have hk : update m.registered key true k = true := hk
      rw [update_of_ne hkey] at hk
      obtain ⟨huddle, hold, hstate⟩ := h.registered k hk
      exact ⟨huddle, (update_of_ne hkey _ _).trans hold, hstate⟩

/-- **A huddle gets to another state**, and is released when it is a terminal one. -/
theorem ManagerInv.transition (h : ManagerInv m) (hobject : m.objects key = some huddle) (hbusy : state ≠ .busy) :
    ManagerInv (m.transition key huddle state) := by
  have hsound := h.sound key huddle hobject
  have hself : (m.transition key huddle state).objects key = some { huddle with state := state } := update_self ..
  refine ⟨?_, sound_update h rfl ⟨hsound.nodup, hsound.subset, hbusy⟩, fun k hk => ?_⟩
  · by_cases hterminal : state ∈ terminalStates
    · have hregistered : (m.transition key huddle state).registered = update m.registered key false := if_pos hterminal
      refine index_unmap h.index (if_pos hterminal)
        (fun k hk => has_of_ne rfl hregistered (fun k hk => update_of_ne hk _ _) hk) fun userId => ?_
      refine ⟨fun hhas => ?_, fun hhas => ?_⟩
      · have hlive := hhas.1
        rw [hregistered, update_self] at hlive
        contradiction
      · obtain ⟨⟨-, huddle', hobject', hmem⟩, hnot⟩ := hhas
        obtain rfl : huddle' = huddle := Option.some.inj (hobject'.symm.trans hobject)
        exact absurd hmem hnot
    · have hregistered : (m.transition key huddle state).registered = m.registered := if_neg hterminal
      have hbyUser : (m.transition key huddle state).byUser = m.byUser := if_neg hterminal
      intro tenantId userId huddleId
      rw [hbyUser, h.index]
      by_cases hk : (tenantId, huddleId) = key
      · subst hk
        unfold HuddleManager.Has
        rw [hregistered, hself, hobject]
        simp
      · exact (has_of_ne rfl hregistered (fun _ _ => rfl) hk userId).symm
  · by_cases hkey : k = key
    · subst hkey
      by_cases hterminal : state ∈ terminalStates
      · have hregistered : (m.transition k huddle state).registered = update m.registered k false := if_pos hterminal
        rw [hregistered, update_self] at hk
        contradiction
      · exact ⟨_, hself, hterminal⟩
    · have hold : m.registered k = true := by
        have hk : (if state ∈ terminalStates then update m.registered key false else m.registered) k = true := hk
        split at hk
        · rwa [update_of_ne hkey] at hk
        · exact hk
      obtain ⟨huddle', hobject', hstate⟩ := h.registered k hold
      exact ⟨huddle', (update_of_ne hkey _ _).trans hobject', hstate⟩

/-- **A user leaves** a huddle. -/
theorem ManagerInv.removeParticipant (h : ManagerInv m) (hobject : m.objects key = some huddle) (userId : String) :
    ManagerInv (m.removeParticipant key huddle userId) := by
  have hsound := h.sound key huddle hobject
  have hself : (m.removeParticipant key huddle userId).objects key =
    some { huddle with liveIds := huddle.liveIds.filter fun user => user ≠ userId } := update_self ..
  have hobjects : (m.removeParticipant key huddle userId).objects = update m.objects key
    (some { huddle with liveIds := huddle.liveIds.filter fun user => user ≠ userId }) := rfl
  refine ⟨index_unmap h.index rfl (fun k hk => has_of_ne hobjects rfl (fun _ _ => rfl) hk) fun user => ?_,
    sound_update h rfl ⟨hsound.nodup.filter _, fun user hmem => hsound.subset (List.mem_filter.mp hmem).1, hsound.notBusy⟩,
    fun k hk => ?_⟩
  · unfold HuddleManager.Has
    rw [hself, hobject]
    simp only [Option.some.injEq, exists_eq_left', List.mem_filter, decide_eq_true_eq, List.mem_singleton, and_assoc]
    exact Iff.rfl
  · obtain ⟨huddle', hobject', hstate⟩ := h.registered k hk
    by_cases hkey : k = key
    · subst hkey
      obtain rfl : huddle' = huddle := Option.some.inj (hobject'.symm.trans hobject)
      exact ⟨_, hself, hstate⟩
    · exact ⟨huddle', (update_of_ne hkey _ _).trans hobject', hstate⟩

/-! ## the specification -/

/-- The records are only ever inserted, and a huddle is archived as often as it has one. -/
structure ArchiveInv (d : HuddleDb) : Prop where
  insertOnly : d.huddles.InsertOnly
  archivals : ∀ key, d.archivals key = if (d.huddles.committed key).isSome then 1 else 0

structure HuddleInv (d : HuddleDb) : Prop where
  manager : ManagerInv d.manager
  peopled : Peopled d.manager d.ending
  archive : ArchiveInv d

/-- The specification of the huddles.  Who is about to end one may not be cut off. -/
def huddleSpec : Exclusive HuddleDb HuddleRequest HuddleAnswer Unit where
  key _ := none
  inv := HuddleInv
  rely u _ d d' := d'.ending u = d.ending u
  rests _ _ := True
  fresh t d := d.ending t = none
  works _ _ _ := True
  post t _ _ d := d.ending t = none
  ended t d := d.ending t = none
  moves d d' := d.manager.Advances d'.manager
  breaks t _ d := d.ending t = none

theorem keeps_huddles (hinv : HuddleInv d') (hending : ∀ u, u ≠ t → d'.ending u = d.ending u)
    (hadvances : d.manager.Advances d'.manager) : huddleSpec.Keeps t none d d' :=
  ⟨hinv, fun u _ hu _ => hending u hu, fun _ _ _ => trivial, hadvances⟩

/-- A statement that leaves the manager alone -/
structure Archiving (d d' : HuddleDb) : Prop where
  manager : d'.manager = d.manager
  ending : d'.ending = d.ending
  archive : ArchiveInv d → ArchiveInv d'

theorem Archiving.keeps (h : Archiving d d') (hinv : HuddleInv d) : huddleSpec.Keeps t none d d' :=
  keeps_huddles ⟨h.manager ▸ hinv.manager, h.manager ▸ h.ending ▸ hinv.peopled, h.archive hinv.archive⟩
    (fun u _ => congrFun h.ending u) (h.manager ▸ HuddleManager.Advances.refl d.manager)

theorem ArchiveInv.manager (h : ArchiveInv d) (m : HuddleManager) (ending : Txn → Option HuddleKey) :
    ArchiveInv { d with manager := m, ending := ending } := ⟨h.insertOnly, h.archivals⟩

theorem archiving_refl (d : HuddleDb) : Archiving d d := ⟨rfl, rfl, id⟩

theorem archiving_commit (t : Txn) (d : HuddleDb) : Archiving d (Database.commit t d) := by
  refine ⟨rfl, rfl, fun h => ⟨h.insertOnly.commit t, fun key => ?_⟩⟩
  show (if (d.huddles.version t key).isSome then d.archivals key + 1 else d.archivals key) =
    if ((d.huddles.commit t).committed key).isSome then 1 else 0
  rw [Table.committed_commit_eq, h.archivals key]
  cases hversion : d.huddles.version t key with
  | none => rfl
  | some row =>
      rw [h.insertOnly key t row (Table.version_eq_some.mp hversion)]
      rfl

theorem archiving_rollback (t : Txn) (d : HuddleDb) : Archiving d (Database.rollback t d) :=
  ⟨rfl, rfl, fun h => ⟨h.insertOnly.rollback t, h.archivals⟩⟩

/-! ## the archive -/

section Programs

variable {sha256 : ByteArray → String} {req : HuddleRequest}

theorem wp_archiving {γ : Type} {p : HuddleProg γ} (hp : StepsOf t Archiving p) {k : Option HuddleKey}
    (h : d.ending t = k) : huddleSpec.wp t req (fun _ d' => d'.ending t = k) p d := by
  induction p generalizing d with
  | pure b => exact fun _ _ hr _ => Eq.trans hr h
  | raise e => exact nomatch e
  | stmt f k' ih =>
      intro d₁ h₁ hr₁ _ x d₂ hf _
      have harchiving := hp.1 d₁ x d₂ hf
      exact ⟨harchiving.keeps h₁, trivial, ih x (hp.2 x) ((congrFun harchiving.ending t).trans (Eq.trans hr₁ h))⟩

theorem archiving_query {γ : Type} (f : Txn → HuddleDb → γ) : StepsOf t Archiving (Prog.query f : HuddleProg γ) :=
  .query archiving_refl

theorem archiving_commitWork : StepsOf t Archiving (Prog.commitWork : HuddleProg Unit) := by
  refine .exec fun d x d' h => ?_
  cases h
  exact archiving_commit t d

theorem archiving_giveUp : StepsOf t Archiving giveUp := by
  refine StepsOf.bind (.exec fun d x d' h => ?_) fun _ => trivial
  cases h
  exact archiving_rollback t d

theorem archiving_chainState {chainState : Table String HuddleChainRow} :
    Archiving d { d with chainState := chainState } := ⟨rfl, rfl, fun h => ⟨h.insertOnly, h.archivals⟩⟩

theorem archiving_insertHuddleRow {row : HuddleRow} {b : Bool} (h : insertHuddleRow row t d = some (b, d')) : Archiving d d' := by
  obtain ⟨⟨b', huddles⟩, hins, he⟩ := Option.map_eq_some_iff.mp h
  cases he
  refine ⟨rfl, rfl, fun harchive => ⟨harchive.insertOnly.insertOrIgnore hins, fun key => ?_⟩⟩
  show d.archivals key = if (huddles.committed key).isSome then 1 else 0
  rw [Table.committed_insertOrIgnore hins]
  exact harchive.archivals key

theorem archiving_commitArchive (row : HuddleRow) (fate : ArchiveFate) :
    StepsOf t Archiving (commitArchive row fate) := by
  cases fate with
  | failsCommitting => exact archiving_giveUp
  | _ => exact archiving_commitWork.bind fun _ => trivial

theorem archiving_writeHuddleRow (row : HuddleRow) (fate : ArchiveFate) :
    StepsOf t Archiving (writeHuddleRow row fate) := by
  unfold writeHuddleRow
  split
  · exact archiving_giveUp
  refine StepsOf.bind (.exec fun _ _ _ => archiving_insertHuddleRow) fun inserted => ?_
  cases inserted with
  | false => exact archiving_giveUp
  | true =>
      refine StepsOf.bind (.exec fun d x d' h => ?_) fun _ => archiving_commitArchive row fate
      obtain ⟨p, -, he⟩ := Option.map_eq_some_iff.mp h
      cases he
      exact archiving_chainState

theorem archiving_archiveEndedHuddleBestEffort (key : HuddleKey) (huddle : Huddle) (endedAt : DateTime) (fate : ArchiveFate) :
    StepsOf t Archiving (archiveEndedHuddleBestEffort sha256 key huddle endedAt fate) := by
  unfold archiveEndedHuddleBestEffort
  split
  · trivial
  split
  · exact archiving_giveUp
  refine StepsOf.bind (.exec fun d x d' h => ?_) fun _ => ?_
  · obtain ⟨p, -, he⟩ := Option.map_eq_some_iff.mp h
    cases he
    exact archiving_chainState
  split
  · exact archiving_giveUp
  refine StepsOf.bind (.exec fun d x d' h => ?_) fun tip => ?_
  · obtain ⟨p, -, he⟩ := Option.map_eq_some_iff.mp h
    cases he
    exact archiving_chainState
  cases tip with
  | none => exact archiving_giveUp
  | some chain => exact archiving_writeHuddleRow _ fate

/-! ## leaving -/

/-- Who has left is about to end the huddle, or is done with it. -/
def LeftIn (tenantId : String) (t : Txn) (leaving : Leaving) (d : HuddleDb) : Prop :=
  d.ending t = match leaving with
    | .ends huddleId _ => some (tenantId, huddleId)
    | _ => none

theorem Huddle.Sound.rank_le (h : huddle.Sound) : huddle.state.rank ≤ 3 := by
  have hnotBusy := h.notBusy
  cases hcase : huddle.state <;> simp_all [HuddleState.rank]

/-- **Who leaves** a huddle that is registered keeps what is known of the huddles. -/
theorem keeps_leaveHuddle {decline : Bool} (hinv : HuddleInv d) (ht : d.ending t = none)
    (hobject : d.manager.objects (tenantId, huddleId) = some huddle)
    (hregistered : d.manager.registered (tenantId, huddleId) = true)
    (hdecline : decline = true → huddle.liveIds.length = 2)
    (h : leaveHuddle (tenantId, huddleId) huddle leaverId decline t d = (leaving, d')) :
    huddleSpec.Keeps t none d d' ∧ LeftIn tenantId t leaving d' := by
  have hsound := hinv.manager.sound _ _ hobject
  have hshrinks : (huddle.liveIds.filter fun user => user ≠ leaverId) ⊆ huddle.liveIds := fun user hmem =>
    (List.mem_filter.mp hmem).1
  have hlength : (huddle.liveIds.filter fun user => user ≠ leaverId).length ≤ huddle.liveIds.length := List.length_filter_le _ _
  have hremoved := hinv.manager.removeParticipant hobject leaverId
  have hstate : huddle.state ∉ terminalStates := by
    obtain ⟨huddle', hobject', hstate⟩ := hinv.manager.registered _ hregistered
    rwa [Option.some.inj (hobject'.symm.trans hobject)] at hstate
  -- nobody is about to end a huddle of two
  have hbusy : 2 ≤ huddle.liveIds.length → ∀ u, d.ending u ≠ some (tenantId, huddleId) := by
    intro htwo u hu
    obtain ⟨huddle', hobject', hone, -⟩ := hinv.peopled.ending u _ hu
    rw [Option.some.inj (hobject'.symm.trans hobject)] at hone
    omega
  have hadvances : huddle.Advances { huddle with liveIds := huddle.liveIds.filter fun user => user ≠ leaverId } :=
    ⟨rfl, hshrinks, le_rfl, fun _ => rfl⟩
  unfold leaveHuddle at h
  split at h
  · next htwo =>
      cases h
      refine ⟨keeps_huddles ⟨hremoved, ?_, hinv.archive.manager _ _⟩ (fun _ _ => rfl) (advances_update hobject hadvances rfl), ht⟩
      refine hinv.peopled.update rfl (fun _ _ h => h) (fun _ _ u hu => ⟨u, hu⟩) (fun _ _ hu => .inl hu) (fun _ => .inl htwo)
        fun u hu => absurd hu (hbusy ?_ u)
      omega
  · next htwo =>
      split at h
      · next hdeclines =>
          cases h
          have htwo' := hdecline hdeclines
          have hself : (d.manager.removeParticipant (tenantId, huddleId) huddle leaverId).objects (tenantId, huddleId) =
            some { huddle with liveIds := huddle.liveIds.filter fun user => user ≠ leaverId } := update_self ..
          have hobjects : ((d.manager.removeParticipant (tenantId, huddleId) huddle leaverId).transition (tenantId, huddleId)
              { huddle with liveIds := huddle.liveIds.filter fun user => user ≠ leaverId } .declined).objects =
              update d.manager.objects (tenantId, huddleId)
                (some { huddle with
                  liveIds := huddle.liveIds.filter fun user => user ≠ leaverId, state := .declined }) :=
            update_idem ..
          have hdeclined : huddle.Advances { huddle with
              liveIds := huddle.liveIds.filter fun user => user ≠ leaverId, state := .declined } :=
            ⟨rfl, hshrinks, hsound.rank_le, fun hterminal => absurd hterminal hstate⟩
          refine ⟨keeps_huddles ⟨hremoved.transition hself (by decide), ?_, hinv.archive.manager _ _⟩ (fun _ _ => rfl)
            (advances_update hobject hdeclined hobjects), ht⟩
          refine hinv.peopled.update hobjects (fun k hk hlive => ?_) (fun _ _ u hu => ⟨u, hu⟩) (fun _ _ hu => .inl hu)
            (fun hlive => ?_) fun u hu => absurd hu (hbusy (le_of_eq htwo'.symm) u)
          · exact (update_of_ne hk _ _).symm.trans hlive
          · exact absurd ((update_self ..).symm.trans hlive) Bool.false_ne_true
      · cases h
        refine ⟨keeps_huddles ⟨hremoved, ?_, hinv.archive.manager _ _⟩ (fun u hu => update_of_ne hu _ _)
          (advances_update hobject hadvances rfl), update_self ..⟩
        refine hinv.peopled.update rfl (fun _ _ h => h) (fun k _ u hu => ⟨u, ?_⟩) (fun u k hu => ?_)
          (fun _ => .inr ⟨t, update_self ..⟩) fun _ _ => ⟨Nat.le_of_not_lt htwo, fun he => hstate ?_⟩
        · have hne : u ≠ t := by
            rintro rfl
            exact absurd (ht.symm.trans hu).symm (Option.some_ne_none k)
          exact (update_of_ne hne _ _).trans hu
        · have hu : update d.ending t (some (tenantId, huddleId)) u = some k := hu
          by_cases hne : u = t
          · subst hne
            rw [update_self] at hu
            exact .inr (Option.some.inj hu).symm
          · rw [update_of_ne hne] at hu
            exact .inl hu
        · have he : huddle.state = .declined := he
          rw [he]
          decide

/-- **The end of a huddle** that somebody has left to end it -/
theorem keeps_endHuddle {x : Unit} (hinv : HuddleInv d) (ht : d.ending t = some key) (h : endHuddle key t d = some (x, d')) :
    huddleSpec.Keeps t none d d' ∧ d'.ending t = none := by
  obtain ⟨huddle, hobject, hone, hdeclined⟩ := hinv.peopled.ending t key ht
  unfold endHuddle at h
  rw [hobject] at h
  cases h
  have hended : huddle.Advances { huddle with state := .ended } := by
    refine ⟨rfl, List.Subset.refl _, (hinv.manager.sound key huddle hobject).rank_le, fun hterminal => ?_⟩
    show HuddleState.ended = huddle.state
    cases hcase : huddle.state <;> simp_all [terminalStates]
  refine ⟨keeps_huddles ⟨hinv.manager.transition hobject (by decide), ?_, hinv.archive.manager _ _⟩
    (fun u hu => update_of_ne hu _ _) (advances_update hobject hended rfl), update_self ..⟩
  · refine hinv.peopled.update rfl (fun k hk hlive => (update_of_ne hk _ _).symm.trans hlive) (fun k hk u hu => ⟨u, ?_⟩)
      (fun u k hu => ?_) (fun hlive => absurd ((update_self ..).symm.trans hlive) Bool.false_ne_true)
      fun _ _ => ⟨hone, by intro he; contradiction⟩
    · have hne : u ≠ t := by
        rintro rfl
        exact hk (Option.some.inj (hu.symm.trans ht))
      exact (update_of_ne hne _ _).trans hu
    · have hu : update d.ending t none u = some k := hu
      by_cases hne : u = t
      · subst hne
        rw [update_self] at hu
        contradiction
      · rw [update_of_ne hne] at hu
        exact .inl hu

theorem wp_finishLeaving {fate : ArchiveFate} (hinv : HuddleInv d) (h : LeftIn tenantId t leaving d) :
    huddleSpec.wp t req (fun _ d' => d'.ending t = none) (finishLeaving sha256 tenantId endedAt fate leaving) d := by
  cases leaving with
  | unavailable => exact fun _ _ hr _ => Eq.trans hr h
  | done huddleId state => exact fun _ _ hr _ => Eq.trans hr h
  | ends huddleId huddle =>
      refine wp_bind (fun _ => rfl) hinv trivial (wp_mono (fun archive d₁ h₁ _ ht₁ => ?_)
        (wp_archiving (archiving_archiveEndedHuddleBestEffort ..) h))
      refine wp_exec_bind fun d₂ h₂ hr₂ _ x d₃ hend => ?_
      obtain ⟨hkeeps, hdone⟩ := keeps_endHuddle h₂ (Eq.trans hr₂ ht₁) hend
      exact ⟨hkeeps, trivial, fun _ _ hr _ => Eq.trans hr hdone⟩

/-! ## the handlers -/

theorem Huddle.length_of_calleeId (h : some userId = huddle.calleeId) : huddle.liveIds.length = 2 := by
  unfold Huddle.calleeId at h
  split at h
  · next hcond => exact hcond.1
  · contradiction

theorem getParticipantHuddle_eq_some (h : getParticipantHuddle tenantId huddleId userId d = some huddle) :
    d.manager.registered (tenantId, huddleId) = true ∧ d.manager.objects (tenantId, huddleId) = some huddle := by
  obtain ⟨hget, -⟩ := Option.filter_eq_some_iff.mp h
  unfold HuddleManager.get at hget
  split at hget
  · next hregistered => exact ⟨hregistered, hget⟩
  · contradiction

theorem wp_openSocket {call : OpenSocket} (ht : d.ending t = none) :
    huddleSpec.wp t req (fun _ d' => d'.ending t = none) (serveHuddles sha256 (.openSocket call)) d := by
  have hopen : StepsOf t Archiving (Prog.exec (openConnection call) : HuddleProg Unit) := by
    refine .exec fun d x d' h => ?_
    unfold openConnection at h
    split at h
    · cases h
      exact ⟨rfl, rfl, fun h => ⟨h.insertOnly, h.archivals⟩⟩
    · contradiction
  exact wp_archiving (hopen.bind (k := fun _ => pure HuddleAnswer.registered) fun _ => trivial) ht

theorem HuddleInvite.free_of_refusal {frame : HuddleInviteFrame} (h : call.refusal frame d = none) :
    (call.userId :: frame.inviteeOrder).Nodup ∧
      ∀ userId ∈ call.userId :: frame.inviteeOrder, d.manager.byUser (call.tenantId, userId) = none := by
  unfold HuddleInvite.refusal at h
  split at h
  · contradiction
  next hdistinct =>
    rw [not_or, not_not] at hdistinct
    split at h
    · contradiction
    split at h
    · contradiction
    next hcaller =>
      refine ⟨List.nodup_cons.mpr hdistinct, fun userId hmem => ?_⟩
      rcases List.mem_cons.mp hmem with rfl | hmem
      · exact Option.not_isSome_iff_eq_none.mp hcaller
      · have hnone := List.find?_eq_none.mp (Option.map_eq_none_iff.mp h) userId hmem
        exact Option.not_isSome_iff_eq_none.mp hnone

/-- An invitation ends no huddle. -/
theorem wp_handleHuddleInvite (ht : d.ending t = none) :
    huddleSpec.wp t req (fun _ d' => d'.ending t = none) (handleHuddleInvite call) d := by
  unfold handleHuddleInvite
  split
  · exact fun _ _ hr _ => Eq.trans hr ht
  next frame _ =>
  split
  · exact fun _ _ hr _ => Eq.trans hr ht
  intro d₁ h₁ hr₁ _ answer d₂ hplace _
  have ht₁ := Eq.trans hr₁ ht
  unfold placeHuddle at hplace
  split at hplace
  · cases hplace
    exact ⟨(archiving_refl d₁).keeps h₁, trivial, fun _ _ hr _ => Eq.trans hr ht₁⟩
  next hrefusal =>
  split at hplace
  · next hnew =>
      cases hplace
      obtain ⟨hnodup, hfree⟩ := HuddleInvite.free_of_refusal hrefusal
      have hobjects : (d₁.manager.start (call.tenantId, call.huddleId) call.userId frame.inviteeOrder call.now).objects =
          update d₁.manager.objects (call.tenantId, call.huddleId)
            (some ⟨call.userId, call.userId :: frame.inviteeOrder, call.userId :: frame.inviteeOrder, .ringing, call.now⟩) := by
        unfold HuddleManager.start
        rw [hnodup.dedup]
      have hidle : ∀ u, d₁.ending u ≠ some (call.tenantId, call.huddleId) := by
        intro u hu
        obtain ⟨huddle, hobject, -⟩ := h₁.peopled.ending u _ hu
        exact absurd (hnew.symm.trans hobject).symm (Option.some_ne_none huddle)
      refine ⟨keeps_huddles ⟨h₁.manager.start hnew hfree hnodup, ?_, h₁.archive.manager _ d₁.ending⟩ (fun _ _ => rfl) ?_, trivial,
        fun _ _ hr _ => Eq.trans hr ht₁⟩
      · refine h₁.peopled.update hobjects (fun k hk hlive => (update_of_ne hk _ _).symm.trans hlive)
          (fun _ _ u hu => ⟨u, hu⟩) (fun _ _ hu => .inl hu) (fun _ => .inl ?_) fun u hu => absurd hu (hidle u)
        show 2 ≤ (frame.participantIds.getD []).length + 1 + 1
        omega
      · intro k huddle hk
        have hne : k ≠ (call.tenantId, call.huddleId) := by
          rintro rfl
          exact absurd (hnew.symm.trans hk).symm (Option.some_ne_none huddle)
        exact ⟨huddle, (update_of_ne hne _ _).trans hk, Huddle.Advances.refl huddle⟩
  · contradiction

theorem signalledState_eq_some (h : signalledState huddle userId = some state) :
    state ∉ terminalStates ∧ state ≠ .busy ∧ state ≠ .declined ∧ huddle.state ∉ terminalStates ∧
      huddle.state.rank ≤ state.rank := by
  unfold signalledState at h
  split at h
  · split at h
    · next hcond =>
        cases h
        rw [hcond.1]
        decide
    split at h
    · next hcond =>
        cases h
        rw [hcond.1]
        decide
    · contradiction
  split at h
  · next hcond =>
      cases h
      rw [hcond]
      decide
  · contradiction

theorem wp_handleSignalSend {call : SignalSend} (hinv : HuddleInv d) (ht : d.ending t = none) :
    huddleSpec.wp t req (fun _ d' => d'.ending t = none) (handleSignalSend call) d := by
  unfold handleSignalSend
  split
  · exact fun _ _ hr _ => Eq.trans hr ht
  next frame _ =>
  refine wp_bind (fun _ => rfl) hinv trivial (wp_mono (fun target d₁ h₁ _ ht₁ => ?_)
    (wp_archiving (archiving_query _) ht))
  cases target with
  | error answer => exact fun _ _ hr _ => Eq.trans hr ht₁
  | ok target =>
      refine wp_exec_bind fun d₂ h₂ hr₂ _ state d₃ hinfer => ?_
      have ht₂ := Eq.trans hr₂ ht₁
      have hanswer : ∀ {answer : HuddleAnswer} {d₄}, d₄.ending t = none →
          huddleSpec.wp t req (fun _ d' => d'.ending t = none) (pure answer : HuddleProg HuddleAnswer) d₄ :=
        fun ht₄ _ _ hr _ => Eq.trans hr ht₄
      unfold inferState at hinfer
      split at hinfer
      · cases hinfer
        exact ⟨(archiving_refl d₂).keeps h₂, trivial, hanswer ht₂⟩
      next huddle hobject =>
      split at hinfer
      · cases hinfer
        exact ⟨(archiving_refl d₂).keeps h₂, trivial, hanswer ht₂⟩
      next state' hstate =>
      cases hinfer
      obtain ⟨hterminal, hbusy, hdeclined, hlive, hrank⟩ := signalledState_eq_some hstate
      have hadvances : huddle.Advances { huddle with state := state' } :=
        ⟨rfl, List.Subset.refl _, hrank, fun h => absurd h hlive⟩
      have hregistered : (d₂.manager.transition (call.tenantId, frame.huddleId) huddle state').registered =
        d₂.manager.registered := if_neg hterminal
      refine ⟨keeps_huddles ⟨h₂.manager.transition hobject hbusy, ?_, h₂.archive.manager _ d₂.ending⟩ (fun _ _ => rfl)
        (advances_update hobject hadvances rfl), trivial, hanswer ht₂⟩
      refine h₂.peopled.update rfl (fun k _ h => hregistered ▸ h) (fun _ _ u hu => ⟨u, hu⟩) (fun _ _ hu => .inl hu)
        (fun h => h₂.peopled.peopled _ huddle (hregistered ▸ h) hobject) fun u hu => ⟨?_, hdeclined⟩
      obtain ⟨huddle', hobject', hone, -⟩ := h₂.peopled.ending u _ hu
      rwa [Option.some.inj (hobject'.symm.trans hobject)] at hone

theorem wp_handleHuddleHangup {call : HuddleHangup} (ht : d.ending t = none) :
    huddleSpec.wp t req (fun _ d' => d'.ending t = none) (handleHuddleHangup sha256 call) d := by
  unfold handleHuddleHangup
  split
  · exact fun _ _ hr _ => Eq.trans hr ht
  next huddleId _ =>
  refine wp_exec_bind fun d₁ h₁ hr₁ _ leaving d₂ hhangup => ?_
  have ht₁ := Eq.trans hr₁ ht
  unfold hangUp at hhangup
  split at hhangup
  · cases hhangup
    exact ⟨(archiving_refl d₁).keeps h₁, trivial, wp_finishLeaving h₁ ht₁⟩
  · next huddle hfound =>
      obtain ⟨hregistered, hobject⟩ := getParticipantHuddle_eq_some hfound
      obtain ⟨hkeeps, hleft⟩ := keeps_leaveHuddle h₁ ht₁ hobject hregistered
        (fun h => Huddle.length_of_calleeId (of_decide_eq_true h).2) (Option.some.inj hhangup)
      exact ⟨hkeeps, trivial, wp_finishLeaving hkeeps.inv hleft⟩

theorem wp_closeSocket {call : CloseSocket} (hinv : HuddleInv d) (ht : d.ending t = none) :
    huddleSpec.wp t req (fun _ d' => d'.ending t = none) (closeSocket sha256 call) d := by
  have hclose : StepsOf t Archiving (Prog.exec (closeConnection call) : HuddleProg Unit) := by
    refine .exec fun d x d' h => ?_
    unfold closeConnection at h
    split at h
    all_goals
      cases h
      exact ⟨rfl, rfl, fun h => ⟨h.insertOnly, h.archivals⟩⟩
  refine wp_bind (fun _ => rfl) hinv trivial (wp_mono (fun _ d₁ h₁ _ ht₁ => ?_) (wp_archiving hclose ht))
  refine wp_exec_bind fun d₂ h₂ hr₂ _ leaving d₃ hleave => ?_
  have ht₂ := Eq.trans hr₂ ht₁
  have hfinish : ∀ {d₄}, HuddleInv d₄ → LeftIn call.tenantId t leaving d₄ → huddleSpec.wp t req (fun _ d' => d'.ending t = none)
      (finishLeaving sha256 call.tenantId call.endedAt call.fate leaving >>= fun _ => pure HuddleAnswer.closed) d₄ := by
    intro d₄ h₄ hleft
    refine wp_bind (fun _ => rfl) h₄ trivial (wp_mono (fun _ d₅ _ _ ht₅ => ?_) (wp_finishLeaving h₄ hleft))
    exact fun _ _ hr _ => Eq.trans hr ht₅
  unfold leaveIfGone at hleave
  split at hleave
  · cases hleave
    exact ⟨(archiving_refl d₂).keeps h₂, trivial, hfinish h₂ ht₂⟩
  split at hleave
  · cases hleave
    exact ⟨(archiving_refl d₂).keeps h₂, trivial, hfinish h₂ ht₂⟩
  · next huddleId huddle hactive =>
      obtain ⟨huddleId', hmapped, hget⟩ := Option.bind_eq_some_iff.mp hactive
      obtain ⟨huddle', hget, he⟩ := Option.map_eq_some_iff.mp hget
      cases he
      obtain ⟨hregistered, -⟩ := (h₂.manager.index _ _ _).mp hmapped
      rw [HuddleManager.get, if_pos hregistered] at hget
      obtain ⟨hkeeps, hleft⟩ := keeps_leaveHuddle h₂ ht₂ hget hregistered (fun h => by contradiction) (Option.some.inj hleave)
      exact ⟨hkeeps, trivial, hfinish hkeeps.inv hleft⟩

end Programs

/-! ## runs -/

theorem huddleSpec_sound (sha256 : ByteArray → String) : huddleSpec.Sound (serveHuddles sha256) where
  refl _ _ _ := rfl
  trans h h' := Eq.trans h' h
  moves_refl d := HuddleManager.Advances.refl d.manager
  moves_trans h h' := HuddleManager.Advances.trans h h'
  fresh_rely _ hr h := Eq.trans hr h
  ended_rely _ hr h := Eq.trans hr h
  works_rely _ _ h := h
  body {t req d} hinv _ ht _ := by
    refine ⟨trivial, ?_⟩
    cases req with
    | openSocket call => exact wp_openSocket ht
    | invite call => exact wp_handleHuddleInvite ht
    | signal call => exact wp_handleSignalSend hinv ht
    | hangup call => exact wp_handleHuddleHangup ht
    | closeSocket call => exact wp_closeSocket hinv ht
  commit hinv _ ht _ _ := ⟨(archiving_commit _ _).keeps hinv, fun _ _ => trivial, ht⟩
  rollback hinv _ ht _ := ⟨(archiving_rollback _ _).keeps hinv, fun _ _ => trivial, ht⟩
  skips_rely _ _ h := h
  aside _ hskips _ := absurd hskips id
  leave _ hskips _ := absurd hskips id

/-- A process that has just started, over the records that there are -/
structure HuddleDb.AtStart (d : HuddleDb) : Prop where
  manager : d.manager = HuddleManager.empty
  ending : ∀ t, d.ending t = none
  archive : ArchiveInv d

theorem HuddleDb.AtStart.ok (h : d.AtStart) : huddleSpec.Ok (Sys.start d : HuddleSys) := by
  refine ok_start ⟨⟨fun tenantId userId huddleId => ?_, fun key huddle hk => ?_, fun key hk => ?_⟩,
    ⟨fun key huddle hk => ?_, fun t key ht => ?_⟩, h.archive⟩ h.ending fun _ => trivial
  · unfold HuddleManager.Has
    rw [h.manager]
    simp [HuddleManager.empty]
  · rw [h.manager] at hk
    contradiction
  · rw [h.manager] at hk
    contradiction
  · rw [h.manager] at hk
    contradiction
  · exact absurd ((h.ending t).symm.trans ht).symm (Option.some_ne_none key)

/-- Nobody is cut off who is about to end a huddle. -/
def Shielded (s : HuddleSys) (a : Action HuddleRequest) (_ : HuddleSys) : Prop := ∀ t, a = .abort t → s.db.ending t = none

section Runs

variable {sha256 : ByteArray → String} {d₀ : HuddleDb} {as bs : List (Action HuddleRequest)} {s s' : HuddleSys}

theorem huddleSpec_permits {s : HuddleSys} (h : EveryStep (serveHuddles sha256) Shielded s as) :
    EveryStep (serveHuddles sha256) huddleSpec.Permits s as := by
  refine everyStep_mono (fun s₁ a s₂ _ hshielded => ?_) h
  cases a with
  | begin t req => exact .inl ⟨fun _ _ _ h => absurd h.symm (Option.some_ne_none _), trivial⟩
  | exec t => exact trivial
  | commit t => exact ⟨fun _ _ _ => trivial, trivial⟩
  | abort t => exact ⟨fun _ _ _ => .inr (hshielded t rfl), trivial⟩

theorem ending_of_quiescent (h : huddleSpec.Ok s) (hquiet : s.quiescent) (t : Txn) : s.db.ending t = none := by
  obtain ⟨at', h⟩ := h
  have hok := h.procs t
  cases hproc : s.procs t with
  | running req p => exact absurd hproc (hquiet t req p)
  | idle =>
      rw [hproc] at hok
      exact hok.2
  | committed req b =>
      rw [hproc] at hok
      exact hok.2
  | aborted =>
      rw [hproc] at hok
      exact hok.2

/-- **The huddles in any run**: a user is mapped to a huddle as long as it is registered and he is in it, so he is in one at
most; its users are of its roster and only leave; its state only advances, and with a terminal one it is released; it is archived
once at most; and when no handler is running every registered huddle has two users or more. -/
theorem huddles_consistent (hstart : d₀.AtStart) (hrun : run (serveHuddles sha256) (Sys.start d₀) as = some s)
    (hrun' : run (serveHuddles sha256) s bs = some s')
    (hshielded : EveryStep (serveHuddles sha256) Shielded (Sys.start d₀) (as ++ bs)) :
    (∀ tenantId userId huddleId,
      s.db.manager.byUser (tenantId, userId) = some huddleId ↔ s.db.manager.Has (tenantId, huddleId) userId) ∧
    (∀ tenantId userId huddleId huddleId', s.db.manager.Has (tenantId, huddleId) userId →
      s.db.manager.Has (tenantId, huddleId') userId → huddleId = huddleId') ∧
    (∀ key huddle, s.db.manager.objects key = some huddle → huddle.liveIds.Nodup ∧ huddle.liveIds ⊆ huddle.roster) ∧
    s.db.manager.Advances s'.db.manager ∧
    (∀ key huddle, s.db.manager.objects key = some huddle → huddle.state ∈ terminalStates →
      s.db.manager.registered key = false) ∧
    (∀ key, s.db.archivals key ≤ 1) ∧
    (s.quiescent → ∀ key huddle, s.db.manager.registered key = true → s.db.manager.objects key = some huddle →
      2 ≤ huddle.liveIds.length) := by
  obtain ⟨hok, -, hmoves⟩ :=
    (huddleSpec_sound sha256).run_split hstart.ok (huddleSpec_permits hshielded) hrun hrun'
  have hinv : HuddleInv s.db := hok.inv
  refine ⟨hinv.manager.index, fun tenantId userId huddleId huddleId' h h' => ?_, fun key huddle hobject => ?_, hmoves,
    fun key huddle hobject hterminal => ?_, fun key => ?_, fun hquiet key huddle hregistered hobject => ?_⟩
  · have hmapped := (hinv.manager.index _ _ _).mpr h
    have hmapped' := (hinv.manager.index _ _ _).mpr h'
    exact Option.some.inj (hmapped.symm.trans hmapped')
  · have hsound := hinv.manager.sound key huddle hobject
    exact ⟨hsound.nodup, hsound.subset⟩
  · refine Bool.eq_false_iff.mpr fun hregistered => ?_
    obtain ⟨huddle', hobject', hstate⟩ := hinv.manager.registered key hregistered
    rw [Option.some.inj (hobject'.symm.trans hobject)] at hstate
    exact hstate hterminal
  · rw [hinv.archive.archivals key]
    split <;> omega
  · refine (hinv.peopled.peopled key huddle hregistered hobject).resolve_right ?_
    rintro ⟨t, ht⟩
    exact absurd ((ending_of_quiescent hok hquiet t).symm.trans ht).symm (Option.some_ne_none key)

theorem shielded_of_going {s : HuddleSys} (h : ∀ a ∈ as, ∀ t, a ≠ .abort t) : EveryStep (serveHuddles sha256) Shielded s as :=
  everyStep_of_mem fun a ha _ _ t he => absurd he (h a ha t)

end Runs

section Sample

def sampleStart : DateTime := .ofFields 2026 1 1 9 0 0 0 (Eq.refl true)

def huddleStatements (t : Txn) (n : Nat) : List (Action HuddleRequest) := List.replicate n (.exec t)

def sampleCall : List (Action HuddleRequest) :=
  [.begin 1 (.openSocket ⟨⟨"tenant-1", "user-1", []⟩⟩), .exec 1, .commit 1,
    .begin 2 (.openSocket ⟨⟨"tenant-1", "user-2", []⟩⟩), .exec 2, .commit 2,
    .begin 3 (.invite ⟨"tenant-1", "user-1", ["huddle:initiate"], some ⟨"user-2", none⟩, "huddle-1", sampleStart⟩), .exec 3,
    .commit 3, .begin 4 (.signal ⟨"tenant-1", "user-2", some ⟨"huddle-1", none⟩⟩), .exec 4, .exec 4, .commit 4]

def sampleHangups : List (Action HuddleRequest) :=
  [.begin 5 (.hangup ⟨"tenant-1", "user-1", some "huddle-1", sampleStart, .archives⟩),
    .begin 6 (.hangup ⟨"tenant-1", "user-2", some "huddle-1", sampleStart, .archives⟩), .exec 5, .exec 6] ++
    huddleStatements 5 6 ++ [.commit 5] ++ huddleStatements 6 5 ++ [.commit 6]

theorem huddleDb_empty_atStart : HuddleDb.empty.AtStart := ⟨rfl, fun _ => rfl, Table.insertOnly_empty, fun _ => rfl⟩

/-- Two users hang up at a time, and their huddle is archived once. -/
theorem huddles_consistent_sample : ∃ s s' : HuddleSys,
    run (serveHuddles fun _ => "digest") (Sys.start HuddleDb.empty) sampleCall = some s ∧
    run (serveHuddles fun _ => "digest") s sampleHangups = some s' ∧
    (s.db.manager.objects ("tenant-1", "huddle-1")).map Huddle.state = some .accepted ∧
    (s'.db.manager.objects ("tenant-1", "huddle-1")).map Huddle.state = some .ended ∧
    s'.db.archivals ("tenant-1", "huddle-1") = 1 ∧ s.db.manager.Advances s'.db.manager := by
  obtain ⟨s, hrun, hstate, s', hrun', hstate', harchived⟩ : ∃ s : HuddleSys,
      run (serveHuddles fun _ => "digest") (Sys.start HuddleDb.empty) sampleCall = some s ∧
      (s.db.manager.objects ("tenant-1", "huddle-1")).map Huddle.state = some .accepted ∧
      ∃ s' : HuddleSys, run (serveHuddles fun _ => "digest") s sampleHangups = some s' ∧
        (s'.db.manager.objects ("tenant-1", "huddle-1")).map Huddle.state = some .ended ∧
        s'.db.archivals ("tenant-1", "huddle-1") = 1 := ⟨_, rfl, rfl, _, rfl, rfl, rfl⟩
  refine ⟨s, s', hrun, hrun', hstate, hstate', harchived, ?_⟩
  refine (huddles_consistent huddleDb_empty_atStart hrun hrun' (shielded_of_going fun a ha t => ?_)).2.2.2.1
  simp only [sampleCall, sampleHangups, huddleStatements, List.mem_append, List.mem_cons, List.mem_replicate,
    List.not_mem_nil, or_false] at ha
  rintro rfl
  simp at ha

end Sample

end Anoryx.Rendly
