import Anoryx.ReadCommitted.Exclusive
import Anoryx.ReadCommitted.LastStatement
import Anoryx.Rendly.Realtime

/-!
# Anoryx.Rendly.DeliveryRuns

What any run of the handlers does to the deliveries of a channel.

A member that is removed is evicted from the channel's bucket after his membership is gone.
He gets into it again only by a connection that read its channels before (`Barred`), or by
being added again; a broadcast goes to the bucket as it is when the broadcast begins.
-/

namespace Anoryx.Rendly

open ReadCommitted Exclusive Table Function StepsOf

variable {F : Type} {d d' d'' : RealtimeDb} {t u : Txn} {key : String × String × String}

/-! ## who is barred -/

def Absent (key : String × String × String) (d : RealtimeDb) : Prop := (d.memberships.committed key).bind id = none

/-- Nobody who has read the user's channels with this one among them is still to be registered. -/
def NotConnecting (key : String × String × String) (d : RealtimeDb) : Prop :=
  ∀ u conn, d.connecting u = some conn → conn.user = (key.1, key.2.2) → key.2.1 ∉ conn.channels

/-- No connection of the user is in the channel's bucket. -/
def Evicted (key : String × String × String) (d : RealtimeDb) : Prop :=
  ∀ id ∈ d.registry.byChannel (key.1, key.2.1), ∀ conn, d.registry.connections id = some conn →
    conn.user ≠ (key.1, key.2.2)

/-- No connection of the user gets into the channel's bucket. -/
structure Barred (key : String × String × String) (d : RealtimeDb) : Prop where
  absent : Absent key d
  notConnecting : NotConnecting key d
  evicted : Evicted key d

/-- What is sent goes to the connections that the broadcast began with. -/
def Addressed (d : RealtimeDb) : Prop :=
  ∀ x ∈ d.deliveries, ∃ conns, d.audience x.txn = some (x.channel, conns) ∧ x.conn ∈ conns

structure DeliveryRely (u : Txn) (d d' : RealtimeDb) : Prop where
  memberships : Frame u d.memberships d'.memberships
  audience : d'.audience u = d.audience u
  connecting : d'.connecting u = d.connecting u

/-- What every step does, as long as nobody is added. -/
structure DeliveryMoves (d d' : RealtimeDb) : Prop where
  grows : d.registry.Grows d'.registry
  additions : ∀ key, d.additions key ≤ d'.additions key
  barred : ∀ key, d'.additions key = d.additions key → Barred key d → Barred key d'
  /-- a broadcast that has begun since reaches nobody who was barred -/
  audience : ∀ t channel conns, d'.audience t = some (channel, conns) → d.audience t = some (channel, conns) ∨
    ∀ key, channel = (key.1, key.2.1) → d'.additions key = d.additions key → Barred key d →
      ∀ id ∈ conns, ∃ conn, d'.registry.connections id = some conn ∧ conn.user ≠ (key.1, key.2.2)

theorem DeliveryRely.refl (u : Txn) (d : RealtimeDb) : DeliveryRely u d d := ⟨Frame.refl u _, rfl, rfl⟩

theorem DeliveryRely.trans (h : DeliveryRely u d d') (h' : DeliveryRely u d' d'') : DeliveryRely u d d'' :=
  ⟨h.memberships.trans h'.memberships, h'.audience.trans h.audience, h'.connecting.trans h.connecting⟩

theorem DeliveryMoves.refl (d : RealtimeDb) : DeliveryMoves d d :=
  ⟨ConnectionRegistry.Grows.refl _, fun _ => le_rfl, fun _ _ h => h, fun _ _ _ h => .inl h⟩

theorem DeliveryMoves.trans (h : DeliveryMoves d d') (h' : DeliveryMoves d' d'') : DeliveryMoves d d'' := by
  -- where nothing was added on the whole way, nothing was added on either half
  have hhalves : ∀ {key}, d''.additions key = d.additions key →
      d'.additions key = d.additions key ∧ d''.additions key = d'.additions key := by
    intro key hsame
    have := h.additions key
    have := h'.additions key
    omega
  refine ⟨h.grows.trans h'.grows, fun key => (h.additions key).trans (h'.additions key), fun key hsame hbarred => ?_,
    fun t channel conns haudience => ?_⟩
  · obtain ⟨hfirst, hsecond⟩ := hhalves hsame
    exact h'.barred key hsecond (h.barred key hfirst hbarred)
  · rcases h'.audience t channel conns haudience with hmid | hnew
    · rcases h.audience t channel conns hmid with hold | hnew
      · exact .inl hold
      · refine .inr fun key hchannel hsame hbarred id hid => ?_
        obtain ⟨conn, hconn, hne⟩ := hnew key hchannel (hhalves hsame).1 hbarred id hid
        obtain ⟨conn', hconn', huser⟩ := h'.grows id conn hconn
        exact ⟨conn', hconn', huser ▸ hne⟩
    · refine .inr fun key hchannel hsame hbarred => ?_
      obtain ⟨hfirst, hsecond⟩ := hhalves hsame
      exact hnew key hchannel hsecond (h.barred key hfirst hbarred)

def deliverySpec (F : Type) : Exclusive RealtimeDb (RealtimeRequest F) RealtimeAnswer Unit where
  key _ := none
  inv := Addressed
  rely u _ := DeliveryRely u
  rests _ _ := True
  fresh t d := d.memberships.Unheld t ∧ d.audience t = none
  works _ _ _ := True
  post _ _ _ _ := True
  ended _ _ := True
  moves := DeliveryMoves

/-! ## calm statements -/

/-- A statement that registers nobody, begins no broadcast and sends nothing. -/
structure Calm (t : Txn) (d d' : RealtimeDb) : Prop where
  memberships : ∀ u, u ≠ t → Frame u d.memberships d'.memberships
  grows : d.registry.Grows d'.registry
  buckets : ∀ key id, id ∈ d'.registry.byChannel key → id ∈ d.registry.byChannel key
  deliveries : d'.deliveries = d.deliveries
  audience : d'.audience = d.audience
  connecting : ∀ u conn, d'.connecting u = some conn → d.connecting u = some conn
  connectingOf : ∀ u, u ≠ t → d'.connecting u = d.connecting u
  additions : ∀ key, d.additions key ≤ d'.additions key
  absent : ∀ key, d'.additions key = d.additions key → Absent key d → Absent key d'

theorem Calm.barred (h : Calm t d d') (hsame : d'.additions key = d.additions key) (hbarred : Barred key d) : Barred key d' where
  absent := h.absent key hsame hbarred.absent
  notConnecting u conn hconn := hbarred.notConnecting u conn (h.connecting u conn hconn)
  evicted := by
    intro id hid conn' hconn'
    have hid := h.buckets _ id hid
    obtain ⟨conn, hconn, -, -⟩ := d.registry.channel_filed _ id hid
    obtain ⟨c, hc, huser⟩ := h.grows id conn hconn
    obtain rfl : c = conn' := Option.some.inj (hc.symm.trans hconn')
    exact huser ▸ hbarred.evicted id hid conn hconn

theorem Calm.keeps (h : Calm t d d') (hinv : Addressed d) : (deliverySpec F).Keeps t none d d' := by
  refine ⟨?_, fun u _ hu _ => ⟨h.memberships u hu, congrFun h.audience u, h.connectingOf u hu⟩, fun _ _ _ => trivial,
    ⟨h.grows, h.additions, fun _ => h.barred, fun u channel conns haudience => .inl ?_⟩⟩
  · show Addressed d'
    unfold Addressed
    rw [h.deliveries, h.audience]
    exact hinv
  · rw [← h.audience]
    exact haudience

theorem calm_of (hmemberships : ∀ u, u ≠ t → Frame u d.memberships d'.memberships)
    (hcommitted : d'.memberships.committed = d.memberships.committed) (hregistry : d'.registry = d.registry)
    (hdeliveries : d'.deliveries = d.deliveries) (haudience : d'.audience = d.audience) (hconnecting : d'.connecting = d.connecting)
    (hadditions : d'.additions = d.additions) : Calm t d d' where
  memberships := hmemberships
  grows := hregistry ▸ ConnectionRegistry.Grows.refl _
  buckets key id hid := hregistry ▸ hid
  deliveries := hdeliveries
  audience := haudience
  connecting u conn hconn := hconnecting ▸ hconn
  connectingOf u _ := congrFun hconnecting u
  additions key := le_of_eq (congrFun hadditions key).symm
  absent key _ habsent := by
    unfold Absent
    rw [hcommitted]
    exact habsent

theorem calm_refl (t : Txn) (d : RealtimeDb) : Calm t d d :=
  calm_of (fun u _ => Frame.refl u _) rfl rfl rfl rfl rfl rfl

/-- **A commit** adds whom it adds, and nobody else. -/
theorem calm_commit (t : Txn) (d : RealtimeDb) : Calm t d (Database.commit t d) where
  memberships _ hu := frame_commit _ hu
  grows := ConnectionRegistry.Grows.refl _
  buckets _ _ h := h
  deliveries := rfl
  audience := rfl
  connecting _ _ h := h
  connectingOf _ _ := rfl
  additions key := by
    show d.additions key ≤ if d.adds t key then d.additions key + 1 else d.additions key
    split <;> omega
  absent key hsame habsent := by
    have hsame : (if d.adds t key then d.additions key + 1 else d.additions key) = d.additions key := hsame
    have hadds : d.adds t key = false := by
      cases hadds : d.adds t key with
      | false => rfl
      | true => simp [hadds] at hsame
    show ((d.memberships.commit t).committed key).bind id = none
    rw [committed_commit_eq]
    unfold RealtimeDb.adds at hadds
    cases hversion : d.memberships.version t key with
    | none => exact habsent
    | some row =>
        rw [hversion] at hadds
        cases row with
        | none => rfl
        | some row => contradiction

theorem calm_rollback (t : Txn) (d : RealtimeDb) : Calm t d (Database.rollback t d) where
  memberships _ hu := frame_rollback _ hu
  grows := ConnectionRegistry.Grows.refl _
  buckets _ _ h := h
  deliveries := rfl
  audience := rfl
  connecting u conn h := by
    have h : update d.connecting t none u = some conn := h
    by_cases hu : u = t
    · subst hu
      rw [update_self] at h
      contradiction
    · rw [update_of_ne hu] at h
      exact h
  connectingOf u hu := update_of_ne hu _ _
  additions _ := le_rfl
  absent _ _ habsent := habsent

theorem calm_tables {channels : Table (String × String) ChannelRow} {messages : Table (String × String) MessageRow}
    {inserts : List MessageInsert} {resolved : Txn → Option Resolution} :
    Calm t d { d with channels := channels, messages := messages, inserts := inserts, resolved := resolved } :=
  calm_of (fun u _ => Frame.refl u _) rfl rfl rfl rfl rfl rfl

theorem calm_writeMembership {row : Option MembershipRow} (hfree : d.memberships.free t key = true) :
    Calm t d { d with memberships := d.memberships.write t key row } :=
  calm_of (fun _ hu => frame_write hu hfree) rfl rfl rfl rfl rfl rfl

theorem calm_insertMembership {role : ChannelRole} {addedAt : DateTime} {b : Bool}
    (h : insertMembership key role addedAt t d = some (b, d')) : Calm t d d' := by
  unfold insertMembership at h
  split at h
  · contradiction
  next hfree =>
    split at h
    · cases h
      exact calm_refl t d
    · cases h
      exact calm_writeMembership (Bool.eq_true_of_not_eq_false hfree)

theorem calm_deleteFound {found : MembershipRow} {b : Bool} (h : deleteFound key found t d = some (b, d')) : Calm t d d' := by
  unfold deleteFound at h
  split at h
  · contradiction
  next hfree =>
    split at h
    · cases h
      exact calm_writeMembership (Bool.eq_true_of_not_eq_false hfree)
    · cases h
      exact calm_refl t d

theorem calm_evictMember : Calm t d { d with registry := d.registry.removeUserFromChannel key.1 key.2.1 key.2.2 } where
  memberships u _ := Frame.refl u _
  grows := d.registry.grows_removeUserFromChannel _ _ _
  buckets _ _ h := (d.registry.mem_byChannel_removeUserFromChannel h).1
  deliveries := rfl
  audience := rfl
  connecting _ _ h := h
  connectingOf _ _ := rfl
  additions _ := le_rfl
  absent _ _ h := h

variable {conn : Connection} {channel : String × String} {conns rest : List ConnId} {req : RealtimeRequest F}
  {messageId : String} {call : ChatSend F}

theorem calm_discard {id : ConnId} (hid : d.registry.connections id = some conn) :
    Calm t d { d with registry := d.registry.discard id conn hid } where
  memberships u _ := Frame.refl u _
  grows := ConnectionRegistry.Grows.refl _
  buckets _ _ h := d.registry.mem_byChannel_discard hid h
  deliveries := rfl
  audience := rfl
  connecting _ _ h := h
  connectingOf _ _ := rfl
  additions _ := le_rfl
  absent _ _ h := h

/-! ## the programs -/

section Programs

variable {sha256 : ByteArray → String} {users : String → String → Bool}

theorem calm_query {γ : Type} (f : Txn → RealtimeDb → γ) : StepsOf t (Calm t) (Prog.query f : RealtimeProg γ) :=
  query (calm_refl t)

theorem calm_commitWork : StepsOf t (Calm t) (Prog.commitWork : RealtimeProg Unit) := by
  refine exec fun d x d' h => ?_
  cases h
  exact calm_commit t d

theorem calm_rollbackWork : StepsOf t (Calm t) (Prog.rollbackWork : RealtimeProg Unit) := by
  refine exec fun d x d' h => ?_
  cases h
  exact calm_rollback t d

theorem calm_deleteMembership (key : String × String × String) : StepsOf t (Calm t) (deleteMembership key) := by
  refine (calm_query _).bind fun found => ?_
  cases found with
  | none => trivial
  | some row => exact exec fun _ _ _ => calm_deleteFound

theorem calm_allowedIn (principal : AuthzPrincipal) (channelId : String) (action : ChannelAction) (resolverRaises : Bool) :
    StepsOf t (Calm t) (allowedIn principal channelId action resolverRaises) := by
  refine (calm_query _).bind fun channel => ?_
  cases channel with
  | none => trivial
  | some channel =>
      refine StepsOf.bind ?_ fun decision => trivial
      unfold authorize
      split
      · trivial
      split
      · trivial
      split
      · trivial
      refine (exec fun d x d' h => ?_).bind fun role => ?_
      · cases h
        exact calm_tables
      · split <;> trivial

theorem calm_requireScope (scope : String) (principal : AuthzPrincipal) :
    StepsOf t (Calm t) (requireScope scope principal) := by
  unfold requireScope
  split <;> trivial

theorem calm_requireAllowed (principal : AuthzPrincipal) (channelId : String) (action : ChannelAction) (resolverRaises : Bool) :
    StepsOf t (Calm t) (requireAllowed principal channelId action resolverRaises) := by
  refine (calm_allowedIn ..).bind fun allowed => ?_
  cases allowed <;> trivial

theorem calm_createChannel (call : CreateChannel) : StepsOf t (Calm t) (createChannel users call) := by
  refine (calm_requireScope ..).bind fun _ => (inserting fun d b d' h => ?_).bind fun _ => ?_
  · obtain ⟨p, -, he⟩ := Option.map_eq_some_iff.mp h
    cases he
    exact calm_tables
  · split
    · exact (inserting fun _ _ _ => calm_insertMembership).bind fun _ => trivial
    · trivial

theorem calm_upsertMember (call : MemberCall) : StepsOf t (Calm t) (upsertMember users call) := by
  refine (calm_requireScope ..).bind fun _ => (calm_requireAllowed ..).bind fun _ => ?_
  split
  · exact (calm_deleteMembership _).bind fun _ => (inserting fun _ _ _ => calm_insertMembership).bind fun _ => trivial
  · trivial

theorem calm_removeMember (call : MemberCall) : StepsOf t (Calm t) (removeMember call) := by
  refine (calm_requireScope ..).bind fun _ => (calm_requireAllowed ..).bind fun _ => (calm_deleteMembership _).bind fun _ =>
    calm_commitWork.bind fun _ => (exec fun d x d' h => ?_).bind fun _ => trivial
  cases h
  exact calm_evictMember

theorem calm_mapChannelTeam (call : MapChannelTeam) : StepsOf t (Calm t) (mapChannelTeam call) := by
  refine (calm_requireScope ..).bind fun _ => (calm_requireAllowed ..).bind fun _ => (exec fun d x d' h => ?_).bind
    fun updated => ?_
  · obtain ⟨p, -, he⟩ := Option.map_eq_some_iff.mp h
    cases he
    exact calm_tables
  · cases updated <;> trivial

theorem calm_disconnect (conn : ConnId) : StepsOf t (Calm t) (disconnect conn) := by
  refine (exec fun d x d' h => ?_).bind fun _ => trivial
  unfold discardConnection at h
  split at h
  · cases h
    exact calm_refl t d
  · cases h
    exact calm_discard _

theorem calm_flushMessage (row : MessageRow) : StepsOf t (Calm t) (flushMessage row) := by
  unfold flushMessage
  split_ifs
  · trivial
  · trivial
  · refine (inserting fun d b d' h => ?_).bind fun _ => (exec fun d x d' h => ?_).bind fun _ => trivial
    all_goals
      obtain ⟨p, -, he⟩ := Option.map_eq_some_iff.mp h
      cases he
      exact calm_tables

theorem calm_persistMessage (call : ChatSend F) (frame : ChatFrame) (outcome : InspectionOutcome) :
    StepsOf t (Calm t) (persistMessage sha256 call frame outcome) := by
  unfold persistMessage
  cases frame.content.encode with
  | none => trivial
  | some content =>
      refine (exec fun d x d' h => ?_).bind fun found => ?_
      · obtain ⟨p, -, he⟩ := Option.map_eq_some_iff.mp h
        cases he
        exact calm_tables
      · cases found with
        | none => trivial
        | some channel => exact calm_flushMessage _

/-! ## the broadcast -/

theorem Addressed.ne_txn (hinv : Addressed d) (ht : d.audience t = none) : ∀ x ∈ d.deliveries, x.txn ≠ t := by
  rintro x hx rfl
  obtain ⟨conns, haudience, -⟩ := hinv x hx
  exact absurd (ht.symm.trans haudience) (Option.some_ne_none _).symm

theorem keeps_snapshotChannel (hinv : Addressed d) (ht : d.audience t = none) :
    (deliverySpec F).Keeps t none d
      { d with audience := update d.audience t (some (channel, d.registry.byChannel channel)) } := by
  refine ⟨fun x hx => ?_, fun u _ hu _ => ⟨Frame.refl u _, update_of_ne hu _ _, rfl⟩, fun _ _ _ => trivial,
    ⟨ConnectionRegistry.Grows.refl _, fun _ => le_rfl, fun key _ hbarred => ⟨hbarred.absent, hbarred.notConnecting, hbarred.evicted⟩,
      fun u channel' conns haudience => ?_⟩⟩
  · obtain ⟨conns, haudience, hmem⟩ := hinv x hx
    exact ⟨conns, (update_of_ne (hinv.ne_txn ht x hx) _ _).trans haudience, hmem⟩
  · have haudience : update d.audience t (some (channel, d.registry.byChannel channel)) u = some (channel', conns) := haudience
    by_cases hu : u = t
    · subst hu
      rw [update_self] at haudience
      cases haudience
      refine .inr fun key hchannel _ hbarred id hid => ?_
      obtain ⟨conn, hconn, -, -⟩ := d.registry.channel_filed _ id hid
      exact ⟨conn, hconn, hbarred.evicted id (hchannel ▸ hid) conn hconn⟩
    · rw [update_of_ne hu] at haudience
      exact .inl haudience

theorem keeps_sendFrame (hinv : Addressed d) {x : Delivery} (haudience : d.audience x.txn = some (x.channel, conns))
    (hmem : x.conn ∈ conns) : (deliverySpec F).Keeps t none d { d with deliveries := d.deliveries ++ [x] } := by
  refine ⟨fun y hy => ?_, fun u _ _ _ => ⟨Frame.refl u _, rfl, rfl⟩, fun _ _ _ => trivial,
    ⟨ConnectionRegistry.Grows.refl _, fun _ => le_rfl, fun key _ hbarred => ⟨hbarred.absent, hbarred.notConnecting, hbarred.evicted⟩,
      fun _ _ _ haudience => .inl haudience⟩⟩
  rcases List.mem_append.mp hy with hy | hy
  · exact hinv y hy
  · obtain rfl := List.mem_singleton.mp hy
    exact ⟨conns, haudience, hmem⟩

theorem wp_sendFrames (haudience : d.audience t = some (channel, conns)) (hrest : ∀ id ∈ rest, id ∈ conns) :
    (deliverySpec F).wp t req (fun _ _ => True) (sendFrames channel messageId rest) d := by
  induction rest generalizing d with
  | nil => exact fun _ _ _ _ => trivial
  | cons id rest ih =>
      refine wp_exec_bind fun d₁ h₁ hr₁ _ x d₂ hsend => ?_
      have haudience₁ : d₁.audience t = some (channel, conns) := hr₁.audience.trans haudience
      cases hsend
      exact ⟨keeps_sendFrame h₁ haudience₁ (hrest id List.mem_cons_self), trivial,
        ih haudience₁ fun id' hid' => hrest id' (List.mem_cons_of_mem id hid')⟩

theorem wp_broadcastChannel (ht : d.audience t = none) :
    (deliverySpec F).wp t req (fun _ _ => True) (broadcastChannel channel messageId) d := by
  refine wp_exec_bind fun d₁ h₁ hr₁ _ conns d₂ hsnapshot => ?_
  have ht₁ : d₁.audience t = none := hr₁.audience.trans ht
  cases hsnapshot
  exact ⟨keeps_snapshotChannel h₁ ht₁, trivial, wp_sendFrames (update_self ..) fun _ h => h⟩

/-! ## the other programs -/

theorem wp_calm {γ : Type} {p : RealtimeProg γ} (hp : StepsOf t (Calm t) p) (ht : d.audience t = none) :
    (deliverySpec F).wp t req (fun _ d' => d'.audience t = none) p d :=
  wp_knowing hp (fun _ _ _ hr h => (DeliveryRely.audience hr).trans h)
    (fun _ _ hinv _ h hcalm _ => ⟨hcalm.keeps hinv, trivial, (congrFun hcalm.audience t).trans h⟩) (fun _ _ _ => trivial) ht

theorem wp_sendPassed {frame : ChatFrame} {outcome : InspectionOutcome} (hinv : Addressed d)
    (ht : d.audience t = none) :
    (deliverySpec F).wp t (.chatSend call) (fun _ _ => True) (sendPassed sha256 call frame outcome) d := by
  refine wp_bind (DeliveryRely.refl t) hinv trivial (wp_mono (fun allowed d₁ h₁ _ ht₁ => ?_)
    (wp_calm (calm_allowedIn ..) ht))
  cases allowed with
  | false => exact fun _ _ _ _ => trivial
  | true =>
      refine wp_bind (DeliveryRely.refl t) h₁ trivial (wp_mono (fun message d₂ h₂ _ ht₂ => ?_)
        (wp_calm (calm_persistMessage ..) ht₁))
      refine wp_bind (DeliveryRely.refl t) h₂ trivial (wp_mono (fun _ d₃ h₃ _ ht₃ => ?_)
        (wp_calm calm_commitWork ht₂))
      exact wp_bind (DeliveryRely.refl t) h₃ trivial
        (wp_mono (fun _ _ _ _ _ _ _ _ _ => trivial) (wp_broadcastChannel ht₃))

theorem wp_handleChatSend (hinv : Addressed d) (ht : d.audience t = none) :
    (deliverySpec F).wp t (.chatSend call) (fun _ _ => True) (handleChatSend sha256 call) d := by
  unfold handleChatSend
  cases chatFrame call.data with
  | error answer => exact fun _ _ _ _ => trivial
  | ok frame =>
      refine wp_bind (DeliveryRely.refl t) hinv trivial (wp_mono (fun allowed d₁ h₁ _ ht₁ => ?_)
        (wp_calm (calm_allowedIn ..) ht))
      refine wp_bind (DeliveryRely.refl t) h₁ trivial (wp_mono (fun _ d₂ h₂ _ ht₂ => ?_)
        (wp_calm calm_rollbackWork ht₁))
      cases allowed with
      | false => exact fun _ _ _ _ => trivial
      | true =>
          show (deliverySpec F).wp t _ _ (sendInspected sha256 call frame) d₂
          unfold sendInspected
          cases call.inspection with
          | none => exact fun _ _ _ _ => trivial
          | some outcome =>
              obtain ⟨status, evaluatedAt, detectors⟩ := outcome
              cases status with
              | pass => exact wp_sendPassed h₂ ht₂
              | blocked => exact fun _ _ _ _ => trivial
              | seamUnavailable => exact fun _ _ _ _ => trivial

/-! ## a connection -/

theorem Absent.not_mem (h : Absent key d) (hheld : d.memberships.Unheld t) :
    key.2.1 ∉ channelIdsForUser key.1 key.2.2 t d := by
  intro hmem
  obtain ⟨⟨⟨tenantId, channelId, userId⟩, row⟩, hmem, hchannel⟩ := List.mem_map.mp hmem
  obtain ⟨hscan, hmatch⟩ := List.mem_filter.mp hmem
  simp only [Bool.and_eq_true, decide_eq_true_eq] at hmatch hchannel
  obtain ⟨⟨rfl, rfl⟩, hsome⟩ := hmatch
  obtain rfl : channelId = key.2.1 := hchannel
  have hrow : d.memberships.committed key = some row := (hheld.visible _).symm.trans (mem_scan.mp hscan)
  have habsent : (d.memberships.committed key).bind id = none := h
  rw [hrow] at habsent
  cases row with
  | none => contradiction
  | some row => contradiction

theorem keeps_selectChannels (hinv : Addressed d) (hheld : d.memberships.Unheld t) (tenantId userId : String) :
    (deliverySpec F).Keeps t none d { d with
      connecting := update d.connecting t (some ⟨tenantId, userId, channelIdsForUser tenantId userId t d⟩) } := by
  refine ⟨hinv, fun u _ hu _ => ⟨Frame.refl u _, rfl, update_of_ne hu _ _⟩, fun _ _ _ => trivial,
    ⟨ConnectionRegistry.Grows.refl _, fun _ => le_rfl, fun key _ hbarred => ⟨hbarred.absent, fun u conn hconn huser => ?_, hbarred.evicted⟩,
      fun _ _ _ haudience => .inl haudience⟩⟩
  have hconn : update d.connecting t (some ⟨tenantId, userId, channelIdsForUser tenantId userId t d⟩) u = some conn := hconn
  by_cases hu : u = t
  · subst hu
    rw [update_self] at hconn
    cases hconn
    have huser : (tenantId, userId) = (key.1, key.2.2) := huser
    cases huser
    exact hbarred.absent.not_mem hheld
  · rw [update_of_ne hu] at hconn
    exact hbarred.notConnecting u conn hconn huser

/-- A socket enters the registry with the channels that it had read. -/
theorem keeps_register (hinv : Addressed d) (hconnecting : d.connecting t = some conn)
    (hid : d.registry.connections t = none) :
    (deliverySpec F).Keeps t none d { d with
      registry := d.registry.add t conn hid, connecting := update d.connecting t none } := by
  refine ⟨hinv, fun u _ hu _ => ⟨Frame.refl u _, rfl, update_of_ne hu _ _⟩, fun _ _ _ => trivial,
    ⟨d.registry.grows_add hid, fun _ => le_rfl, fun key _ hbarred => ⟨hbarred.absent, fun u conn' hconn' => ?_, ?_⟩,
      fun _ _ _ haudience => .inl haudience⟩⟩
  · have hconn' : update d.connecting t none u = some conn' := hconn'
    by_cases hu : u = t
    · subst hu
      rw [update_self] at hconn'
      contradiction
    · rw [update_of_ne hu] at hconn'
      exact hbarred.notConnecting u conn' hconn'
  · intro id hmem conn' hconn' huser
    rcases (d.registry.mem_byChannel_add hid).mp hmem with hold | ⟨rfl, hdelivers⟩
    · obtain ⟨c, hc, -, -⟩ := d.registry.channel_filed _ id hold
      obtain ⟨c', hc', hsame⟩ := d.registry.grows_add hid id c hc
      obtain rfl : c' = conn' := Option.some.inj (hc'.symm.trans hconn')
      exact hbarred.evicted id hold c hc (hsame ▸ huser)
    · have hconn' : update d.registry.connections id (some conn) id = some conn' := hconn'
      rw [update_self] at hconn'
      cases hconn'
      exact hbarred.notConnecting id conn hconnecting huser hdelivers.2

theorem wp_connect {call : Connect} (hheld : d.memberships.Unheld t) :
    (deliverySpec F).wp t (.connect call) (fun _ _ => True) (connect call) d := by
  unfold connect
  split
  · exact fun _ _ _ _ => trivial
  refine wp_exec_bind fun d₁ h₁ hr₁ _ channelIds d₂ hselect => ?_
  have hheld₁ : d₁.memberships.Unheld t := hheld.frame (DeliveryRely.memberships hr₁)
  cases hselect
  refine ⟨keeps_selectChannels h₁ hheld₁ _ _, trivial, ?_⟩
  refine wp_exec_bind fun d₂ h₂ hr₂ _ _ d₃ hclose => ?_
  have hconnecting := (DeliveryRely.connecting hr₂).trans (update_self ..)
  cases hclose
  refine ⟨Calm.keeps (calm_of (fun _ hu => frame_rollback _ hu) rfl rfl rfl rfl rfl rfl) h₂, trivial, ?_⟩
  refine wp_exec_bind fun d₄ h₄ hr₄ _ _ d₅ hregister => ?_
  have hconnecting := (DeliveryRely.connecting hr₄).trans hconnecting
  unfold register at hregister
  split at hregister
  · next hid =>
      cases hregister
      exact ⟨keeps_register h₄ hconnecting hid, trivial, fun _ _ _ _ => trivial⟩
  · contradiction

end Programs

/-! ## runs -/

/-- Every request keeps the invariant of the deliveries. -/
theorem deliverySpec_sound (F : Type) (sha256 : ByteArray → String) (users : String → String → Bool) :
    (deliverySpec F).Sound (serveRealtime sha256 users) where
  refl u _ := DeliveryRely.refl u
  trans := DeliveryRely.trans
  moves_refl := DeliveryMoves.refl
  moves_trans := DeliveryMoves.trans
  fresh_rely _ hr h := ⟨h.1.frame (DeliveryRely.memberships hr), (DeliveryRely.audience hr).trans h.2⟩
  ended_rely _ _ h := h
  works_rely _ _ h := h
  body {t req d} hinv _ hfresh _ := by
    refine ⟨trivial, ?_⟩
    cases req with
    | connect call => exact wp_connect hfresh.1
    | disconnect conn => exact wp_mono (fun _ _ _ _ _ => trivial) (wp_calm (calm_disconnect conn) hfresh.2)
    | chatSend call => exact wp_handleChatSend hinv hfresh.2
    | createChannel call => exact wp_mono (fun _ _ _ _ _ => trivial) (wp_calm (calm_createChannel call) hfresh.2)
    | upsertMember call => exact wp_mono (fun _ _ _ _ _ => trivial) (wp_calm (calm_upsertMember call) hfresh.2)
    | removeMember call => exact wp_mono (fun _ _ _ _ _ => trivial) (wp_calm (calm_removeMember call) hfresh.2)
    | mapChannelTeam call => exact wp_mono (fun _ _ _ _ _ => trivial) (wp_calm (calm_mapChannelTeam call) hfresh.2)
  commit hinv _ _ _ _ := ⟨(calm_commit _ _).keeps hinv, fun _ _ => trivial, trivial⟩
  rollback hinv _ _ _ := ⟨(calm_rollback _ _).keeps hinv, fun _ _ => trivial, trivial⟩
  skips_rely _ _ h := h
  aside _ hskips _ := absurd hskips id
  leave _ hskips _ := absurd hskips id

/-- Nobody is in the middle of anything, and nothing was broadcast. -/
structure RealtimeDb.AtRest (d : RealtimeDb) : Prop where
  memberships : d.memberships.Quiet
  deliveries : d.deliveries = []
  audience : ∀ t, d.audience t = none

theorem RealtimeDb.AtRest.ok (h : d.AtRest) : (deliverySpec F).Ok (Sys.start d : RealtimeSys F) := by
  refine ok_start (fun x hx => ?_) (fun t => ⟨fun key _ hin => ?_, h.audience t⟩) fun _ => trivial
  · rw [h.deliveries] at hx
    exact absurd hx List.not_mem_nil
  · exact absurd ((h.memberships key).symm.trans hin) (Option.some_ne_none _).symm

section Runs

variable {sha256 : ByteArray → String} {users : String → String → Bool}

theorem deliverySpec_permits {s : RealtimeSys F} (as : List (Action (RealtimeRequest F))) :
    EveryStep (serveRealtime sha256 users) (deliverySpec F).Permits s as := by
  refine everyStep_of_mem fun a _ s₁ s₂ => ?_
  cases a with
  | begin t req => exact .inl ⟨fun _ _ _ h => absurd h.symm (Option.some_ne_none _), trivial⟩
  | exec t => exact trivial
  | commit t => exact ⟨fun _ _ _ => trivial, trivial⟩
  | abort t => exact ⟨fun _ _ _ => .inr trivial, trivial⟩

/-- The last thing that a removal does. -/
def EvictsLast : RealtimeRequest F → RealtimeDb → RealtimeDb → Prop
  | .removeMember call, d, d' => d'.registry = d.registry.removeUserFromChannel call.key.1 call.key.2.1 call.key.2.2
  | _, _, _ => True

theorem endsBy_evictsLast (t : Txn) (req : RealtimeRequest F) :
    (serveRealtime sha256 users req).EndsBy (EvictsLast req) t := by
  cases req with
  | removeMember call =>
      -- everything before the eviction is followed by it
      have hevict : ∀ _ : Unit, (Prog.exec (evictMember call.key) >>= fun _ => pure .noContent : RealtimeProg RealtimeAnswer).IsBusy :=
        fun _ => Prog.isBusy_exec _ _
      have hcommit := fun _ : Bool => Prog.IsBusy.bind hevict Prog.commitWork
      have hdelete := fun _ : Unit => Prog.IsBusy.bind hcommit (deleteMembership call.key)
      have hallowed := fun _ : Unit =>
        Prog.IsBusy.bind hdelete (requireAllowed call.principal call.channelId .manageMembers call.resolverRaises)
      refine .bind hallowed (fun _ => .bind hdelete (fun _ => .bind hcommit (fun _ => .bind hevict (fun _ x => ?_) _) _) _) _
      refine ⟨fun b _ d d' h => ?_, trivial⟩
      cases h
      rfl
  | _ => exact .of_forall (fun _ _ => trivial) _

theorem evicted_of_eq {registry : ConnectionRegistry}
    (h : d.registry = registry.removeUserFromChannel key.1 key.2.1 key.2.2) : Evicted key d := by
  intro id hid conn hconn huser
  obtain ⟨conn', hconn', -, hfiled⟩ := d.registry.channel_filed _ id hid
  obtain rfl : conn' = conn := Option.some.inj (hconn'.symm.trans hconn)
  rw [h] at hid hfiled
  exact (registry.mem_byChannel_removeUserFromChannel hid).2 rfl (huser ▸ hfiled)

/-- **Who is removed receives nothing more**: when his eviction found him gone from the members, and none of his connections
on the way to the registry with the channel, no broadcast that begins after it reaches a connection of his, unless he is
added again. -/
theorem removed_member_receives_nothing {d₀ : RealtimeDb} {as bs : List (Action (RealtimeRequest F))} {s₀ s s' : RealtimeSys F}
    {call : MemberCall} {b : RealtimeAnswer} (hrest : d₀.AtRest)
    (hrun : run (serveRealtime sha256 users) (Sys.start d₀) as = some s₀)
    (hstep : step (serveRealtime sha256 users) s₀ (.exec t) = some s)
    (hevicted : s.procs t = .running (.removeMember call) (.pure b)) (habsent : Absent call.key s.db)
    (hconnecting : NotConnecting call.key s.db) (hrun' : run (serveRealtime sha256 users) s bs = some s')
    (hadditions : s'.db.additions call.key = s.db.additions call.key) :
    ∀ x ∈ s'.db.deliveries, x.channel = (call.principal.tenantId, call.channelId) → s.db.audience x.txn = none →
      ∀ conn, s'.db.registry.connections x.conn = some conn → conn.user ≠ (call.principal.tenantId, call.userId) := by
  intro x hx hchannel hlater conn hconn
  have hsound := deliverySpec_sound F sha256 users
  have hok : (deliverySpec F).Ok s := by
    have hok₀ := (hsound.run hrest.ok (deliverySpec_permits as) hrun).1
    exact (ok_step hsound hok₀ hstep (deliverySpec_permits [.exec t] s hstep).1).1
  have hlast : EvictsLast (.removeMember call : RealtimeRequest F) s₀.db s.db :=
    endsBy_step endsBy_evictsLast (fun _ _ _ h => by contradiction) hrun hstep hevicted
  obtain ⟨hok', hmoves⟩ := hsound.run hok (deliverySpec_permits bs) hrun'
  have hmoves : DeliveryMoves s.db s'.db := hmoves
  obtain ⟨conns, haudience, hmem⟩ : ∃ conns, s'.db.audience x.txn = some (x.channel, conns) ∧ x.conn ∈ conns := hok'.inv x hx
  rcases hmoves.audience _ _ _ haudience with hbefore | hnew
  · exact absurd (hlater.symm.trans hbefore) (Option.some_ne_none _).symm
  · obtain ⟨conn', hconn', hne⟩ :=
      hnew call.key hchannel hadditions ⟨habsent, hconnecting, evicted_of_eq hlast⟩ x.conn hmem
    obtain rfl : conn' = conn := Option.some.inj (hconn'.symm.trans hconn)
    exact hne

end Runs

section Sample

def sampleChannelId : String := "00000000-0000-0000-0000-000000000001"

def sampleMoment : DateTime := .ofFields 2026 1 1 0 0 0 0 (Eq.refl true)

def sampleChannel : ChannelRow :=
  ⟨"tenant-1", sampleChannelId, "general", .public_, .manual, none, "user-1", sampleMoment, false, 0, none⟩

def sampleRealtime : RealtimeDb where
  channels := (empty.write 0 ("tenant-1", sampleChannelId) sampleChannel).commit 0
  memberships :=
    (((empty.write 0 ("tenant-1", sampleChannelId, "user-1") (some ⟨.owner, sampleMoment, 0⟩)).commit 0).write 0
      ("tenant-1", sampleChannelId, "user-2") (some ⟨.member, sampleMoment, 0⟩)).commit 0
  messages := empty
  registry := ConnectionRegistry.empty
  deliveries := []
  resolved _ := none
  inserts := []
  connecting _ := none
  audience _ := none
  additions _ := 0

def samplePrincipal (userId : String) : AuthzPrincipal := ⟨"tenant-1", userId, ["chat:read", "chat:write", "channels:admin"]⟩

def sampleSend (messageId : String) : ChatSend Empty where
  principal := samplePrincipal "user-1"
  data := [(PyJson.PyStr.ofString "msg_type", .str (PyJson.PyStr.ofString "chat.send")),
    (PyJson.PyStr.ofString "client_msg_id", .str (PyJson.PyStr.ofString "send-1")),
    (PyJson.PyStr.ofString "channel_id", .str (PyJson.PyStr.ofString sampleChannelId)),
    (PyJson.PyStr.ofString "content", .str (PyJson.PyStr.ofString "hello"))]
  resolverRaises := false
  resolverRaisesAgain := false
  inspection := some ⟨.pass, sampleMoment, []⟩
  messageId := messageId
  createdAt := sampleMoment

def sampleRemoval : MemberCall := ⟨samplePrincipal "user-1", sampleChannelId, "user-2", .member, sampleMoment, false⟩

/-- Statements of a handler, one after another. -/
def statements (t : Txn) (n : Nat) : List (Action (RealtimeRequest Empty)) := List.replicate n (.exec t)

/-- A run with every user and a digest. -/
def runSample (as : List (Action (RealtimeRequest Empty))) : Option (RealtimeSys Empty) :=
  run (serveRealtime (fun _ => "digest") fun _ _ => true) (Sys.start sampleRealtime) as

def connectSample (t : Txn) : List (Action (RealtimeRequest Empty)) := [.begin t (.connect ⟨samplePrincipal "user-2"⟩)]

/-- The member's socket reads its channels, the member is removed, and only then is the socket registered. -/
def removeWhileConnecting : List (Action (RealtimeRequest Empty)) :=
  connectSample 1 ++ statements 1 2 ++ [.begin 2 (.removeMember sampleRemoval)] ++ statements 2 6 ++ [.commit 2] ++
    statements 1 1 ++ [.commit 1]

/-- A message is sent to the channel. -/
def sendAfterwards (t : Txn) (n : Nat) : List (Action (RealtimeRequest Empty)) :=
  [.begin t (.chatSend (sampleSend "message-1"))] ++ statements t n ++ [.commit t]

/-- What was delivered, and to whom. -/
def received (s : RealtimeSys Empty) : List (Option (String × String) × String) :=
  s.db.deliveries.map fun x => ((s.db.registry.connections x.conn).map Connection.user, x.messageId)

/-- **A member who was removed receives** what is sent later, on a socket that had read its channels before. -/
theorem removed_member_receives :
    (runSample removeWhileConnecting).map received = some [] ∧
    (runSample removeWhileConnecting).map (fun s => (s.procs 2).result) = some (some .noContent) ∧
    (runSample removeWhileConnecting).map (fun s => s.db.additions sampleRemoval.key) = some 0 ∧
    (runSample (removeWhileConnecting ++ sendAfterwards 3 11)).map received =
      some [(some ("tenant-1", "user-2"), "message-1")] ∧
    (runSample (removeWhileConnecting ++ sendAfterwards 3 11)).map (fun s => s.db.additions sampleRemoval.key) = some 0 := by
  decide +kernel

theorem sampleRealtime_atRest : sampleRealtime.AtRest where
  memberships :=
    (Quiet.commit_write (Quiet.commit_write (fun _ => rfl) 0 _ _).1 0 _ _).1
  deliveries := rfl
  audience _ := rfl

/-- The owner and the member connect, and the owner removes the member. -/
def connectThenRemove : List (Action (RealtimeRequest Empty)) :=
  [.begin 1 (.connect ⟨samplePrincipal "user-1"⟩)] ++ statements 1 3 ++ connectSample 4 ++ statements 4 3 ++
    [.begin 2 (.removeMember sampleRemoval)] ++ statements 2 5

theorem connecting_sample (conn conn' : Connection) (u : Txn) :
    update (update (update (update (fun _ => none) 1 (some conn)) 1 none) 4 (some conn')) 4
      none u = none := by
  simp [update_apply]

/-- The member is removed, and a message reaches the owner only. -/
theorem removed_member_receives_nothing_sample : ∃ s s' : RealtimeSys Empty,
    run (serveRealtime (fun _ => "digest") fun _ _ => true) s (.commit 2 :: sendAfterwards 3 11) = some s' ∧
    s.procs 2 = .running (.removeMember sampleRemoval) (.pure .noContent) ∧
    ∀ x ∈ s'.db.deliveries, x.channel = ("tenant-1", sampleChannelId) → s.db.audience x.txn = none →
      ∀ conn, s'.db.registry.connections x.conn = some conn → conn.user ≠ ("tenant-1", "user-2") := by
  obtain ⟨s₀, hrun, s, hstep, hevicted, habsent, hconnecting, s', hrun', hadditions⟩ : ∃ s₀ : RealtimeSys Empty,
      run (serveRealtime (fun _ => "digest") fun _ _ => true) (Sys.start sampleRealtime) connectThenRemove = some s₀ ∧
      ∃ s, step (serveRealtime (fun _ => "digest") fun _ _ => true) s₀ (.exec 2) = some s ∧
        s.procs 2 = .running (.removeMember sampleRemoval) (.pure .noContent) ∧
        s.db.memberships.committed sampleRemoval.key = some none ∧ (∀ u, s.db.connecting u = none) ∧
        ∃ s', run (serveRealtime (fun _ => "digest") fun _ _ => true) s (.commit 2 :: sendAfterwards 3 11) = some s' ∧
          s'.db.additions sampleRemoval.key = s.db.additions sampleRemoval.key :=
    ⟨_, rfl, _, rfl, rfl, rfl, connecting_sample _ _, _, rfl, rfl⟩
  refine ⟨s, s', hrun', hevicted, ?_⟩
  exact removed_member_receives_nothing sampleRealtime_atRest hrun hstep hevicted (congrArg (Option.bind · id) habsent)
    (fun u conn hu => absurd ((hconnecting u).symm.trans hu) (Option.some_ne_none conn).symm) hrun' hadditions

end Sample

end Anoryx.Rendly
