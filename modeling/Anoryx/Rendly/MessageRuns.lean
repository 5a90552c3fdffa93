import Anoryx.ReadCommitted.Effects
import Anoryx.Rendly.DeliveryRuns

/-!
# Anoryx.Rendly.MessageRuns

What any run of the handlers makes of the messages of a channel.

A channel's row is the head of its messages: it has the next number and the hash of the last
one, and who inserts a message holds its lock until the message is committed.  A message is
inserted in the transaction in which its sender's role was found, after the inspector has
passed it.
-/

namespace Anoryx.Rendly

open ReadCommitted Exclusive Table

variable {F : Type} {d d' d'' : RealtimeDb} {t u : Txn}

/-! ## the specification -/

section Spec

variable (F) (sha256 : ByteArray → String)

/-- The messages of a channel, under its row. -/
def messageLog : HeadLog (String × String) ChannelRow MessageRow String where
  scope row := (row.tenantId, row.channelId)
  seq := MessageRow.seq
  next := ChannelRow.nextSeq
  tip channel := channel.lastRowHash.bind fun hash => if hash = "" then none else some hash
  chain := ⟨messageGenesisHash sha256, MessageRow.prevRecordHash, MessageRow.contentHash, messageHash sha256⟩

/-- The role that was found is the sender's, in this channel, and may post. -/
def Authorized (resolution : Option Resolution) (row : MessageRow) : Prop :=
  ∃ role ∈ postRoles, resolution = some ⟨row.tenantId, row.channelId, row.senderUserId, role⟩

structure MessageInv (d : RealtimeDb) : Prop where
  log : (messageLog sha256).Sound d.channels d.messages
  filed : ∀ k row, d.channels.HasVersion k row → (row.tenantId, row.channelId) = k
  traced : ∀ k row, d.messages.HasVersion k row → ∃ x ∈ d.inserts, x.row = row
  authorized : ∀ x ∈ d.inserts, Authorized x.resolution x.row

structure MessageRely (u : Txn) (d d' : RealtimeDb) : Prop where
  log : (messageLog sha256).Follows u d.channels d'.channels d.messages d'.messages
  resolved : d'.resolved u = d.resolved u

/-- What `t` has written to the messages may be committed. -/
def SettledIn (t : Txn) (d : RealtimeDb) : Prop := (messageLog sha256).Settled t d.channels d.messages

def messageSpec : Exclusive RealtimeDb (RealtimeRequest F) RealtimeAnswer Unit where
  key _ := none
  inv := MessageInv sha256
  rely u _ := MessageRely sha256 u
  rests _ _ := True
  fresh t d := d.channels.Unheld t
  works _ _ _ := True
  post t _ _ := SettledIn sha256 t
  ended _ _ := True
  moves _ _ := True

end Spec

variable {sha256 : ByteArray → String}

theorem MessageRely.refl (u : Txn) (d : RealtimeDb) : MessageRely sha256 u d d := ⟨HeadLog.Follows.refl u, rfl⟩

theorem MessageRely.trans (h : MessageRely sha256 u d d') (h' : MessageRely sha256 u d' d'') : MessageRely sha256 u d d'' :=
  ⟨h.log.trans h'.log, h'.resolved.trans h.resolved⟩

theorem MessageRely.unheld (h : MessageRely sha256 u d d') (hheld : d.channels.Unheld u) : d'.channels.Unheld u :=
  hheld.frame h.log.headFrame

theorem linkOf_eq (channel : ChannelRow) :
    linkOf sha256 channel = ((messageLog sha256).tip channel).getD (messageLog sha256).chain.genesis := by
  unfold linkOf messageLog
  cases hlast : channel.lastRowHash with
  | none => simp [hlast]
  | some hash => by_cases hempty : hash = "" <;> simp [hlast, hempty]

/-! ## statements -/

theorem keeps_of (hinv : MessageInv sha256 d') (hrely : ∀ u, u ≠ t → MessageRely sha256 u d d') :
    (messageSpec F sha256).Keeps t none d d' :=
  ⟨hinv, fun u _ hu _ => hrely u hu, fun _ _ _ => trivial, trivial⟩

/-- A statement that leaves the channels and the messages as they are, and sends nothing. -/
structure Stays (t : Txn) (d d' : RealtimeDb) : Prop where
  channels : d'.channels = d.channels
  messages : d'.messages = d.messages
  inserts : d'.inserts = d.inserts
  deliveries : d'.deliveries = d.deliveries
  resolved : ∀ u, u ≠ t → d'.resolved u = d.resolved u

theorem Stays.keeps (h : Stays t d d') (hinv : MessageInv sha256 d) : (messageSpec F sha256).Keeps t none d d' := by
  obtain ⟨hchannels, hmessages, hinserts, -, hresolved⟩ := h
  refine keeps_of ⟨?_, ?_, ?_, ?_⟩ fun u hu => ⟨?_, hresolved u hu⟩
  · exact hchannels ▸ hmessages ▸ hinv.log
  · exact hchannels ▸ hinv.filed
  · exact hmessages ▸ hinserts ▸ hinv.traced
  · exact hinserts ▸ hinv.authorized
  · rw [hchannels, hmessages]
    exact HeadLog.Follows.refl u

theorem keeps_commit (hinv : MessageInv sha256 d) (hsettled : SettledIn sha256 t d) :
    (messageSpec F sha256).Keeps t none d (Database.commit t d) := by
  obtain ⟨hlog, hfollows⟩ := hinv.log.commit hsettled
  exact keeps_of ⟨hlog, fun k row h => hinv.filed k row h.of_commit, fun k row h => hinv.traced k row h.of_commit,
    hinv.authorized⟩ fun u hu => ⟨hfollows u hu, Function.update_of_ne hu _ _⟩

theorem keeps_rollback (hinv : MessageInv sha256 d) : (messageSpec F sha256).Keeps t none d (Database.rollback t d) := by
  obtain ⟨hlog, hfollows⟩ := hinv.log.rollback t
  exact keeps_of ⟨hlog, fun k row h => hinv.filed k row h.of_rollback, fun k row h => hinv.traced k row h.of_rollback,
    hinv.authorized⟩ fun u hu => ⟨hfollows u hu, Function.update_of_ne hu _ _⟩

variable {k : String × String} {row : MessageRow} {channel : ChannelRow} {inserted b resolverRaises : Bool}
  {role : ChannelRole} {principal : AuthzPrincipal} {channelId messageId : String} {call : ChatSend F}
  {frame : ChatFrame} {outcome : InspectionOutcome} {conns : List ConnId}

theorem keeps_writeChannel {row : ChannelRow} (hinv : MessageInv sha256 d) (hfree : d.channels.free t k = true)
    (hk : (row.tenantId, row.channelId) = k) :
    (messageSpec F sha256).Keeps t none d { d with channels := d.channels.write t k row } := by
  obtain ⟨hlog, hfollows⟩ := hinv.log.writeHead hfree
  refine keeps_of ⟨hlog, fun k' row' h => ?_, hinv.traced, hinv.authorized⟩ fun u hu => ⟨hfollows u hu, rfl⟩
  rcases h.of_write with h | ⟨rfl, rfl⟩
  · exact hinv.filed k' row' h
  · exact hk

theorem keeps_insertMessageRow (hinv : MessageInv sha256 d)
    (hhead : d.channels.inflight (row.tenantId, row.channelId) = some (t, channel))
    (hauthorized : Authorized (d.resolved t) row) (h : insertMessageRow row t d = some (inserted, d')) :
    (messageSpec F sha256).Keeps t none d d' := by
  obtain ⟨⟨b, messages⟩, hins, he⟩ := Option.map_eq_some_iff.mp h
  cases he
  obtain ⟨hlog, hfollows⟩ := hinv.log.insertEntry hhead hins
  refine keeps_of ⟨hlog, hinv.filed, fun k row' hrow => ?_, fun x hx => ?_⟩ fun u hu => ⟨hfollows u hu, rfl⟩
  · have hold : d.messages.HasVersion k row' ∨ row' = row := by
      rcases insertOrIgnore_cases hins with ⟨-, rfl, -⟩ | ⟨-, rfl, -, -⟩
      · exact .inl hrow
      · exact hrow.of_write.imp_right And.right
    rcases hold with hold | rfl
    · obtain ⟨x, hx, he⟩ := hinv.traced k row' hold
      exact ⟨x, List.mem_append_left _ hx, he⟩
    · exact ⟨_, List.mem_append_right _ List.mem_cons_self, rfl⟩
  · rcases List.mem_append.mp hx with hx | hx
    · exact hinv.authorized x hx
    · obtain rfl := List.mem_singleton.mp hx
      exact hauthorized

/-! ## the programs -/

section Programs

variable {req : RealtimeRequest F} {users : String → String → Bool}

theorem stays_refl (t : Txn) (d : RealtimeDb) : Stays t d d := ⟨rfl, rfl, rfl, rfl, fun _ _ => rfl⟩

theorem stays_query {γ : Type} (f : Txn → RealtimeDb → γ) : StepsOf t (Stays t) (Prog.query f : RealtimeProg γ) :=
  StepsOf.query (stays_refl t)

theorem stays_insertMembership {key : String × String × String} {addedAt : DateTime}
    (h : insertMembership key role addedAt t d = some (b, d')) : Stays t d d' := by
  unfold insertMembership at h
  split at h
  · contradiction
  split at h
  all_goals
    cases h
    exact ⟨rfl, rfl, rfl, rfl, fun _ _ => rfl⟩

theorem stays_deleteMembership (key : String × String × String) : StepsOf t (Stays t) (deleteMembership key) := by
  refine (stays_query _).bind fun found => ?_
  cases found with
  | none => trivial
  | some row =>
      refine StepsOf.exec fun d x d' h => ?_
      unfold deleteFound at h
      split at h
      · contradiction
      split at h
      all_goals
        cases h
        exact ⟨rfl, rfl, rfl, rfl, fun _ _ => rfl⟩

theorem stays_allowedIn (principal : AuthzPrincipal) (channelId : String) (action : ChannelAction) (resolverRaises : Bool) :
    StepsOf t (Stays t) (allowedIn principal channelId action resolverRaises) := by
  refine (stays_query _).bind fun channel => ?_
  cases channel with
  | none => trivial
  | some channel =>
      refine StepsOf.bind ?_ fun decision => trivial
      unfold authorize
      split
      · trivial
      split
      · trivial
      split
      · trivial
      refine (StepsOf.exec fun d x d' h => ?_).bind fun role => ?_
      · cases h
        exact ⟨rfl, rfl, rfl, rfl, fun _ hu => Function.update_of_ne hu _ _⟩
      · split <;> trivial

theorem stays_requireScope (scope : String) (principal : AuthzPrincipal) :
    StepsOf t (Stays t) (requireScope scope principal) := by
  unfold requireScope
  split <;> trivial

theorem stays_requireAllowed (principal : AuthzPrincipal) (channelId : String) (action : ChannelAction) (resolverRaises : Bool) :
    StepsOf t (Stays t) (requireAllowed principal channelId action resolverRaises) := by
  refine (stays_allowedIn ..).bind fun allowed => ?_
  cases allowed <;> trivial

theorem wp_unheld {γ : Type} {p : RealtimeProg γ} (hp : StepsOf t (Stays t) p) (hheld : d.channels.Unheld t) :
    (messageSpec F sha256).wp t req (fun _ d' => d'.channels.Unheld t) p d :=
  wp_knowing hp (fun _ _ _ hr h => MessageRely.unheld hr h)
    (fun _ _ hinv _ h hstays _ => ⟨hstays.keeps hinv, trivial, hstays.channels ▸ h⟩) (fun _ _ _ => trivial) hheld

theorem wp_settled {γ : Type} {p : RealtimeProg γ} (hp : StepsOf t (Stays t) p) (hsettled : SettledIn sha256 t d) :
    (messageSpec F sha256).wp t req (fun _ => SettledIn sha256 t) p d := by
  refine wp_knowing hp (fun _ _ _ hr h => HeadLog.Settled.follows h (MessageRely.log hr))
    (fun d d' hinv _ h hstays _ => ⟨hstays.keeps hinv, trivial, ?_⟩) (fun _ _ _ => trivial) hsettled
  unfold SettledIn
  rw [hstays.channels, hstays.messages]
  exact h

theorem settledIn_of_unheld (hheld : d.channels.Unheld t) : SettledIn sha256 t d := HeadLog.settled_of_unheld hheld

theorem wp_connect_messages {call : Connect} (hheld : d.channels.Unheld t) :
    (messageSpec F sha256).wp t req (fun _ => SettledIn sha256 t) (connect call) d := by
  unfold connect
  split
  · exact fun _ _ hr _ => settledIn_of_unheld (MessageRely.unheld hr hheld)
  refine wp_exec_bind fun d₁ h₁ hr₁ _ channelIds d₂ hselect => ?_
  have hheld₁ := MessageRely.unheld hr₁ hheld
  cases hselect
  refine ⟨Stays.keeps ⟨rfl, rfl, rfl, rfl, fun _ _ => rfl⟩ h₁, trivial, ?_⟩
  refine wp_exec_bind fun d₃ h₃ hr₃ _ _ d₄ hclose => ?_
  cases hclose
  have hkeeps : (messageSpec F sha256).Keeps t none d₃ (Database.rollback t d₃) := keeps_rollback h₃
  refine ⟨keeps_of ⟨hkeeps.inv.log, hkeeps.inv.filed, hkeeps.inv.traced, hkeeps.inv.authorized⟩ fun u hu => ?_, trivial, ?_⟩
  · have hrely : MessageRely sha256 u d₃ (Database.rollback t d₃) := hkeeps.rely u none hu fun _ h => by contradiction
    exact ⟨hrely.log, hrely.resolved⟩
  refine wp_exec_bind fun d₅ h₅ hr₅ _ _ d₆ hregister => ?_
  have hheld₅ := MessageRely.unheld hr₅ (unheld_rollback d₃.channels t)
  unfold register at hregister
  split at hregister
  · cases hregister
    refine ⟨Stays.keeps ⟨rfl, rfl, rfl, rfl, fun _ _ => rfl⟩ h₅, trivial, fun _ _ hr _ => ?_⟩
    exact settledIn_of_unheld (MessageRely.unheld hr hheld₅)
  · contradiction

theorem stays_disconnect (conn : ConnId) : StepsOf t (Stays t) (disconnect conn) := by
  refine (StepsOf.exec fun d x d' h => ?_).bind fun _ => trivial
  unfold discardConnection at h
  split at h
  all_goals
    cases h
    exact ⟨rfl, rfl, rfl, rfl, fun _ _ => rfl⟩

theorem stays_upsertMember (call : MemberCall) : StepsOf t (Stays t) (upsertMember users call) := by
  refine (stays_requireScope ..).bind fun _ => (stays_requireAllowed ..).bind fun _ => ?_
  split
  · exact (stays_deleteMembership _).bind fun _ =>
      (StepsOf.inserting fun _ _ _ => stays_insertMembership).bind fun _ => trivial
  · trivial

theorem wp_removeMember {call : MemberCall} (hinv : MessageInv sha256 d) (hheld : d.channels.Unheld t) :
    (messageSpec F sha256).wp t req (fun _ => SettledIn sha256 t) (removeMember call) d := by
  refine wp_bind (MessageRely.refl t) hinv trivial
    (wp_mono (fun _ d₁ h₁ _ hheld₁ => ?_) (wp_unheld (stays_requireScope ..) hheld))
  refine wp_bind (MessageRely.refl t) h₁ trivial
    (wp_mono (fun _ d₂ h₂ _ hheld₂ => ?_) (wp_unheld (stays_requireAllowed ..) hheld₁))
  refine wp_bind (MessageRely.refl t) h₂ trivial
    (wp_mono (fun _ d₃ h₃ _ hheld₃ => ?_) (wp_unheld (stays_deleteMembership _) hheld₂))
  refine wp_commitWork_bind fun d₄ h₄ hr₄ _ => ?_
  refine ⟨keeps_commit h₄ (settledIn_of_unheld (MessageRely.unheld hr₄ hheld₃)), trivial, ?_⟩
  refine wp_exec_bind fun d₅ h₅ hr₅ _ _ d₆ hevict => ?_
  have hheld₅ := MessageRely.unheld hr₅ (unheld_commit d₄.channels t)
  cases hevict
  refine ⟨Stays.keeps ⟨rfl, rfl, rfl, rfl, fun _ _ => rfl⟩ h₅, trivial, fun _ _ hr _ => ?_⟩
  exact settledIn_of_unheld (MessageRely.unheld hr hheld₅)

/-- Creating a channel leaves the message log settled. -/
theorem wp_createChannel {call : CreateChannel} (hinv : MessageInv sha256 d) (hheld : d.channels.Unheld t) :
    (messageSpec F sha256).wp t req (fun _ => SettledIn sha256 t) (createChannel users call) d := by
  refine wp_bind (MessageRely.refl t) hinv trivial
    (wp_mono (fun _ d₁ h₁ _ hheld₁ => ?_) (wp_unheld (stays_requireScope ..) hheld))
  refine wp_inserting_bind fun d₂ h₂ hr₂ _ b d₃ hinsert => ?_
  have hheld₂ := MessageRely.unheld hr₂ hheld₁
  obtain ⟨⟨b', channels⟩, hins, he⟩ := Option.map_eq_some_iff.mp hinsert
  cases he
  rcases insertOrIgnore_cases hins with ⟨rfl, rfl, -⟩ | ⟨rfl, rfl, hin, hcommitted⟩
  · exact ⟨Stays.keeps (stays_refl t d₂) h₂, trivial, fun _ _ _ _ => trivial⟩
  have hfree : d₂.channels.free t (call.principal.tenantId, call.channelId) = true :=
    free_iff.mpr fun u v hv => absurd (hin.symm.trans hv) (Option.some_ne_none _).symm
  have hnew : (messageLog sha256).Numbered (some call.row) (d₂.messages.visible t)
      (call.principal.tenantId, call.channelId) := by
    have hnone := h₂.log.numbered_of_unheld hheld₂ (call.row.tenantId, call.row.channelId)
    rw [hheld₂.visible, hcommitted] at hnone
    exact hnone.create rfl rfl
  refine ⟨keeps_writeChannel h₂ hfree rfl, trivial, ?_⟩
  rw [if_pos rfl]
  refine wp_settled ?_ fun k h hin => ?_
  rotate_left
  · obtain ⟨rfl, rfl⟩ := (hheld₂.write (call.principal.tenantId, call.channelId) call.row).unique hin
    exact hnew
  split
  · exact (StepsOf.inserting fun _ _ _ => stays_insertMembership).bind fun _ => trivial
  · trivial

theorem wp_mapChannelTeam {call : MapChannelTeam} (hinv : MessageInv sha256 d) (hheld : d.channels.Unheld t) :
    (messageSpec F sha256).wp t req (fun _ => SettledIn sha256 t) (mapChannelTeam call) d := by
  refine wp_bind (MessageRely.refl t) hinv trivial
    (wp_mono (fun _ d₁ h₁ _ hheld₁ => ?_) (wp_unheld (stays_requireScope ..) hheld))
  refine wp_bind (MessageRely.refl t) h₁ trivial
    (wp_mono (fun _ d₂ h₂ _ hheld₂ => ?_) (wp_unheld (stays_requireAllowed ..) hheld₁))
  refine wp_exec_bind fun d₃ h₃ hr₃ _ updated d₄ hmap => ?_
  have hheld₃ := MessageRely.unheld hr₃ hheld₂
  obtain ⟨⟨r, channels⟩, hupd, he⟩ := Option.map_eq_some_iff.mp hmap
  cases he
  rcases updateWhere_cases hupd with ⟨rfl, rfl, -⟩ | ⟨channel, hvisible, -, hfree, rfl, rfl⟩
  · exact ⟨Stays.keeps (stays_refl t d₃) h₃, trivial, fun _ _ _ _ => trivial⟩
  have hfiled := h₃.filed _ channel (.of_visible hvisible)
  refine ⟨keeps_writeChannel h₃ hfree hfiled, trivial, fun d₅ _ hr₅ _ => ?_⟩
  refine HeadLog.Settled.follows (fun k h hin => ?_) (MessageRely.log hr₅)
  obtain ⟨rfl, rfl⟩ := (hheld₃.write (call.principal.tenantId, call.channelId) _).unique hin
  have hnumbered := h₃.log.numbered_of_unheld hheld₃ (call.principal.tenantId, call.channelId)
  rw [hvisible] at hnumbered
  exact hnumbered.head rfl rfl

/-! ## a message is sent -/

theorem mem_postRoles_of_evaluate {type : ChannelType} {role : Option ChannelRole} (h : evaluate type role .post = true) :
    ∃ r ∈ postRoles, role = some r := by
  cases role with
  | none => contradiction
  | some r => exact ⟨r, of_decide_eq_true h, rfl⟩

theorem wp_authorize_post (hheld : d.channels.Unheld t) :
    (messageSpec F sha256).wp t req (fun decision d' => d'.channels.Unheld t ∧ (decision.allowed = true →
      ∃ role ∈ postRoles, d'.resolved t = some ⟨principal.tenantId, channel.channelId, principal.userId, role⟩))
      (authorize principal channel .post resolverRaises) d := by
  have hdeny : ∀ {reason d}, d.channels.Unheld t → (messageSpec F sha256).wp t req (fun (decision : Decision) d' =>
      d'.channels.Unheld t ∧ (decision.allowed = true →
        ∃ role ∈ postRoles, d'.resolved t = some ⟨principal.tenantId, channel.channelId, principal.userId, role⟩))
      (pure (.deny reason) : RealtimeProg Decision) d := fun hheld _ _ hr _ =>
    ⟨MessageRely.unheld hr hheld, fun h => by contradiction⟩
  unfold authorize
  split
  · exact hdeny hheld
  split
  · exact hdeny hheld
  split
  · exact hdeny hheld
  refine wp_exec_bind fun d₁ h₁ hr₁ _ role d₂ hrole => ?_
  have hheld₁ := MessageRely.unheld hr₁ hheld
  cases hrole
  refine ⟨Stays.keeps ⟨rfl, rfl, rfl, rfl, fun _ hu => Function.update_of_ne hu _ _⟩ h₁, trivial, ?_⟩
  split
  · next heval =>
      obtain ⟨r, hr, hsome⟩ := mem_postRoles_of_evaluate heval
      obtain ⟨row, hrow, rfl⟩ := Option.map_eq_some_iff.mp hsome
      refine fun d₃ _ hr₃ _ => ⟨MessageRely.unheld hr₃ hheld₁, fun _ => ⟨row.role, hr, ?_⟩⟩
      rw [MessageRely.resolved hr₃, hrow]
      exact Function.update_self ..
  · exact hdeny hheld₁

theorem wp_allowedIn_post (hheld : d.channels.Unheld t) :
    (messageSpec F sha256).wp t req (fun allowed d' => d'.channels.Unheld t ∧ (allowed = true →
      ∃ role ∈ postRoles, d'.resolved t = some ⟨principal.tenantId, channelId, principal.userId, role⟩))
      (allowedIn principal channelId .post resolverRaises) d := by
  refine wp_query_bind (fun u _ => MessageRely.refl u) (fun _ => trivial) fun d₁ h₁ hr₁ _ => ?_
  have hheld₁ := MessageRely.unheld hr₁ hheld
  cases hfound : loadChannel principal.tenantId channelId t d₁ with
  | none => exact fun _ _ hr _ => ⟨MessageRely.unheld hr hheld₁, fun h => by contradiction⟩
  | some channel =>
      have hchannel : channel.channelId = channelId := congrArg Prod.snd (h₁.filed _ channel (.of_visible hfound))
      subst hchannel
      refine wp_bind (MessageRely.refl t) h₁ trivial
        (wp_mono (fun decision d₂ _ _ h => ?_) (wp_authorize_post hheld₁))
      intro d₃ _ hr₃ _
      refine ⟨MessageRely.unheld hr₃ h.1, fun hallowed => ?_⟩
      rw [MessageRely.resolved hr₃]
      exact h.2 hallowed

/-- A message is numbered and linked under its channel's lock. -/
theorem wp_flushMessage (hsha : ∀ b, sha256 b ≠ "") (hk : (row.tenantId, row.channelId) = k)
    (hholds : d.channels.HoldsOnly t k channel) (hfiled : (channel.tenantId, channel.channelId) = k)
    (hnumbered : (messageLog sha256).Numbered (some channel) (d.messages.visible t) k)
    (hauthorized : Authorized (d.resolved t) row) (hseq : row.seq = channel.nextSeq)
    (hprev : row.prevRecordHash = linkOf sha256 channel) (hhash : row.contentHash = messageHash sha256 row) :
    (messageSpec F sha256).wp t req (fun _ => SettledIn sha256 t) (flushMessage row) d := by
  unfold flushMessage
  split
  · exact fun _ _ _ _ => trivial
  split
  · exact fun _ _ _ _ => trivial
  refine wp_inserting_bind fun d₁ h₁ hr₁ _ inserted d₂ hinsert => ?_
  have hholds₁ := hholds.frame hr₁.log.headFrame
  have hnumbered₁ := hnumbered.follows hholds.holds hr₁.log
  have hkeeps : (messageSpec F sha256).Keeps t none d₁ d₂ := keeps_insertMessageRow h₁ (hk ▸ hholds₁.holds) (by rwa [MessageRely.resolved hr₁]) hinsert
  refine ⟨hkeeps, trivial, ?_⟩
  obtain ⟨⟨b, messages⟩, hins, he⟩ := Option.map_eq_some_iff.mp hinsert
  cases he
  rcases insertOrIgnore_cases hins with ⟨rfl, rfl, -⟩ | ⟨rfl, rfl, hin, hcommitted⟩
  · exact fun _ _ _ _ => trivial
  rw [if_pos rfl]
  -- the message is there, and the channel does not count it yet
  have hadvanced : (messageLog sha256).Numbered
      (some { channel with nextSeq := row.seq + 1, lastRowHash := some row.contentHash })
      ((d₁.messages.write t (row.tenantId, row.messageId) row).visible t) k := by
    have hfresh : d₁.messages.visible t (row.tenantId, row.messageId) = none :=
      (visible_of_inflight_none hin).trans hcommitted
    have hnonempty : row.contentHash ≠ "" := hhash ▸ hsha _
    rw [visible_write]
    refine hnumbered₁.append hfresh hk hseq (hprev.trans (linkOf_eq channel)) hhash (congrArg (· + 1) hseq) ?_
    simp [messageLog, hnonempty]
  refine wp_exec_bind fun d₃ h₃ hr₃ _ updated d₄ hadvance => ?_
  have hholds₃ := hholds₁.frame (MessageRely.log hr₃).headFrame
  have hadvanced₃ := hadvanced.follows hholds₁.holds (MessageRely.log hr₃)
  obtain ⟨⟨r, channels⟩, hupd, he⟩ := Option.map_eq_some_iff.mp hadvance
  cases he
  have hvisible := visible_of_inflight hholds₃.holds
  rw [← hk] at hvisible
  rcases updateWhere_cases hupd with ⟨-, -, hno⟩ | ⟨v, hv, -, hfree, -, rfl⟩
  · exact absurd (hno channel hvisible) (by decide)
  obtain rfl : v = channel := Option.some.inj (hv.symm.trans hvisible)
  refine ⟨keeps_writeChannel h₃ hfree (hfiled.trans hk.symm), trivial, fun d₅ _ hr₅ _ => ?_⟩
  refine HeadLog.Settled.follows (fun k' h hin' => ?_) (MessageRely.log hr₅)
  obtain ⟨rfl, rfl⟩ := (HoldsOnly.write (hk ▸ hholds₃) _).unique hin'
  exact hk ▸ hadvanced₃

theorem wp_persistMessage (hsha : ∀ b, sha256 b ≠ "") (hheld : d.channels.Unheld t) (hrole : role ∈ postRoles)
    (hresolved : d.resolved t = some ⟨call.principal.tenantId, frame.channelId, call.principal.userId, role⟩) :
    (messageSpec F sha256).wp t req (fun _ => SettledIn sha256 t) (persistMessage sha256 call frame outcome) d := by
  unfold persistMessage
  cases frame.content.encode with
  | none => exact fun _ _ _ _ => trivial
  | some content =>
      refine wp_exec_bind fun d₁ h₁ hr₁ _ found d₂ hlock => ?_
      have hheld₁ := MessageRely.unheld hr₁ hheld
      obtain ⟨⟨r, channels⟩, hupd, he⟩ := Option.map_eq_some_iff.mp hlock
      cases he
      rcases updateWhere_cases hupd with ⟨rfl, rfl, -⟩ | ⟨channel, hvisible, -, hfree, rfl, rfl⟩
      · exact ⟨Stays.keeps (stays_refl t d₁) h₁, trivial, fun _ _ _ _ => trivial⟩
      have hfiled := h₁.filed _ channel (.of_visible hvisible)
      refine ⟨keeps_writeChannel h₁ hfree hfiled, trivial, ?_⟩
      have hvisible : d₁.channels.visible t (call.principal.tenantId, frame.channelId) = some channel := hvisible
      have hnumbered := h₁.log.numbered_of_unheld hheld₁ (call.principal.tenantId, frame.channelId)
      rw [hvisible] at hnumbered
      exact wp_flushMessage hsha rfl (hheld₁.write _ _) hfiled hnumbered
        ⟨role, hrole, (MessageRely.resolved hr₁).trans hresolved⟩ rfl rfl rfl

theorem keeps_broadcast (hinv : MessageInv sha256 d) {deliveries : List Delivery}
    {audience : Txn → Option ((String × String) × List ConnId)} :
    (messageSpec F sha256).Keeps t none d { d with deliveries := deliveries, audience := audience } :=
  keeps_of ⟨hinv.log, hinv.filed, hinv.traced, hinv.authorized⟩ fun u _ => ⟨HeadLog.Follows.refl u, rfl⟩

theorem wp_sendFrames_messages {channel : String × String} (hheld : d.channels.Unheld t) :
    (messageSpec F sha256).wp t req (fun _ d' => d'.channels.Unheld t) (sendFrames channel messageId conns) d := by
  induction conns generalizing d with
  | nil => exact fun _ _ hr _ => MessageRely.unheld hr hheld
  | cons conn conns ih =>
      refine wp_exec_bind fun d₁ h₁ hr₁ _ _ d₂ hsend => ?_
      have hheld₁ := MessageRely.unheld hr₁ hheld
      cases hsend
      exact ⟨keeps_broadcast h₁, trivial, ih hheld₁⟩

theorem wp_sendPassed_messages (hsha : ∀ b, sha256 b ≠ "") (hinv : MessageInv sha256 d) (hheld : d.channels.Unheld t) :
    (messageSpec F sha256).wp t req (fun _ => SettledIn sha256 t) (sendPassed sha256 call frame outcome) d := by
  refine wp_bind (MessageRely.refl t) hinv trivial
    (wp_mono (fun allowed d₁ h₁ _ h => ?_) (wp_allowedIn_post hheld))
  obtain ⟨hheld₁, hallowed⟩ := h
  cases allowed with
  | false => exact fun _ _ hr _ => settledIn_of_unheld (MessageRely.unheld hr hheld₁)
  | true =>
      obtain ⟨role, hrole, hresolved⟩ := hallowed rfl
      refine wp_bind (MessageRely.refl t) h₁ trivial
        (wp_mono (fun message d₂ h₂ _ hsettled => ?_) (wp_persistMessage hsha hheld₁ hrole hresolved))
      refine wp_commitWork_bind fun d₃ h₃ hr₃ _ => ?_
      refine ⟨keeps_commit h₃ (HeadLog.Settled.follows hsettled (MessageRely.log hr₃)), trivial, ?_⟩
      have hheld₃ : (Database.commit t d₃).channels.Unheld t := unheld_commit d₃.channels t
      refine wp_exec_bind fun d₄ h₄ hr₄ _ conns d₅ hsnapshot => ?_
      have hheld₄ := MessageRely.unheld hr₄ hheld₃
      cases hsnapshot
      refine ⟨keeps_broadcast h₄, trivial, ?_⟩
      refine wp_bind (MessageRely.refl t) ⟨h₄.log, h₄.filed, h₄.traced, h₄.authorized⟩ trivial
        (wp_mono (fun _ d₆ _ _ hheld₆ => ?_) (wp_sendFrames_messages hheld₄))
      exact fun _ _ hr _ => settledIn_of_unheld (MessageRely.unheld hr hheld₆)

/-- A message that is sent is in its channel, in order, or nowhere. -/
theorem wp_handleChatSend_messages (hsha : ∀ b, sha256 b ≠ "") (hinv : MessageInv sha256 d)
    (hheld : d.channels.Unheld t) :
    (messageSpec F sha256).wp t req (fun _ => SettledIn sha256 t) (handleChatSend sha256 call) d := by
  -- an answer without more ado
  have hanswer : ∀ {answer d}, d.channels.Unheld t →
      (messageSpec F sha256).wp t req (fun _ => SettledIn sha256 t) (pure answer : RealtimeProg RealtimeAnswer) d :=
    fun hheld _ _ hr _ => settledIn_of_unheld (MessageRely.unheld hr hheld)
  unfold handleChatSend
  cases chatFrame call.data with
  | error answer => exact hanswer hheld
  | ok frame =>
      refine wp_bind (MessageRely.refl t) hinv trivial
        (wp_mono (fun allowed d₁ h₁ _ hheld₁ => ?_) (wp_unheld (stays_allowedIn ..) hheld))
      refine wp_rollbackWork_bind fun d₂ h₂ hr₂ _ => ?_
      have hkeeps : (messageSpec F sha256).Keeps t none d₂ (Database.rollback t d₂) := keeps_rollback h₂
      refine ⟨hkeeps, trivial, ?_⟩
      have hheld₂ : (Database.rollback t d₂).channels.Unheld t := unheld_rollback d₂.channels t
      cases allowed with
      | false => exact hanswer hheld₂
      | true =>
          show (messageSpec F sha256).wp t _ _ (sendInspected sha256 call frame) _
          unfold sendInspected
          cases call.inspection with
          | none => exact hanswer hheld₂
          | some outcome =>
              obtain ⟨status, evaluatedAt, detectors⟩ := outcome
              cases status with
              | pass => exact wp_sendPassed_messages hsha hkeeps.inv hheld₂
              | blocked => exact hanswer hheld₂
              | seamUnavailable => exact hanswer hheld₂

end Programs

theorem messageSpec_sound (F : Type) (users : String → String → Bool) (hsha : ∀ b, sha256 b ≠ "") :
    (messageSpec F sha256).Sound (serveRealtime sha256 users) where
  refl u _ := MessageRely.refl u
  trans := MessageRely.trans
  moves_refl _ := trivial
  moves_trans _ _ := trivial
  fresh_rely _ hr h := MessageRely.unheld hr h
  ended_rely _ _ h := h
  works_rely _ _ h := h
  body {t req d} hinv _ hheld _ := by
    have hsettles : ∀ {p : RealtimeProg RealtimeAnswer}, StepsOf t (Stays t) p →
        (messageSpec F sha256).wp t req (fun _ => SettledIn sha256 t) p d := fun hp =>
      wp_settled hp (settledIn_of_unheld hheld)
    refine ⟨trivial, ?_⟩
    cases req with
    | connect call => exact wp_connect_messages hheld
    | disconnect conn => exact hsettles (stays_disconnect conn)
    | chatSend call => exact wp_handleChatSend_messages hsha hinv hheld
    | createChannel call => exact wp_createChannel hinv hheld
    | upsertMember call => exact hsettles (stays_upsertMember call)
    | removeMember call => exact wp_removeMember hinv hheld
    | mapChannelTeam call => exact wp_mapChannelTeam hinv hheld
  commit hinv _ hsettled _ _ := ⟨keeps_commit hinv hsettled, fun _ _ => trivial, trivial⟩
  rollback hinv _ _ _ := ⟨keeps_rollback hinv, fun _ _ => trivial, trivial⟩
  skips_rely _ _ h := h
  aside _ hskips _ := absurd hskips id
  leave _ hskips _ := absurd hskips id

/-! ## what was done -/

/-- What no rollback takes back: the inserts of messages, and the frames that were sent -/
def RealtimeDb.effects (d : RealtimeDb) : List (MessageInsert ⊕ Delivery) := d.inserts.map .inl ++ d.deliveries.map .inr

def effectAuthor : MessageInsert ⊕ Delivery → Txn
  | .inl x => x.txn
  | .inr x => x.txn

/-- The inspector has passed the frame, and the sender has the scope to post. -/
structure ChatSend.Passes (call : ChatSend F) (frame : ChatFrame) (outcome : InspectionOutcome) : Prop where
  frame : chatFrame call.data = .ok frame
  inspection : call.inspection = some outcome
  pass : outcome.status = .pass
  scope : "chat:write" ∈ call.principal.scopes

structure SentAs (call : ChatSend F) (frame : ChatFrame) (outcome : InspectionOutcome) (row : MessageRow) : Prop where
  messageId : row.messageId = call.messageId
  channel : (row.tenantId, row.channelId) = (call.principal.tenantId, frame.channelId)
  sender : row.senderUserId = call.principal.userId
  content : frame.content.encode = some row.content
  contentType : row.contentType = frame.contentType
  createdAt : row.createdAt = call.createdAt
  inspection : (row.inspectionEvaluatedAt, row.detectors) = (outcome.evaluatedAt, outcome.detectors)

def MayDo (t : Txn) (req : RealtimeRequest F) : MessageInsert ⊕ Delivery → Prop
  | .inl x => x.txn = t ∧ ∃ call frame outcome, req = .chatSend call ∧ call.Passes frame outcome ∧ SentAs call frame outcome x.row
  | .inr x => x.txn = t ∧ ∃ call frame outcome, req = .chatSend call ∧ call.Passes frame outcome ∧
      x.channel = (call.principal.tenantId, frame.channelId)

section Effects

variable {users : String → String → Bool} {P : MessageInsert ⊕ Delivery → Prop}

/-- Nothing is inserted or sent. -/
def Quiet (d d' : RealtimeDb) : Prop := d'.inserts = d.inserts ∧ d'.deliveries = d.deliveries

theorem quiet_of_stays {γ : Type} {p : RealtimeProg γ} (h : StepsOf t (Stays t) p) : StepsOf t Quiet p :=
  h.mono fun _ _ hstays => ⟨hstays.inserts, hstays.deliveries⟩

/-- Nobody else writes a message. -/
theorem quiet_serveRealtime {req : RealtimeRequest F} (hreq : ∀ call, req ≠ .chatSend call) :
    StepsOf t Quiet (serveRealtime sha256 users req) := by
  cases req with
  | connect call =>
      show StepsOf t Quiet (connect call)
      unfold connect
      split
      · trivial
      refine StepsOf.bind (.exec fun d x d' h => ?_) fun _ => StepsOf.bind (.exec fun d x d' h => ?_) fun _ =>
        StepsOf.bind (.exec fun d x d' h => ?_) fun _ => trivial
      · cases h
        exact ⟨rfl, rfl⟩
      · cases h
        exact ⟨rfl, rfl⟩
      · unfold register at h
        split at h
        · cases h
          exact ⟨rfl, rfl⟩
        · contradiction
  | disconnect conn => exact quiet_of_stays (stays_disconnect conn)
  | chatSend call => exact absurd rfl (hreq call)
  | createChannel call =>
      refine StepsOf.bind (quiet_of_stays (stays_requireScope ..)) fun _ =>
        StepsOf.bind (.inserting fun d b d' h => ?_) fun _ => ?_
      · obtain ⟨p, -, he⟩ := Option.map_eq_some_iff.mp h
        cases he
        exact ⟨rfl, rfl⟩
      · split
        · exact StepsOf.bind (quiet_of_stays (.inserting fun _ _ _ => stays_insertMembership)) fun _ => trivial
        · trivial
  | upsertMember call => exact quiet_of_stays (stays_upsertMember call)
  | removeMember call =>
      refine StepsOf.bind (quiet_of_stays (stays_requireScope ..)) fun _ =>
        StepsOf.bind (quiet_of_stays (stays_requireAllowed ..)) fun _ =>
          StepsOf.bind (quiet_of_stays (stays_deleteMembership _)) fun _ =>
            StepsOf.bind (.exec fun d x d' h => ?_) fun _ =>
              StepsOf.bind (.exec fun d x d' h => ?_) fun _ => trivial
      all_goals
        cases h
        exact ⟨rfl, rfl⟩
  | mapChannelTeam call =>
      refine StepsOf.bind (quiet_of_stays (stays_requireScope ..)) fun _ =>
        StepsOf.bind (quiet_of_stays (stays_requireAllowed ..)) fun _ =>
          StepsOf.bind (.exec fun d x d' h => ?_) fun updated => ?_
      · obtain ⟨p, -, he⟩ := Option.map_eq_some_iff.mp h
        cases he
        exact ⟨rfl, rfl⟩
      · cases updated <;> trivial

theorem does_of_quiet {γ : Type} {p : RealtimeProg γ} (h : StepsOf t Quiet p) :
    p.Does RealtimeDb.effects P t := by
  refine Prog.Does.of_stepsOf (fun d d' hquiet => ?_) h
  unfold RealtimeDb.effects
  rw [hquiet.1, hquiet.2]

theorem allowedIn_of_no_scope {principal : AuthzPrincipal} {channelId : String} {resolverRaises : Bool}
    (h : "chat:write" ∉ principal.scopes) : allowedIn principal channelId .post resolverRaises =
      Prog.query (loadChannel principal.tenantId channelId) >>= fun _ => pure false := by
  unfold allowedIn
  congr 1
  funext channel
  cases channel with
  | none => rfl
  | some channel =>
      show (authorize principal channel .post resolverRaises >>= fun decision => pure decision.allowed) = pure false
      rw [authorize, if_pos (show requiredScope .post ∉ principal.scopes from h)]
      rfl

theorem does_persistMessage (hpasses : call.Passes frame outcome) :
    (persistMessage sha256 call frame outcome).Does RealtimeDb.effects (MayDo t (.chatSend call)) t := by
  unfold persistMessage
  cases hcontent : frame.content.encode with
  | none => trivial
  | some content =>
      refine Prog.Does.bind (.exec_same fun d x d' h => ?_) fun found => ?_
      · obtain ⟨p, -, he⟩ := Option.map_eq_some_iff.mp h
        cases he
        rfl
      cases found with
      | none => trivial
      | some channel =>
          show (flushMessage _).Does _ _ _
          unfold flushMessage
          split
          · trivial
          split
          · trivial
          refine Prog.Does.bind (.inserting fun d b d' h e he => ?_) fun _ =>
            Prog.Does.bind (.exec_same fun d x d' h => ?_) fun _ => trivial
          · obtain ⟨p, -, hd⟩ := Option.map_eq_some_iff.mp h
            cases hd
            simp only [RealtimeDb.effects, List.map_append, List.append_assoc, List.mem_append, List.mem_map,
              List.map_cons, List.map_nil, List.mem_singleton] at he ⊢
            rcases he with hold | rfl | hold
            · exact .inl (.inl hold)
            · exact .inr ⟨rfl, call, frame, outcome, rfl, hpasses, ⟨rfl, rfl, rfl, hcontent, rfl, rfl, rfl⟩⟩
            · exact .inl (.inr hold)
          · obtain ⟨p, -, he⟩ := Option.map_eq_some_iff.mp h
            cases he
            rfl

theorem does_sendFrames (hpasses : call.Passes frame outcome) :
    (sendFrames (call.principal.tenantId, frame.channelId) messageId conns).Does RealtimeDb.effects
      (MayDo t (.chatSend call)) t := by
  induction conns with
  | nil => trivial
  | cons conn conns ih =>
      refine Prog.Does.bind (.exec fun d x d' h e he => ?_) fun _ => ih
      cases h
      simp only [RealtimeDb.effects, List.map_append, List.mem_append, List.map_cons, List.map_nil, List.mem_singleton] at he ⊢
      rcases he with hold | hold | rfl
      · exact .inl (.inl hold)
      · exact .inl (.inr hold)
      · exact .inr ⟨rfl, call, frame, outcome, rfl, hpasses, rfl⟩

theorem does_sendPassed (hframe : chatFrame call.data = .ok frame) (hinspection : call.inspection = some outcome)
    (hpass : outcome.status = .pass) :
    (sendPassed sha256 call frame outcome).Does RealtimeDb.effects (MayDo t (.chatSend call)) t := by
  unfold sendPassed
  by_cases hscope : "chat:write" ∈ call.principal.scopes
  · have hpasses : call.Passes frame outcome := ⟨hframe, hinspection, hpass, hscope⟩
    refine Prog.Does.bind (does_of_quiet (quiet_of_stays (stays_allowedIn ..))) fun allowed => ?_
    cases allowed with
    | false => trivial
    | true =>
        refine Prog.Does.bind (does_persistMessage hpasses) fun message =>
          Prog.Does.bind (.commitWork fun _ => rfl) fun _ => Prog.Does.bind ?_ fun _ => trivial
        refine Prog.Does.bind (.exec_same fun d x d' h => ?_) fun conns => does_sendFrames hpasses
        cases h
        rfl
  · rw [allowedIn_of_no_scope hscope]
    exact Prog.Does.bind (p := Prog.query _) (.query _) fun _ => trivial

theorem does_handleChatSend (call : ChatSend F) :
    (handleChatSend sha256 call).Does RealtimeDb.effects (MayDo t (.chatSend call)) t := by
  unfold handleChatSend
  cases hframe : chatFrame call.data with
  | error answer => trivial
  | ok frame =>
      refine Prog.Does.bind (does_of_quiet (quiet_of_stays (stays_allowedIn ..))) fun allowed =>
        Prog.Does.bind (.rollbackWork fun _ => rfl) fun _ => ?_
      cases allowed with
      | false => trivial
      | true =>
          show (sendInspected sha256 call frame).Does _ _ _
          unfold sendInspected
          cases hinspection : call.inspection with
          | none => trivial
          | some outcome =>
              obtain ⟨status, evaluatedAt, detectors⟩ := outcome
              cases status with
              | pass => exact does_sendPassed hframe hinspection rfl
              | blocked => trivial
              | seamUnavailable => trivial

theorem does_serveRealtime (t : Txn) (req : RealtimeRequest F) :
    (serveRealtime sha256 users req).Does RealtimeDb.effects (MayDo t req) t := by
  cases req with
  | chatSend call => exact does_handleChatSend call
  | _ => exact does_of_quiet (quiet_serveRealtime fun _ h => by contradiction)

/-- A send that is not acknowledged -/
def Refused (answer : RealtimeAnswer) : Prop := ∀ messageId, answer ≠ .ackAccepted messageId

theorem silent_handleChatSend (call : ChatSend F) : (handleChatSend sha256 call).Silent RealtimeDb.effects Refused t := by
  have hallowed : ∀ {raises channelId}, (allowedIn call.principal channelId .post raises).Does RealtimeDb.effects
      (fun _ => False) t := does_of_quiet (quiet_of_stays (stays_allowedIn ..))
  unfold handleChatSend
  cases chatFrame call.data with
  | error answer => trivial
  | ok frame =>
      refine Prog.Silent.bind hallowed fun allowed => Prog.Silent.bind (.rollbackWork fun _ => rfl) fun _ => ?_
      cases allowed with
      | false => trivial
      | true =>
          show (sendInspected sha256 call frame).Silent _ _ _
          unfold sendInspected
          cases call.inspection with
          | none => trivial
          | some outcome =>
              obtain ⟨status, evaluatedAt, detectors⟩ := outcome
              cases status with
              | blocked => trivial
              | seamUnavailable => trivial
              | pass =>
                  refine Prog.Silent.bind hallowed fun allowed => ?_
                  cases allowed with
                  | false => trivial
                  | true =>
                      -- what is inserted is acknowledged
                      exact Prog.Avoids.silent (Prog.Avoids.bind (fun message => Prog.Avoids.bind (fun _ =>
                        Prog.Avoids.bind (fun _ h => h message.messageId rfl) _) _) _)

theorem silent_serveRealtime (t : Txn) (req : RealtimeRequest F) :
    (serveRealtime sha256 users req).Silent RealtimeDb.effects Refused t := by
  cases req with
  | chatSend call => exact silent_handleChatSend call
  | _ => exact (does_of_quiet (quiet_serveRealtime fun _ h => by contradiction)).silent

end Effects

/-! ## runs -/

section Runs

variable {users : String → String → Bool} {as : List (Action (RealtimeRequest F))} {s : RealtimeSys F}

theorem messageInv_empty : MessageInv sha256 RealtimeDb.empty where
  log := HeadLog.sound_empty
  filed k row h := by
    rcases h with h | ⟨t, h⟩
    all_goals exact absurd h.symm (Option.some_ne_none _)
  traced k row h := by
    rcases h with h | ⟨t, h⟩
    all_goals exact absurd h.symm (Option.some_ne_none _)
  authorized x hx := absurd hx List.not_mem_nil

theorem messageInv_of_run (hsha : ∀ b, sha256 b ≠ "")
    (hrun : run (serveRealtime sha256 users) (Sys.start RealtimeDb.empty) as = some s) : MessageInv sha256 s.db := by
  have hok : (messageSpec F sha256).Ok (Sys.start RealtimeDb.empty : RealtimeSys F) :=
    ok_start messageInv_empty (fun t k row h => absurd h.symm (Option.some_ne_none _)) fun _ => trivial
  refine ((messageSpec_sound F users hsha).run hok (everyStep_of_mem fun a _ s₁ s₂ => ?_) hrun).1.inv
  cases a with
  | begin t req => exact .inl ⟨fun _ _ _ h => absurd h.symm (Option.some_ne_none _), trivial⟩
  | exec t => exact trivial
  | commit t => exact ⟨fun _ _ _ => trivial, trivial⟩
  | abort t => exact ⟨fun _ _ _ => .inr trivial, trivial⟩

/-- The messages of a channel, in their order -/
def channelMessages (sha256 : ByteArray → String) (d : RealtimeDb) (tenantId channelId : String) : List MessageRow :=
  (messageLog sha256).rows d.messages (tenantId, channelId)

def NotPassed (call : ChatSend F) : Prop := ∀ outcome, call.inspection = some outcome → outcome.status ≠ .pass

/-- **The messages of a channel** are numbered from zero without gap or repetition and chained from the genesis hash; each is
what the inspector has passed, from a sender whose role allowed it in the inserting transaction; and a send that was not passed,
or is answered by anything but an acknowledgement, has inserted nothing and sent nothing. -/
theorem channel_messages_in_order (hsha : ∀ b, sha256 b ≠ "")
    (hrun : run (serveRealtime sha256 users) (Sys.start RealtimeDb.empty) as = some s) :
    (∀ tenantId channelId, (channelMessages sha256 s.db tenantId channelId).map MessageRow.seq =
        List.range (channelMessages sha256 s.db tenantId channelId).length ∧
      (messageLog sha256).chain.Valid (channelMessages sha256 s.db tenantId channelId)) ∧
    (∀ k row, s.db.messages.committed k = some row → ∃ x ∈ s.db.inserts, x.row = row ∧ Authorized x.resolution row ∧
      ∃ call frame outcome, .begin x.txn (.chatSend call) ∈ as ∧ call.Passes frame outcome ∧ SentAs call frame outcome row) ∧
    (∀ t call, .begin t (.chatSend call) ∈ as → NotPassed call → NoneBy RealtimeDb.effects effectAuthor t s.db) ∧
    ∀ t call answer, (s.procs t = .running (.chatSend call) (.pure answer) ∨ s.procs t = .committed (.chatSend call) answer) →
      Refused answer → NoneBy RealtimeDb.effects effectAuthor t s.db := by
  have hinv := messageInv_of_run hsha hrun
  have hdone := done_of_run does_serveRealtime (fun _ _ => rfl) (fun _ _ => rfl) rfl hrun
  refine ⟨fun tenantId channelId => ?_, fun k row hrow => ?_, fun t call hbegin hnot e he hauthor => ?_,
    fun t call answer hanswered hrefused => ?_⟩
  · have htallies := hinv.log.tallies (tenantId, channelId)
    refine ⟨?_, htallies.valid⟩
    have hnumbers : (channelMessages sha256 s.db tenantId channelId).map MessageRow.seq = List.range _ := htallies.numbers
    have hlength := congrArg List.length hnumbers
    rw [List.length_map, List.length_range] at hlength
    rw [hnumbers, hlength]
  · obtain ⟨x, hx, rfl⟩ := hinv.traced k row (.inl hrow)
    obtain ⟨t, req, hbegin, ht, call, frame, outcome, rfl, hpasses, hsent⟩ :=
      hdone (.inl x) (List.mem_append_left _ (List.mem_map_of_mem hx))
    exact ⟨x, hx, rfl, hinv.authorized x hx, call, frame, outcome, ht ▸ hbegin, hpasses, hsent⟩
  · -- what was done was done for a call that passed, and `t` has made no other
    obtain ⟨t', req, hbegin', hmay⟩ := hdone e he
    have hpasses : t' = t ∧ ∃ call frame outcome, req = .chatSend call ∧ call.Passes frame outcome := by
      cases e with
      | inl x =>
          obtain ⟨ht, call, frame, outcome, hreq, hpasses, -⟩ := hmay
          exact ⟨ht.symm.trans hauthor, call, frame, outcome, hreq, hpasses⟩
      | inr x =>
          obtain ⟨ht, call, frame, outcome, hreq, hpasses, -⟩ := hmay
          exact ⟨ht.symm.trans hauthor, call, frame, outcome, hreq, hpasses⟩
    obtain ⟨rfl, call', frame, outcome, rfl, hpasses⟩ := hpasses
    cases begin_unique hrun hbegin hbegin'
    exact hnot outcome hpasses.inspection hpasses.pass
  · refine silent_of_run silent_serveRealtime (fun t req => ?_) (fun _ _ => rfl) (fun _ _ => rfl) rfl hrun hrefused hanswered
    refine (does_serveRealtime t req).mono fun e he => ?_
    cases e with
    | inl x => exact he.1
    | inr x => exact he.1

/-- A channel is created, and two messages are sent to it one after the other. -/
def createThenSend : List (Action (RealtimeRequest Empty)) :=
  [.begin 1 (.createChannel ⟨⟨"tenant-1", "user-1", ["channels:write"]⟩, "general", .public_, sampleChannelId, sampleMoment⟩),
    .exec 1, .exec 1, .commit 1, .begin 2 (.chatSend (sampleSend "message-1")), .begin 3 (.chatSend (sampleSend "message-2"))] ++
    statements 3 5 ++ statements 2 10 ++ statements 3 5 ++ [.commit 2, .commit 3]

/-- What is hashed of a message of the run. -/
def sampleMessageText (messageId seq prevRecordHash : String) : String :=
  "\x7b\"channel_id\":\"00000000-0000-0000-0000-000000000001\",\"content\":\"hello\",\"content_type\":\"text\"," ++
    "\"created_at\":\"2026-01-01T00:00:00+00:00\",\"detectors\":[],\"inspection_status\":\"pass\",\"message_id\":\"" ++
    messageId ++ "\",\"prev_record_hash\":\"" ++ prevRecordHash ++ "\",\"sender_user_id\":\"user-1\",\"seq\":" ++ seq ++
    ",\"tenant_id\":\"tenant-1\"\x7d"

/-- SHA-256 of the genesis text and of the two messages. -/
def sampleSha256 : ByteArray → String := HashChain.knownDigest
  [("rendly:messages:genesis:v1", "faa547f14e54fb21503a725f645af8a0bda8fb9aa8a3e77170e0c898cda91b23"),
    (sampleMessageText "message-1" "0" "faa547f14e54fb21503a725f645af8a0bda8fb9aa8a3e77170e0c898cda91b23",
      "43428a4a6222d3a51fd30129153768021144cdda8b171062020af4b3750ee721"),
    (sampleMessageText "message-2" "1" "43428a4a6222d3a51fd30129153768021144cdda8b171062020af4b3750ee721",
      "2ea95d771dc55551fa65a8872f94c7dbc2f0a05b5687e6205be6959fcaf30cde")]

theorem channel_messages_in_order_sample : ∃ s : RealtimeSys Empty,
    run (serveRealtime sampleSha256 fun _ _ => true) (Sys.start RealtimeDb.empty) createThenSend = some s ∧
    ["message-1", "message-2"].map (fun messageId => (s.db.messages.committed ("tenant-1", messageId)).map
        fun row => (row.seq, row.contentHash)) =
      [some (0, "43428a4a6222d3a51fd30129153768021144cdda8b171062020af4b3750ee721"),
        some (1, "2ea95d771dc55551fa65a8872f94c7dbc2f0a05b5687e6205be6959fcaf30cde")] ∧
    (messageLog sampleSha256).chain.Valid (channelMessages sampleSha256 s.db "tenant-1" sampleChannelId) := by
  have hreport : (run (serveRealtime sampleSha256 fun _ _ => true) (Sys.start RealtimeDb.empty : RealtimeSys Empty)
      createThenSend).map (fun s => ["message-1", "message-2"].map fun messageId =>
        (s.db.messages.committed ("tenant-1", messageId)).map fun row => (row.seq, row.contentHash)) =
      some [some (0, "43428a4a6222d3a51fd30129153768021144cdda8b171062020af4b3750ee721"),
        some (1, "2ea95d771dc55551fa65a8872f94c7dbc2f0a05b5687e6205be6959fcaf30cde")] := by
    decide +kernel
  obtain ⟨s, hrun, hrows⟩ := Option.map_eq_some_iff.mp hreport
  have hsha : ∀ b, sampleSha256 b ≠ "" := HashChain.knownDigest_ne (by decide +kernel)
  exact ⟨s, hrun, hrows, ((channel_messages_in_order hsha hrun).1 "tenant-1" sampleChannelId).2⟩

end Runs

end Anoryx.Rendly
