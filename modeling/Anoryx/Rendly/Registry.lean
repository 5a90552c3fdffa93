import Mathlib

/-!
# Anoryx.Rendly.Registry

The registry of the live WebSocket connections (`realtime/registry.py`): the sockets that a
channel's messages are sent to, and the sockets of a user.

A bucket holds what is filed in it and nothing else, so this is a part of the registry and
not of its proofs: a connection in a channel's bucket has the channel in its own set and is
one of its user's connections.  An empty bucket is no bucket.
-/

namespace Anoryx.Rendly

open Function

/-- The identity of a `Connection`. -/
abbrev ConnId := Nat

/-- A `Connection`, without its socket. -/
structure Connection where
  tenantId : String
  userId : String
  channels : List String
deriving DecidableEq

variable {channelId tenantId userId : String} {id' : ConnId}

namespace Connection

/-- Where the connection is filed. -/
def user (conn : Connection) : String × String := (conn.tenantId, conn.userId)

def Delivers (conn : Connection) (key : String × String) : Prop := key.1 = conn.tenantId ∧ key.2 ∈ conn.channels

instance (conn : Connection) (key : String × String) : Decidable (conn.Delivers key) :=
  inferInstanceAs (Decidable (_ ∧ _))

/-- `conn.channels.discard(channel_id)` -/
def discardChannel (channelId : String) (conn : Connection) : Connection :=
  { conn with channels := conn.channels.filter fun c => c ≠ channelId }

theorem delivers_discardChannel {conn : Connection} {key : String × String} :
    (conn.discardChannel channelId).Delivers key ↔ conn.Delivers key ∧ key.2 ≠ channelId := by
  simp [Delivers, discardChannel, and_assoc]

end Connection

/-- The registry.  A connection stays an object when its socket is closed. -/
structure ConnectionRegistry where
  connections : ConnId → Option Connection
  byChannel : String × String → List ConnId
  byUser : String × String → List ConnId
  user_filed : ∀ key id, id ∈ byUser key → ∃ conn, connections id = some conn ∧ conn.user = key
  channel_filed : ∀ key id, id ∈ byChannel key →
    ∃ conn, connections id = some conn ∧ conn.Delivers key ∧ id ∈ byUser conn.user

namespace ConnectionRegistry

variable (registry : ConnectionRegistry) {key : String × String} {id : ConnId} {conn : Connection}

def empty : ConnectionRegistry where
  connections _ := none
  byChannel _ := []
  byUser _ := []
  user_filed _ _ h := absurd h List.not_mem_nil
  channel_filed _ _ h := absurd h List.not_mem_nil

/-! ## registration -/

theorem add_user_filed (hid : registry.connections id = none) :
    ∀ key id', id' ∈ (if conn.user = key then (registry.byUser key).insert id else registry.byUser key) →
      ∃ c, update registry.connections id (some conn) id' = some c ∧ c.user = key := by
  intro key id' hmem
  by_cases hne : id' = id
  · subst hne
    by_cases hkey : conn.user = key
    · exact ⟨conn, update_self .., hkey⟩
    · rw [if_neg hkey] at hmem
      obtain ⟨c, hc, -⟩ := registry.user_filed key id' hmem
      exact absurd (hid.symm.trans hc).symm (Option.some_ne_none c)
  · have hold : id' ∈ registry.byUser key := by
      split at hmem
      · exact (List.mem_insert_iff.mp hmem).resolve_left hne
      · exact hmem
    obtain ⟨c, hc, huser⟩ := registry.user_filed key id' hold
    exact ⟨c, (update_of_ne hne ..).trans hc, huser⟩

theorem add_channel_filed (hid : registry.connections id = none) :
    ∀ key id', id' ∈ (if conn.Delivers key then (registry.byChannel key).insert id else registry.byChannel key) →
      ∃ c, update registry.connections id (some conn) id' = some c ∧ c.Delivers key ∧
        id' ∈ (if conn.user = c.user then (registry.byUser c.user).insert id else registry.byUser c.user) := by
  intro key id' hmem
  by_cases hne : id' = id
  · subst hne
    by_cases hkey : conn.Delivers key
    · exact ⟨conn, update_self .., hkey, by simp⟩
    · rw [if_neg hkey] at hmem
      obtain ⟨c, hc, -⟩ := registry.channel_filed key id' hmem
      exact absurd (hid.symm.trans hc).symm (Option.some_ne_none c)
  · have hold : id' ∈ registry.byChannel key := by
      split at hmem
      · exact (List.mem_insert_iff.mp hmem).resolve_left hne
      · exact hmem
    obtain ⟨c, hc, hdelivers, huser⟩ := registry.channel_filed key id' hold
    refine ⟨c, (update_of_ne hne ..).trans hc, hdelivers, ?_⟩
    split
    · exact List.mem_insert_of_mem huser
    · exact huser

/-- `add`, of a connection that is not registered -/
def add (id : ConnId) (conn : Connection) (hid : registry.connections id = none) : ConnectionRegistry where
  connections := update registry.connections id (some conn)
  byChannel key := if conn.Delivers key then (registry.byChannel key).insert id else registry.byChannel key
  byUser key := if conn.user = key then (registry.byUser key).insert id else registry.byUser key
  user_filed := registry.add_user_filed hid
  channel_filed := registry.add_channel_filed hid

theorem mem_byChannel_add (hid : registry.connections id = none) :
    id' ∈ (registry.add id conn hid).byChannel key ↔ id' ∈ registry.byChannel key ∨ id' = id ∧ conn.Delivers key := by
  show id' ∈ (if conn.Delivers key then (registry.byChannel key).insert id else registry.byChannel key) ↔ _
  split <;> grind

/-! ## removal -/

theorem discard_user_filed (id : ConnId) :
    ∀ key id', id' ∈ (registry.byUser key).filter (· ≠ id) → ∃ c, registry.connections id' = some c ∧ c.user = key :=
  fun key id' hmem => registry.user_filed key id' (List.mem_filter.mp hmem).1

theorem discard_channel_filed (hid : registry.connections id = some conn) :
    ∀ key id', id' ∈ (if conn.Delivers key then (registry.byChannel key).filter (· ≠ id) else registry.byChannel key) →
      ∃ c, registry.connections id' = some c ∧ c.Delivers key ∧ id' ∈ (registry.byUser c.user).filter (· ≠ id) := by
  intro key id' hmem
  have hold : id' ∈ registry.byChannel key ∧ (conn.Delivers key → id' ≠ id) := by
    split at hmem
    · have hmem := List.mem_filter.mp hmem
      exact ⟨hmem.1, fun _ => of_decide_eq_true hmem.2⟩
    · next hnot => exact ⟨hmem, fun h => absurd h hnot⟩
  obtain ⟨c, hc, hdelivers, huser⟩ := registry.channel_filed key id' hold.1
  have hne : id' ≠ id := by
    rintro rfl
    obtain rfl : c = conn := Option.some.inj (hc.symm.trans hid)
    exact hold.2 hdelivers rfl
  exact ⟨c, hc, hdelivers, List.mem_filter.mpr ⟨huser, decide_eq_true hne⟩⟩

/-- `discard`, of a registered connection -/
def discard (id : ConnId) (conn : Connection) (hid : registry.connections id = some conn) : ConnectionRegistry where
  connections := registry.connections
  byChannel key := if conn.Delivers key then (registry.byChannel key).filter (· ≠ id) else registry.byChannel key
  byUser key := (registry.byUser key).filter (· ≠ id)
  user_filed := registry.discard_user_filed id
  channel_filed := registry.discard_channel_filed hid

theorem mem_byChannel_discard (hid : registry.connections id = some conn)
    (h : id' ∈ (registry.discard id conn hid).byChannel key) : id' ∈ registry.byChannel key := by
  have h : id' ∈ (if conn.Delivers key then (registry.byChannel key).filter (· ≠ id) else registry.byChannel key) := h
  split at h
  · exact (List.mem_filter.mp h).1
  · exact h

/-! ## eviction -/

/-- The connections after the channel is taken from those of a user -/
def evicted (user : String × String) (channelId : String) (id : ConnId) : Option Connection :=
  if id ∈ registry.byUser user then (registry.connections id).map (Connection.discardChannel channelId)
  else registry.connections id

/-- An evicted connection stays its user's, and delivers the channel no more. -/
theorem evicted_of_some (user : String × String) (channelId : String) (h : registry.connections id = some conn) :
    ∃ c, registry.evicted user channelId id = some c ∧ c.user = conn.user ∧
      ∀ key, (c.Delivers key ↔ conn.Delivers key ∧ (id ∈ registry.byUser user → key.2 ≠ channelId)) := by
  unfold evicted
  split
  · next hmem =>
      refine ⟨conn.discardChannel channelId, by rw [h]; rfl, rfl, fun key => ?_⟩
      rw [Connection.delivers_discardChannel]
      simp [hmem]
  · next hmem => exact ⟨conn, h, rfl, fun key => by simp [hmem]⟩

theorem evict_user_filed (user : String × String) (channelId : String) :
    ∀ key id, id ∈ registry.byUser key → ∃ c, registry.evicted user channelId id = some c ∧ c.user = key := by
  intro key id hmem
  obtain ⟨conn, hconn, huser⟩ := registry.user_filed key id hmem
  obtain ⟨c, hc, hsame, -⟩ := registry.evicted_of_some user channelId hconn
  exact ⟨c, hc, hsame.trans huser⟩

theorem evict_channel_filed (tenantId channelId userId : String) :
    ∀ key id, id ∈ (if key = (tenantId, channelId) then
        (registry.byChannel key).filter (· ∉ registry.byUser (tenantId, userId)) else registry.byChannel key) →
      ∃ c, registry.evicted (tenantId, userId) channelId id = some c ∧ c.Delivers key ∧ id ∈ registry.byUser c.user := by
  intro key id hmem
  have hold : id ∈ registry.byChannel key ∧ (key = (tenantId, channelId) → id ∉ registry.byUser (tenantId, userId)) := by
    split at hmem
    · have hmem := List.mem_filter.mp hmem
      exact ⟨hmem.1, fun _ => of_decide_eq_true hmem.2⟩
    · next hnot => exact ⟨hmem, fun h => absurd h hnot⟩
  obtain ⟨conn, hconn, hdelivers, hfiled⟩ := registry.channel_filed key id hold.1
  obtain ⟨c, hc, hsame, hiff⟩ := registry.evicted_of_some (tenantId, userId) channelId hconn
  refine ⟨c, hc, (hiff key).mpr ⟨hdelivers, fun hmem hchannel => ?_⟩, hsame ▸ hfiled⟩
  -- a connection of the user has his tenant, so the bucket is the one that he is evicted from
  obtain ⟨conn', hconn', huser⟩ := registry.user_filed (tenantId, userId) id hmem
  obtain rfl : conn' = conn := Option.some.inj (hconn'.symm.trans hconn)
  exact hold.2 (Prod.ext (hdelivers.1.trans (congrArg Prod.fst huser)) hchannel) hmem

def removeUserFromChannel (tenantId channelId userId : String) : ConnectionRegistry where
  connections := registry.evicted (tenantId, userId) channelId
  byChannel key :=
    if key = (tenantId, channelId) then (registry.byChannel key).filter (· ∉ registry.byUser (tenantId, userId))
    else registry.byChannel key
  byUser := registry.byUser
  user_filed := registry.evict_user_filed (tenantId, userId) channelId
  channel_filed := registry.evict_channel_filed tenantId channelId userId

theorem mem_byChannel_removeUserFromChannel
    (h : id ∈ (registry.removeUserFromChannel tenantId channelId userId).byChannel key) :
    id ∈ registry.byChannel key ∧ (key = (tenantId, channelId) → id ∉ registry.byUser (tenantId, userId)) := by
  have h : id ∈ (if key = (tenantId, channelId) then
      (registry.byChannel key).filter (· ∉ registry.byUser (tenantId, userId)) else registry.byChannel key) := h
  split at h
  · have hmem := List.mem_filter.mp h
    exact ⟨hmem.1, fun _ => of_decide_eq_true hmem.2⟩
  · next hnot => exact ⟨h, fun hkey => absurd hkey hnot⟩

/-! ## reads -/

def channelConnections (tenantId channelId : String) : List ConnId := registry.byChannel (tenantId, channelId)

def userConnections (tenantId userId : String) : List ConnId := registry.byUser (tenantId, userId)

/-! ## growth -/

/-- Connections stay, with their tenants and users. -/
def Grows (registry registry' : ConnectionRegistry) : Prop :=
  ∀ id conn, registry.connections id = some conn → ∃ conn', registry'.connections id = some conn' ∧ conn'.user = conn.user

theorem Grows.refl : registry.Grows registry := fun _ conn h => ⟨conn, h, rfl⟩

variable {registry}

theorem Grows.trans {registry' registry'' : ConnectionRegistry} (h : registry.Grows registry')
    (h' : registry'.Grows registry'') : registry.Grows registry'' := by
  intro id conn hconn
  obtain ⟨conn', hconn', hsame⟩ := h id conn hconn
  obtain ⟨conn'', hconn'', hsame'⟩ := h' id conn' hconn'
  exact ⟨conn'', hconn'', hsame'.trans hsame⟩

variable (registry)

theorem grows_add (hid : registry.connections id = none) : registry.Grows (registry.add id conn hid) := by
  intro id' conn' hconn'
  have hne : id' ≠ id := by
    rintro rfl
    exact absurd (hid.symm.trans hconn').symm (Option.some_ne_none conn')
  exact ⟨conn', (update_of_ne hne ..).trans hconn', rfl⟩

theorem grows_removeUserFromChannel (tenantId channelId userId : String) :
    registry.Grows (registry.removeUserFromChannel tenantId channelId userId) := by
  intro id conn hconn
  obtain ⟨c, hc, hsame, -⟩ := registry.evicted_of_some (tenantId, userId) channelId hconn
  exact ⟨c, hc, hsame⟩

end ConnectionRegistry

end Anoryx.Rendly
