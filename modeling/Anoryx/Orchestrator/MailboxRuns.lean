import Anoryx.Orchestrator.Mailbox

/-!
# Anoryx.Orchestrator.MailboxRuns

Runs of sends and polls: any number of them at a time, cut off at any point.

`MailboxInv` is what holds between any two statements.  The messages of a tenant are
committed in the order of their sequence numbers, so an inbox only grows at its end, and
who polls after the last number that it has seen has seen a beginning of it.
-/

namespace Anoryx.Orchestrator

open ReadCommitted PyJson PgColumn Logic LockedLog Paging

variable {F : Type}

/-! ## the invariant -/

def AgentMessage.inTenant (tenantId : String) (message : AgentMessage F) : Bool := message.tenantId = tenantId

/-- The committed messages of a tenant. -/
abbrev tenantMessages (d : MailboxDb F) (tenantId : String) : List (Nat × AgentMessage F) :=
  d.messages.committedOf AgentMessage.inTenant tenantId

/-- The committed messages of a tenant to one of its agents. -/
def inbox (tenantId : String) (recipient : AgentId String) (d : MailboxDb F) : List (Nat × AgentMessage F) :=
  d.messages.rowsOf d.messages.table.committed (AgentMessage.isTo tenantId recipient)

/-- Between any two statements. -/
structure MailboxInv (hashtext : String → Int) (cap : Nat) (d : MailboxDb F) : Prop where
  sequenced : d.messages.Sequenced AgentMessage.inTenant hashtext
  inRange : ∀ n ∈ d.messages.table.keys, n ≤ maxBigint
  once : ∀ n m row row', d.messages.table.committed n = some row → d.messages.table.committed m = some row' →
    row.key = row'.key → n = m
  capped : ∀ tenantId, (tenantMessages d tenantId).length ≤ cap

/-- What a call may rely on while others move. -/
abbrev MailboxRely (hashtext : String → Int) (u : Txn) (d d' : MailboxDb F) : Prop :=
  d.messages.Follows AgentMessage.inTenant hashtext u d'.messages

/-- A statement of `t` that keeps the invariant, and what the others rely on. -/
def KeepsMailbox (hashtext : String → Int) (cap : Nat) (t : Txn) (d d' : MailboxDb F) : Prop :=
  MailboxInv hashtext cap d' ∧ ∀ u, u ≠ t → MailboxRely hashtext u d d'

variable {hashtext : String → Int} {cap : Nat} {d d' : MailboxDb F} {t u : Txn} {tenantId : String}
  {recipient : AgentId String}

variable {row : AgentMessage F}

variable {n limit : Nat} {p message : Nat × AgentMessage F} {r : Except IngestError Nat}
  {seen known : List (Nat × AgentMessage F)}

theorem mem_tenantMessages (h : MailboxInv hashtext cap d) :
    (n, row) ∈ tenantMessages d tenantId ↔ d.messages.table.committed n = some row ∧ row.tenantId = tenantId :=
  h.sequenced.mem_committedOf.trans (and_congr_right fun _ => decide_eq_true_iff)

theorem MailboxInv.inbox_eq (h : MailboxInv hashtext cap d) :
    inbox tenantId recipient d = (tenantMessages d tenantId).filter fun p => p.2.recipient = recipient := by
  rw [inbox, tenantMessages, committedOf, h.sequenced.rowsOf_eq, h.sequenced.rowsOf_eq, List.filter_filter]
  refine List.filter_congr fun p _ => ?_
  rw [AgentMessage.isTo, AgentMessage.inTenant, Bool.and_comm]

theorem MailboxInv.pairwise_inbox (h : MailboxInv hashtext cap d) :
    (inbox tenantId recipient d).Pairwise fun p q => p.1 < q.1 := by
  rw [h.inbox_eq]
  exact (h.sequenced.pairwise_committedOf tenantId).filter _

theorem inbox_extends (h : MailboxInv hashtext cap d) (h' : MailboxInv hashtext cap d')
    (hr : MailboxRely hashtext u d d') : inbox tenantId recipient d <+: inbox tenantId recipient d' := by
  rw [h.inbox_eq, h'.inbox_eq]
  exact (hr.grows tenantId).filter _

theorem MailboxInv.le_maxBigint (h : MailboxInv hashtext cap d) (hp : p ∈ inbox tenantId recipient d) :
    p.1 ≤ maxBigint := by
  rw [h.inbox_eq, List.mem_filter] at hp
  obtain ⟨hrow, -⟩ := (mem_tenantMessages h).mp hp.1
  refine h.inRange p.1 ?_
  by_contra hmem
  rw [(d.messages.table.complete p.1 hmem).1] at hrow
  contradiction

/-! ## what the statements keep -/

theorem MailboxRely.aside (hsame : d'.messages = d.messages) : MailboxRely hashtext u d d' := by
  show Follows _ _ u d.messages d'.messages
  rw [hsame]
  exact .refl u _

theorem MailboxInv.aside (h : MailboxInv hashtext cap d) (hsame : d'.messages = d.messages) :
    KeepsMailbox hashtext cap t d d' := by
  refine ⟨?_, fun u _ => MailboxRely.aside hsame⟩
  obtain ⟨messages', chain'⟩ := d'
  obtain rfl : messages' = d.messages := hsame
  exact ⟨h.sequenced, h.inRange, h.once, h.capped⟩

theorem messages_of_messagingChainLock {x : Unit} (h : messagingChainLock t d = some (x, d')) :
    d'.messages = d.messages := by
  obtain ⟨⟨⟨⟩, chain⟩, -, he⟩ := Option.map_eq_some_iff.mp h
  cases he
  rfl

theorem messages_of_insertMessagingLink {row : MessagingAuditLog} {x : Unit}
    (h : insertMessagingLink row t d = some (x, d')) : d'.messages = d.messages := by
  cases h
  rfl

theorem MailboxInv.lockMessageCap (h : MailboxInv hashtext cap d)
    (hlock : Orchestrator.lockMessageCap hashtext tenantId t d = some ((), d')) :
    KeepsMailbox hashtext cap t d d' ∧ d'.messages.locks (hashtext tenantId) = some t ∧
      d'.messages.table = d.messages.table := by
  obtain ⟨⟨⟨⟩, messages⟩, hadvisory, he⟩ := Option.map_eq_some_iff.mp hlock
  obtain ⟨-, rfl⟩ := Prod.mk.inj he
  obtain ⟨hsequenced, hfollows, hmine⟩ := h.sequenced.advisoryXactLock hadvisory
  obtain ⟨rfl, -⟩ := advisoryXactLock_cases hadvisory
  exact ⟨⟨⟨hsequenced, h.inRange, h.once, h.capped⟩, fun u _ => hfollows u⟩, hmine, rfl⟩

theorem insertAgentMessage_cases (hinsert : insertAgentMessage row t d = some (r, d')) : (r = .error .data ∧ d' = d) ∨
    (r = .error .integrity ∧
      d' = { d with messages := { d.messages with nextSequence := d.messages.nextSequence + 1 } }) ∨
    (r = .ok d.messages.nextSequence ∧ d' = { d with messages := d.messages.insert t row } ∧
      d.messages.nextSequence ≤ maxBigint ∧
      ∀ n row', d.messages.table.visible t n = some row' → row'.key ≠ row.key) := by
  unfold insertAgentMessage at hinsert
  split at hinsert
  case isTrue =>
    cases hinsert
    exact .inl ⟨rfl, rfl⟩
  case isFalse hrange =>
    split at hinsert
    case isTrue => contradiction
    case isFalse =>
      split at hinsert
      case isTrue =>
        cases hinsert
        exact .inr (.inl ⟨rfl, rfl⟩)
      case isFalse hnone =>
        cases hinsert
        refine .inr (.inr ⟨rfl, rfl, Nat.le_of_not_lt hrange, fun n row' hvisible hkey => ?_⟩)
        exact hnone (List.any_eq_true.mpr ⟨(n, row'), Table.mem_scan.mpr hvisible, decide_eq_true hkey⟩)

theorem MailboxInv.insertAgentMessage (h : MailboxInv hashtext cap d)
    (hlock : d.messages.locks (hashtext row.tenantId) = some t)
    (hinsert : Orchestrator.insertAgentMessage row t d = some (r, d')) : KeepsMailbox hashtext cap t d d' := by
  rcases insertAgentMessage_cases hinsert with ⟨-, rfl⟩ | ⟨-, rfl⟩ | ⟨-, rfl, hrange, -⟩
  · exact ⟨h, fun u _ => .refl u _⟩
  · obtain ⟨hsequenced, hfollows⟩ := h.sequenced.skip
    exact ⟨⟨hsequenced, h.inRange, h.once, h.capped⟩, fun u _ => hfollows u⟩
  · have hgroup : ∀ g, AgentMessage.inTenant g row = true → d.messages.locks (hashtext g) = some t := by
      intro g hg
      rw [← of_decide_eq_true hg]
      exact hlock
    obtain ⟨hsequenced, hfollows⟩ := h.sequenced.insert row hgroup
    have hsame : ∀ g, tenantMessages { d with messages := d.messages.insert t row } g = tenantMessages d g := fun g =>
      h.sequenced.rowsOf_insert hgroup (d.messages.table.complete _ h.sequenced.not_mem).1 _
    refine ⟨⟨hsequenced, fun n hn => ?_, h.once, fun g => ?_⟩, hfollows⟩
    · have hkeys : (d.messages.insert t row).table.keys = d.messages.table.keys ++ [d.messages.nextSequence] :=
        h.sequenced.keys_insert row
      have hn : n ∈ (d.messages.insert t row).table.keys := hn
      rw [hkeys, List.mem_append, List.mem_singleton] at hn
      rcases hn with hn | rfl
      · exact h.inRange n hn
      · exact hrange
    · rw [hsame g]
      exact h.capped g

theorem MailboxInv.rollback (h : MailboxInv hashtext cap d) (t : Txn) :
    KeepsMailbox hashtext cap t d (Database.rollback t d) := by
  obtain ⟨hsequenced, hfollows⟩ := h.sequenced.rollback t
  exact ⟨⟨hsequenced, h.inRange, h.once, h.capped⟩, hfollows⟩

theorem MailboxInv.commit (h : MailboxInv hashtext cap d) (hunheld : d.messages.table.Unheld t) :
    KeepsMailbox hashtext cap t d (Database.commit t d) := by
  obtain ⟨hsequenced, hfollows⟩ := h.sequenced.commit t
  have hsame : (d.messages.table.commit t).committed = d.messages.table.committed := funext hunheld.committed_commit
  refine ⟨⟨hsequenced, h.inRange, fun n m row row' hn hm => ?_, fun g => ?_⟩, hfollows⟩
  · exact h.once n m row row' ((congrFun hsame n).symm.trans hn) ((congrFun hsame m).symm.trans hm)
  · have hlist : tenantMessages (Database.commit t d) g = tenantMessages d g :=
      h.sequenced.committedOf_commit_unheld hunheld g
    rw [hlist]
    exact h.capped g

/-- A message that is in flight, below the cap and under a new key. -/
structure Sending (hashtext : String → Int) (cap : Nat) (t : Txn) (n : Nat) (row : AgentMessage F)
    (d : MailboxDb F) : Prop where
  holds : d.messages.table.HoldsOnly t n row
  locked : d.messages.locks (hashtext row.tenantId) = some t
  below : (tenantMessages d row.tenantId).length < cap
  new : ∀ p ∈ tenantMessages d row.tenantId, p.2.key ≠ row.key

theorem Sending.rely (h : Sending hashtext cap t n row d) (hr : MailboxRely hashtext t d d') :
    Sending hashtext cap t n row d' := by
  have hsame : tenantMessages d' row.tenantId = tenantMessages d row.tenantId := hr.held row.tenantId h.locked
  exact ⟨h.holds.frame hr.frame, hr.locks _ h.locked, hsame ▸ h.below, hsame ▸ h.new⟩

/-- **The commit of a message.** -/
theorem MailboxInv.commitMessage (h : MailboxInv hashtext cap d) (hsending : Sending hashtext cap t n row d) :
    KeepsMailbox hashtext cap t d (Database.commit t d) := by
  obtain ⟨hsequenced, hfollows⟩ := h.sequenced.commit t
  have hlist : ∀ g, tenantMessages (Database.commit t d) g =
      tenantMessages d g ++ if row.tenantId = g then [(n, row)] else [] := by
    intro g
    refine (h.sequenced.committedOf_commit_row hsending.holds g).trans ?_
    simp [AgentMessage.inTenant]
  have hcommitted : ∀ m, (Database.commit t d).messages.table.committed m =
      if m = n then some row else d.messages.table.committed m := hsending.holds.committed_commit
  have hother : ∀ m row', d.messages.table.committed m = some row' → row'.key ≠ row.key := fun m row' hm hkey =>
    hsending.new (m, row') ((mem_tenantMessages h).mpr ⟨hm, congrArg Prod.fst hkey⟩) hkey
  refine ⟨⟨hsequenced, h.inRange, fun m m' r r' hm hm' hkey => ?_, fun g => ?_⟩, hfollows⟩
  · rw [hcommitted] at hm hm'
    split at hm <;> split at hm'
    · next he he' => exact he.trans he'.symm
    · cases hm
      exact absurd hkey.symm (hother m' r' hm')
    · cases hm'
      exact absurd hkey (hother m r hm)
    · exact h.once m m' r r' hm hm' hkey
  · rw [hlist]
    split
    · next hg =>
        subst hg
        rw [List.length_append, List.length_singleton]
        exact hsending.below
    · rw [List.append_nil]
      exact h.capped g

/-! ## the specification -/

section Programs

variable [FloatFormat F] (sha256 : ByteArray → String) (hashtext) (settings : MessagingSettings)

/-- What an answer says of the messages. -/
def MailboxAnswered (request : MailboxRequest F) (answer : MailboxAnswer F) (d : MailboxDb F) : Prop :=
  match request, answer with
  | .send request, .sent (.taken n createdAt _) => ∃ key row, textColumn 128 request.idempotencyKey = some key ∧
      (n, row) ∈ tenantMessages d request.tenantId ∧ row.idempotencyKey = key ∧ row.createdAt = createdAt
  | .send _, .sent (.limitExceeded limit) => limit = settings.maxMessagesPerTenant
  | .follow follower, .followed answers =>
      answers.flatMap InboxAnswer.messages <+: inbox follower.tenantId follower.recipient d ∧
        ∀ answer ∈ answers, ∃ messages next, answer = .page messages next
  | _, _ => False

/-- The specification of the calls. -/
def mailboxLogic : Logic (MailboxDb F) (MailboxRequest F) (MailboxAnswer F) where
  inv := MailboxInv hashtext settings.maxMessagesPerTenant
  rely := MailboxRely hashtext
  fresh t d := d.messages.table.Unheld t
  post t request answer d := d.messages.table.Unheld t ∧ MailboxAnswered settings request answer d
  ensures _ request answer d :=
    MailboxInv hashtext settings.maxMessagesPerTenant d ∧ MailboxAnswered settings request answer d
  undone _ _ := True

variable {sha256 hashtext settings} {request : SendMessage F}

omit [FloatFormat F] in
theorem KeepsMailbox.logic (h : KeepsMailbox hashtext settings.maxMessagesPerTenant t d d') :
    (mailboxLogic hashtext settings).Keeps t d d' := ⟨h.1, h.2⟩

omit [FloatFormat F] in
theorem MailboxAnswered.rely {request : MailboxRequest F} {answer : MailboxAnswer F}
    (hd : MailboxInv hashtext cap d) (hd' : MailboxInv hashtext cap d') (h : MailboxAnswered settings request answer d)
    (hr : MailboxRely hashtext u d d') : MailboxAnswered settings request answer d' := by
  unfold MailboxAnswered at h ⊢
  split at h
  · obtain ⟨key, row, hkey, hmem, hrest⟩ := h
    exact ⟨key, row, hkey, (hr.grows _).subset hmem, hrest⟩
  · exact h
  · exact ⟨h.1.trans (inbox_extends hd hd' hr), h.2⟩
  · exact h.elim

/-! ## sending -/

/-- A message that the answer of a call tells of. -/
def StoredMessage (request : SendMessage F) (key : String) (n : Nat) (row : AgentMessage F) (d : MailboxDb F) : Prop :=
  (n, row) ∈ tenantMessages d request.tenantId ∧ row.idempotencyKey = key

variable {key : String}

omit [FloatFormat F] in
theorem wp_concludeSend {disposition : SendDisposition} (hunheld : d.messages.table.Unheld t)
    (hkey : textColumn 128 request.idempotencyKey = some key)
    (hstored : StoredMessage request key message.1 message.2 d) :
    (mailboxLogic hashtext settings).wp t (fun answer d' => d'.messages.table.Unheld t ∧
      MailboxAnswered settings (.send request) (.sent answer) d')
      (concludeSend sha256 request key disposition message) d := by
  refine wp_ofExcept_bind fun link _ => ?_
  refine wp_exec_bind fun d₁ h₁ hr₁ _ d₂ hlock _ => ?_
  have hsame := messages_of_messagingChainLock hlock
  refine ⟨(h₁.aside hsame).logic, wp_query_bind (fun _ _ => Follows.refl _ _) fun d₃ h₃ hr₃ => ?_⟩
  refine wp_exec_bind fun d₄ h₄ hr₄ _ d₅ hinsert _ => ?_
  have hsame' := messages_of_insertMessagingLink hinsert
  refine ⟨(h₄.aside hsame').logic, wp_commitWork_bind fun d₆ h₆ hr₆ => ?_⟩
  have hfollows : MailboxRely hashtext t d d₆ := by
    have hlocked : MailboxRely hashtext t d d₂ := hr₁.trans (MailboxRely.aside hsame)
    have hinserted : MailboxRely hashtext t d₂ d₅ := (hr₃.trans hr₄).trans (MailboxRely.aside hsame')
    exact (hlocked.trans hinserted).trans hr₆
  have hkeeps := h₆.commit (hunheld.frame hfollows.frame)
  refine ⟨hkeeps.logic, fun d₇ h₇ hr₇ => ?_⟩
  have hended := Table.unheld_commit d₆.messages.table t
  refine ⟨hended.frame hr₇.frame, key, message.2, hkey, ?_, hstored.2, rfl⟩
  have hcommit : MailboxRely hashtext (t + 1) d₆ (Database.commit t d₆) := hkeeps.2 _ (Nat.succ_ne_self t)
  exact (hr₇.grows _).subset ((hcommit.grows _).subset ((hfollows.grows _).subset hstored.1))

omit [FloatFormat F] in
theorem stored_of_get (hd : MailboxInv hashtext cap d) (hunheld : d.messages.table.Unheld t)
    (hfound : getAgentMessageByIdempotencyKey (request.tenantId, key) t d = some message) :
    StoredMessage request key message.1 message.2 d := by
  have hmem : message ∈ d.messages.table.scan t := List.mem_of_find?_eq_some hfound
  have hfind : (d.messages.table.scan t).find? (fun row => row.2.hasKey (request.tenantId, key)) = some message := hfound
  have hhas := List.find?_some hfind
  have hkey : message.2.key = (request.tenantId, key) := of_decide_eq_true hhas
  obtain ⟨htenant, hidempotency⟩ := Prod.mk.inj hkey
  refine ⟨(mem_tenantMessages hd).mpr ⟨?_, htenant⟩, hidempotency⟩
  rw [← hunheld.visible]
  exact Table.mem_scan.mp hmem

omit [FloatFormat F] in
theorem StoredMessage.rely {row : AgentMessage F} (h : StoredMessage request key n row d)
    (hr : MailboxRely hashtext u d d') : StoredMessage request key n row d' := ⟨(hr.grows _).subset h.1, h.2⟩

theorem SendMessage.row_eq_some {row : AgentMessage F} (h : request.row key = some row) :
    row.tenantId = request.tenantId ∧ row.idempotencyKey = key := by
  unfold SendMessage.row at h
  obtain ⟨sender, -, h⟩ := Option.bind_eq_some_iff.mp h
  obtain ⟨recipient, -, h⟩ := Option.bind_eq_some_iff.mp h
  obtain ⟨messageType, -, h⟩ := Option.bind_eq_some_iff.mp h
  obtain ⟨body, -, h⟩ := Option.bind_eq_some_iff.mp h
  cases h
  exact ⟨rfl, rfl⟩

abbrev SendPost (settings : MessagingSettings) (t : Txn) (request : SendMessage F) (answer : SendAnswer)
    (d : MailboxDb F) : Prop :=
  d.messages.table.Unheld t ∧ MailboxAnswered settings (.send request) (.sent answer) d

/-- A message gets the next number of its recipient, within the cap. -/
theorem wp_sendNew (hunheld : d.messages.table.Unheld t)
    (hkey : textColumn 128 request.idempotencyKey = some key) :
    (mailboxLogic hashtext settings).wp t (SendPost settings t request)
      (sendNew sha256 hashtext settings request key) d := by
  have hended : ∀ d' : MailboxDb F, (Database.rollback t d').messages.table.Unheld t :=
    fun d' => Table.unheld_rollback d'.messages.table t
  refine wp_exec_bind fun d₁ h₁ hr₁ _ d₂ hlock _ => ?_
  obtain ⟨hkeeps₂, hmine, htable⟩ := h₁.lockMessageCap hlock
  have hunheld₂ : d₂.messages.table.Unheld t := by
    rw [htable]
    exact hunheld.frame hr₁.frame
  refine ⟨hkeeps₂.logic, wp_query_bind (fun _ _ => Follows.refl _ _) fun d₃ h₃ hr₃ => ?_⟩
  have hunheld₃ := hunheld₂.frame hr₃.frame
  have hcount : countAgentMessages request.tenantId t d₃ = (tenantMessages d₃ request.tenantId).length := by
    have hvisible : d₃.messages.table.visible t = d₃.messages.table.committed := funext hunheld₃.visible
    rw [countAgentMessages, hvisible]
    rfl
  split
  case isFalse =>
    refine wp_rollbackWork_bind fun d₄ h₄ hr₄ => ⟨(h₄.rollback t).logic, fun d₅ h₅ hr₅ => ?_⟩
    exact ⟨(hended d₄).frame hr₅.frame, rfl⟩
  case isTrue hbelow =>
    refine wp_ofExcept_bind fun row hrow => ?_
    obtain ⟨htenant, hidempotency⟩ := SendMessage.row_eq_some (orRaise_eq_ok hrow)
    refine wp_exec_bind fun d₄ h₄ hr₄ inserted d₅ hinsert _ => ?_
    have hunheld₄ := hunheld₃.frame hr₄.frame
    have hlock₄ : d₄.messages.locks (hashtext row.tenantId) = some t := by
      rw [htenant]
      exact hr₄.locks _ (hr₃.locks _ hmine)
    have hkeeps₅ := h₄.insertAgentMessage hlock₄ hinsert
    rcases insertAgentMessage_cases hinsert with ⟨rfl, rfl⟩ | ⟨rfl, rfl⟩ | ⟨rfl, rfl, -, hnew⟩
    · exact ⟨hkeeps₅.logic, trivial⟩
    · refine ⟨hkeeps₅.logic, wp_rollbackWork_bind fun d₆ h₆ hr₆ => ⟨(h₆.rollback t).logic, ?_⟩⟩
      refine wp_query_bind (fun _ _ => Follows.refl _ _) fun d₇ h₇ hr₇ => ?_
      refine wp_rollbackWork_bind fun d₈ h₈ hr₈ => ⟨(h₈.rollback t).logic, ?_⟩
      have hunheld₇ := (hended d₆).frame hr₇.frame
      cases hfound : getAgentMessageByIdempotencyKey (request.tenantId, key) t d₇ with
      | none => trivial
      | some message =>
          have hstored := (stored_of_get h₇ hunheld₇ hfound).rely hr₈
          have hrolled : MailboxRely hashtext (t + 1) d₈ (Database.rollback t d₈) :=
            (h₈.rollback t).2 _ (Nat.succ_ne_self t)
          exact wp_concludeSend (hended d₈) hkey (hstored.rely hrolled)
    · refine ⟨hkeeps₅.logic, wp_commitWork_bind fun d₆ h₆ hr₆ => ?_⟩
      have hsame : tenantMessages d₄ row.tenantId = tenantMessages d₃ row.tenantId := by
        refine hr₄.held row.tenantId ?_
        rw [htenant]
        exact hr₃.locks _ hmine
      have hinserted : tenantMessages { d₄ with messages := d₄.messages.insert t row } row.tenantId =
          tenantMessages d₄ row.tenantId := by
        refine h₄.sequenced.rowsOf_insert (fun g hg => ?_) (d₄.messages.table.complete _ h₄.sequenced.not_mem).1 _
        rw [← of_decide_eq_true hg]
        exact hlock₄
      have hsending : Sending hashtext settings.maxMessagesPerTenant t d₄.messages.nextSequence row
          { d₄ with messages := d₄.messages.insert t row } := by
        refine ⟨hunheld₄.write _ _, hlock₄, ?_, ?_⟩
        · rw [hinserted, hsame, htenant, ← hcount]
          exact hbelow
        · rw [hinserted]
          intro p hp
          refine hnew p.1 p.2 ?_
          rw [hunheld₄.visible]
          exact ((mem_tenantMessages h₄).mp hp).1
      have hsending₆ := hsending.rely hr₆
      refine ⟨(h₆.commitMessage hsending₆).logic, wp_concludeSend (Table.unheld_commit d₆.messages.table t) hkey ?_⟩
      refine ⟨?_, hidempotency⟩
      rw [tenantMessages, ← htenant]
      have hlist := h₆.sequenced.committedOf_commit_row hsending₆.holds row.tenantId
      have hmem : (d₄.messages.nextSequence, row) ∈
          (Database.commit t d₆.messages).committedOf AgentMessage.inTenant row.tenantId := by
        rw [hlist]
        simp [AgentMessage.inTenant]
      exact hmem

theorem wp_sendMessage (hunheld : d.messages.table.Unheld t) :
    (mailboxLogic hashtext settings).wp t (SendPost settings t request)
      (sendMessage sha256 hashtext settings request) d := by
  refine wp_ofExcept_bind fun key hkey => ?_
  have hkey := orRaise_eq_ok hkey
  refine wp_query_bind (fun _ _ => Follows.refl _ _) fun d₁ h₁ hr₁ => ?_
  have hunheld₁ := hunheld.frame hr₁.frame
  cases hfound : getAgentMessageByIdempotencyKey (request.tenantId, key) t d₁ with
  | none => exact wp_sendNew hunheld₁ hkey
  | some message =>
      refine wp_rollbackWork_bind fun d₂ h₂ hr₂ => ⟨(h₂.rollback t).logic, ?_⟩
      have hrolled : MailboxRely hashtext (t + 1) d₂ (Database.rollback t d₂) :=
        (h₂.rollback t).2 _ (Nat.succ_ne_self t)
      exact wp_concludeSend (Table.unheld_rollback d₂.messages.table t) hkey
        (((stored_of_get h₁ hunheld₁ hfound).rely hr₂).rely hrolled)

/-! ## polling -/

theorem MessagingSettings.one_le_inboxLimit (settings : MessagingSettings) (limit : Option Int) :
    1 ≤ settings.inboxLimit limit := by
  have hpos := settings.pageSize_pos
  cases limit with
  | none => exact le_min (by decide) hpos
  | some limit =>
      unfold MessagingSettings.inboxLimit
      grind

omit [FloatFormat F] in
theorem listInboxMessages_page (hd : MailboxInv hashtext cap d) (hunheld : d.messages.table.Unheld t)
    (hlimit : 1 ≤ limit) (hseen : seen <+: inbox tenantId recipient d) :
    let page := listInboxMessages tenantId recipient (lastPosition seen) limit t d
    seen ++ page.1 <+: inbox tenantId recipient d ∧
      (1 ≤ page.1.length ∧ page.2.isSome = true ∨ seen ++ page.1 = inbox tenantId recipient d) := by
  have hvisible : d.messages.table.visible t = d.messages.table.committed := funext hunheld.visible
  have hsorted : (inbox tenantId recipient d).Pairwise fun p q => p.1 < q.1 := hd.pairwise_inbox
  let rows := page (lastPosition seen) (limit + 1) (inbox tenantId recipient d)
  have hpage : listInboxMessages tenantId recipient (lastPosition seen) limit t d =
      if limit < rows.length then (rows.take limit, rows[limit - 1]?.map Prod.fst) else (rows, none) := by
    unfold listInboxMessages
    rw [hvisible]
    rfl
  intro page
  by_cases hmore : limit < rows.length
  · have hsome : page = (rows.take limit, rows[limit - 1]?.map Prod.fst) := hpage.trans (if_pos hmore)
    have htake : rows.take limit = Paging.page (Paging.lastPosition seen) limit (inbox tenantId recipient d) :=
      Paging.take_page (Nat.le_succ limit)
    rw [hsome]
    refine ⟨htake ▸ (append_page hseen hsorted limit).1, .inl ⟨?_, ?_⟩⟩
    · rw [List.length_take]
      omega
    · rw [Option.isSome_map, List.getElem?_eq_getElem (by omega)]
      rfl
  · have hnone : page = (rows, none) := hpage.trans (if_neg hmore)
    rw [hnone]
    obtain ⟨hpre, hlength | hall⟩ := append_page hseen hsorted (limit + 1)
    · have hlength : rows.length = limit + 1 := hlength
      omega
    · exact ⟨hpre, .inr hall⟩

/-- What a recipient has got, of what was known when it began. -/
structure Followed (tenantId : String) (recipient : AgentId String) (known seen : List (Nat × AgentMessage F))
    (polls : Nat) (answers : List (InboxAnswer F)) (d : MailboxDb F) : Prop where
  reached : seen ++ answers.flatMap InboxAnswer.messages <+: inbox tenantId recipient d
  pages : ∀ answer ∈ answers, ∃ messages next, answer = .page messages next
  last : (∃ answer ∈ answers, answer.isLast = true) → known <+: seen ++ answers.flatMap InboxAnswer.messages
  polled : polls ≤ (answers.flatMap InboxAnswer.messages).length ∨
    known <+: seen ++ answers.flatMap InboxAnswer.messages

omit [FloatFormat F] in
/-- A page starts where the last one ended. -/
theorem wp_getInbox (limit : Option Int) (hunheld : d.messages.table.Unheld t)
    (hd : MailboxInv hashtext settings.maxMessagesPerTenant d) (hseen : seen <+: inbox tenantId recipient d)
    (hknown : known <+: inbox tenantId recipient d) :
    (mailboxLogic hashtext settings).wp t (fun answer d' => d'.messages.table.Unheld t ∧
      known <+: inbox tenantId recipient d' ∧ Followed tenantId recipient known seen 1 [answer] d')
      (getInbox settings tenantId recipient ((lastPosition seen).map Int.ofNat) limit) d := by
  have hcursor : ((lastPosition seen).map Int.ofNat).map Int.toNat = lastPosition seen := by
    cases lastPosition seen <;> rfl
  have hrange : ((lastPosition seen).map Int.ofNat).any (fun n => n < 0 ∨ (maxBigint : Int) < n) = false := by
    cases hlast : lastPosition seen with
    | none => rfl
    | some n =>
        obtain ⟨p, hp, rfl⟩ := Option.map_eq_some_iff.mp hlast
        have hle := hd.le_maxBigint (hseen.subset (List.mem_of_getLast? hp))
        simpa using hle
  unfold getInbox
  rw [hrange, hcursor]
  refine wp_query_bind (fun _ _ => Follows.refl _ _) fun d₁ h₁ hr₁ => ?_
  refine wp_rollbackWork_bind fun d₂ h₂ hr₂ => ⟨(h₂.rollback t).logic, fun d₃ h₃ hr₃ => ?_⟩
  have hunheld₁ := hunheld.frame hr₁.frame
  obtain ⟨hpre, hrest⟩ := listInboxMessages_page h₁ hunheld₁ (settings.one_le_inboxLimit limit)
    (hseen.trans (inbox_extends hd h₁ hr₁))
  have hrolled : MailboxRely hashtext (t + 1) d₂ (Database.rollback t d₂) := (h₂.rollback t).2 _ (Nat.succ_ne_self t)
  have hgrows : inbox tenantId recipient d₁ <+: inbox tenantId recipient d₃ :=
    ((inbox_extends h₁ h₂ hr₂).trans (inbox_extends h₂ (h₂.rollback t).1 hrolled)).trans
      (inbox_extends (h₂.rollback t).1 h₃ hr₃)
  have hknown₁ := hknown.trans (inbox_extends hd h₁ hr₁)
  refine ⟨(Table.unheld_rollback d₂.messages.table t).frame hr₃.frame, hknown₁.trans hgrows, ?_⟩
  have hflat : ∀ answer : InboxAnswer F, [answer].flatMap InboxAnswer.messages = answer.messages := fun answer =>
    List.append_nil answer.messages
  refine ⟨by rw [hflat]; exact hpre.trans hgrows, fun answer hmem => ?_, ?_, ?_⟩
  · rw [List.mem_singleton] at hmem
    exact ⟨_, _, hmem⟩
  · rintro ⟨answer, hmem, hlast⟩
    rw [List.mem_singleton] at hmem
    subst hmem
    rw [hflat]
    rcases hrest with ⟨-, hsome⟩ | hall
    · rw [InboxAnswer.isLast, Option.isNone_iff_eq_none] at hlast
      rw [hlast] at hsome
      contradiction
    · exact hall ▸ hknown₁
  · rw [hflat]
    rcases hrest with ⟨hlength, -⟩ | hall
    · exact .inl hlength
    · exact .inr (hall ▸ hknown₁)

omit [FloatFormat F] in
/-- A follower reads the inbox in order, without a gap. -/
theorem wp_followInbox {limits : List (Option Int)} (hunheld : d.messages.table.Unheld t)
    (hd : MailboxInv hashtext settings.maxMessagesPerTenant d) (hseen : seen <+: inbox tenantId recipient d)
    (hknown : known <+: inbox tenantId recipient d) :
    (mailboxLogic hashtext settings).wp t (fun answers d' => d'.messages.table.Unheld t ∧
      Followed tenantId recipient known seen limits.length answers d')
      (followInbox settings tenantId recipient seen limits) d := by
  induction limits generalizing seen d with
  | nil =>
      intro d₁ h₁ hr₁
      refine ⟨hunheld.frame hr₁.frame, ⟨?_, fun answer hmem => absurd hmem List.not_mem_nil, ?_, .inl (Nat.zero_le _)⟩⟩
      · rw [List.flatMap_nil, List.append_nil]
        exact hseen.trans (inbox_extends hd h₁ hr₁)
      · rintro ⟨answer, hmem, -⟩
        exact absurd hmem List.not_mem_nil
  | cons limit limits ih =>
      refine wp_bind (fun _ => Follows.refl _ _) hd ?_
      refine wp_mono (fun answer d₁ h₁ hpost => ?_) (wp_getInbox limit hunheld hd hseen hknown)
      obtain ⟨hunheld₁, hknown₁, hfirst⟩ := hpost
      have hflat : [answer].flatMap InboxAnswer.messages = answer.messages := List.append_nil answer.messages
      have hseen₁ : seen ++ answer.messages <+: inbox tenantId recipient d₁ := hflat ▸ hfirst.reached
      refine wp_bind (fun _ => Follows.refl _ _) h₁ ?_
      refine wp_mono (fun answers d₂ h₂ hpost d₃ h₃ hr₃ => ?_) (ih hunheld₁ h₁ hseen₁ hknown₁)
      obtain ⟨hunheld₂, hrest⟩ := hpost
      have hall : seen ++ (answer :: answers).flatMap InboxAnswer.messages =
          seen ++ answer.messages ++ answers.flatMap InboxAnswer.messages := by
        rw [List.flatMap_cons, List.append_assoc]
      have hmore : known <+: seen ++ answer.messages →
          known <+: seen ++ (answer :: answers).flatMap InboxAnswer.messages := by
        intro h
        rw [hall]
        exact h.trans (List.prefix_append _ _)
      refine ⟨hunheld₂.frame hr₃.frame, ⟨?_, fun answer' hmem => ?_, ?_, ?_⟩⟩
      · rw [hall]
        exact hrest.reached.trans (inbox_extends h₂ h₃ hr₃)
      · rcases List.mem_cons.mp hmem with rfl | hmem
        · exact hfirst.pages _ (List.mem_singleton_self _)
        · exact hrest.pages answer' hmem
      · rintro ⟨answer', hmem, hlast⟩
        rcases List.mem_cons.mp hmem with rfl | hmem
        · exact hmore (hflat ▸ hfirst.last ⟨answer', List.mem_singleton_self _, hlast⟩)
        · rw [hall]
          exact hrest.last ⟨answer', hmem, hlast⟩
      · rcases hfirst.polled with hone | hknown'
        · rcases hrest.polled with hpolls | hknown'
          · rw [hflat] at hone
            rw [List.flatMap_cons, List.length_append, List.length_cons]
            exact .inl (by omega)
          · rw [hall]
            exact .inr hknown'
        · exact .inr (hmore (hflat ▸ hknown'))

/-! ## runs -/

theorem wp_follow (follower : Follower) (hunheld : d.messages.table.Unheld t)
    (hd : MailboxInv hashtext settings.maxMessagesPerTenant d)
    (hknown : known <+: inbox follower.tenantId follower.recipient d) :
    (mailboxLogic hashtext settings).wp t (fun answer d' => d'.messages.table.Unheld t ∧ ∃ answers,
      answer = .followed answers ∧
        Followed follower.tenantId follower.recipient known [] follower.limits.length answers d')
      (mailbox sha256 hashtext settings (.follow follower)) d := by
  refine wp_bind (fun _ => Follows.refl _ _) hd ?_
  refine wp_mono (fun answers d₁ h₁ hpost d₂ h₂ hr₂ => ?_) (wp_followInbox hunheld hd List.nil_prefix hknown)
  obtain ⟨hunheld₁, hfollowed⟩ := hpost
  exact ⟨hunheld₁.frame hr₂.frame, answers, rfl, hfollowed.reached.trans (inbox_extends h₁ h₂ hr₂), hfollowed.pages,
    hfollowed.last, hfollowed.polled⟩

theorem mailboxLogic_sound : (mailboxLogic hashtext settings).Sound (mailbox (F := F) sha256 hashtext settings) where
  refl _ _ := .refl _ _
  trans := Follows.trans
  fresh_rely _ hr h := h.frame hr.frame
  ensures_rely hd' hr h := ⟨hd', h.2.rely h.1 hd' hr⟩
  undone_rely _ _ _ := trivial
  body {t request d} _ hd h := by
    cases request with
    | send request =>
        refine wp_bind (fun _ => Follows.refl _ _) hd ?_
        refine wp_mono (fun answer d₁ h₁ hpost d₂ h₂ hr₂ => ?_) (wp_sendMessage h)
        exact ⟨hpost.1.frame hr₂.frame, hpost.2.rely h₁ h₂ hr₂⟩
    | follow follower =>
        refine wp_mono (fun answer d₁ h₁ hpost => ?_) (wp_follow follower h hd List.nil_prefix)
        obtain ⟨hunheld, answers, rfl, hfollowed⟩ := hpost
        exact ⟨hunheld, hfollowed.reached, hfollowed.pages⟩
  commit hd h := by
    have hkeeps := hd.commit h.1
    exact ⟨hkeeps.logic, hkeeps.1, h.2.rely hd hkeeps.1 (hkeeps.2 _ (Nat.succ_ne_self _))⟩
  rollback hd := ⟨(hd.rollback _).logic, trivial⟩

omit [FloatFormat F] in
theorem mailboxLogic_start : (mailboxLogic hashtext settings).Ok
    (Sys.start MailboxDb.empty : Sys (MailboxDb F) IngestError (MailboxRequest F) (MailboxAnswer F)) where
  inv := {
    sequenced := sequenced_empty
    inRange := fun n hn => absurd hn List.not_mem_nil
    once := fun n m row row' hn => by cases hn
    capped := fun tenantId => Nat.zero_le _ }
  procs t := fun n row hin => by cases hin

omit [FloatFormat F] in
theorem stable_inbox (known : String → AgentId String → List (Nat × AgentMessage F)) :
    (mailboxLogic hashtext settings).Stable fun d =>
      MailboxInv hashtext settings.maxMessagesPerTenant d ∧
        ∀ tenantId recipient, known tenantId recipient <+: inbox tenantId recipient d :=
  fun _ _ _ hd' hr h => ⟨hd', fun tenantId recipient => (h.2 tenantId recipient).trans (inbox_extends h.1 hd' hr)⟩

/-- What a recipient gets that was there when it began: all of it, once an answer says that
there is no more, and at the latest when it has polled as often as there were messages. -/
def GetsKnown (known : String → AgentId String → List (Nat × AgentMessage F)) (request : MailboxRequest F)
    (answer : MailboxAnswer F) : Prop :=
  ∀ follower answers, request = .follow follower → answer = .followed answers →
    (∃ answer ∈ answers, answer.isLast = true) ∨
      (known follower.tenantId follower.recipient).length ≤ follower.limits.length →
    known follower.tenantId follower.recipient <+: answers.flatMap InboxAnswer.messages

theorem wp_getsKnown {known : String → AgentId String → List (Nat × AgentMessage F)} {request : MailboxRequest F}
    (hunheld : d.messages.table.Unheld t) (hd : MailboxInv hashtext settings.maxMessagesPerTenant d)
    (hknown : ∀ tenantId recipient, known tenantId recipient <+: inbox tenantId recipient d) :
    (mailboxLogic hashtext settings).wp t (fun answer _ => GetsKnown known request answer)
      (mailbox sha256 hashtext settings request) d := by
  cases request with
  | send request =>
      have hsend : (mailboxLogic hashtext settings).wp t ((mailboxLogic hashtext settings).post t (.send request))
          (mailbox sha256 hashtext settings (.send request)) d := mailboxLogic_sound.body trivial hd hunheld
      refine wp_mono (fun answer d₁ _ _ follower answers hrequest => ?_) hsend
      contradiction
  | follow follower =>
      refine wp_mono (fun answer d₁ h₁ hpost => ?_)
        (wp_and_stable (stable_inbox known) ⟨hd, hknown⟩ (wp_follow follower hunheld hd (hknown _ _)))
      obtain ⟨⟨-, answers, rfl, hfollowed⟩, -, hknown₁⟩ := hpost
      intro follower' answers' hrequest hanswer hdone
      cases hrequest
      cases hanswer
      have hreached : answers.flatMap InboxAnswer.messages <+: inbox follower.tenantId follower.recipient d₁ :=
        hfollowed.reached
      have hlast : (∃ answer ∈ answers, answer.isLast = true) →
          known follower.tenantId follower.recipient <+: answers.flatMap InboxAnswer.messages := hfollowed.last
      rcases hdone with hdone | hpolled
      · exact hlast hdone
      · obtain hlength | hall := hfollowed.polled
        · exact List.prefix_of_prefix_length_le (hknown₁ _ _) hreached (hpolled.trans hlength)
        · exact hall

end Programs

/-- **Delivery**: a key of a tenant has at most one message, and a recipient has at most as
many as the cap; an inbox grows at its end, in the order of the sequence numbers, and who
polls with the highest number that it has seen has got a beginning of it, each message once;
and what is there when it begins it has got when an answer says that there is no more, and
at the latest when it has polled as often as there are messages. -/
theorem mailbox_delivery [FloatFormat F] (sha256 : ByteArray → String) (hashtext : String → Int)
    (settings : MessagingSettings) (schedule : List (Action (MailboxRequest F)))
    (s : Sys (MailboxDb F) IngestError (MailboxRequest F) (MailboxAnswer F))
    (hrun : run (mailbox sha256 hashtext settings) (Sys.start MailboxDb.empty) schedule = some s) :
    (∀ n m row row', s.db.messages.table.committed n = some row → s.db.messages.table.committed m = some row' →
      row.key = row'.key → n = m) ∧
    (∀ tenantId recipient, (inbox tenantId recipient s.db).length ≤ settings.maxMessagesPerTenant ∧
      (inbox tenantId recipient s.db).Pairwise fun p q => p.1 < q.1) ∧
    (∀ t request answer, s.procs t = .committed request answer → MailboxAnswered settings request answer s.db) ∧
    ∀ schedule' s', run (mailbox sha256 hashtext settings) s schedule' = some s' →
      (∀ tenantId recipient, inbox tenantId recipient s.db <+: inbox tenantId recipient s'.db) ∧
      ∀ t follower answers, s.procs t = .idle → s'.procs t = .committed (.follow follower) (.followed answers) →
        (∃ answer ∈ answers, answer.isLast = true) ∨
          (inbox follower.tenantId follower.recipient s.db).length ≤ follower.limits.length →
        inbox follower.tenantId follower.recipient s.db <+: answers.flatMap InboxAnswer.messages := by
  have hsound : (mailboxLogic hashtext settings).Sound (mailbox (F := F) sha256 hashtext settings) := mailboxLogic_sound
  have hpermits : ∀ s schedule, EveryStep (mailbox (F := F) sha256 hashtext settings)
      (mailboxLogic hashtext settings).Permits s schedule :=
    fun s schedule => everyStep_permits (fun _ => trivial) (fun _ _ _ => trivial) schedule
  have hok := hsound.run mailboxLogic_start (hpermits _ _) hrun
  refine ⟨hok.inv.once, fun tenantId recipient => ⟨?_, hok.inv.pairwise_inbox⟩, fun t request answer ht => ?_,
    fun schedule' s' hrun' => ⟨fun tenantId recipient => ?_, fun t follower answers hidle ht hdone => ?_⟩⟩
  · rw [hok.inv.inbox_eq]
    exact (List.length_filter_le _ _).trans (hok.inv.capped tenantId)
  · have hproc := hok.procs t
    rw [ht] at hproc
    exact hproc.2
  · obtain ⟨u, hu⟩ := exists_bystander schedule'
    have hok' := hsound.run hok (hpermits _ _) hrun'
    exact inbox_extends hok.inv hok'.inv (hsound.run_rely hok (hpermits _ _) hu hrun')
  · let known := fun tenantId recipient => inbox tenantId recipient s.db
    let grown : MailboxDb F → Prop := fun d => MailboxInv hashtext settings.maxMessagesPerTenant d ∧
      ∀ tenantId recipient, known tenantId recipient <+: inbox tenantId recipient d
    have hstable : (mailboxLogic hashtext settings).Stable grown := stable_inbox known
    have hsound' : (((mailboxLogic hashtext settings).given grown).also t (GetsKnown known)).Sound
        (mailbox sha256 hashtext settings) := (hsound.given hstable).also fun request d hd hfresh =>
      wp_given hstable hd.2 (wp_getsKnown hfresh hd.1 hd.2.2)
    have hok' := hsound'.run ((hok.given hstable ⟨hok.inv, fun _ _ => List.prefix_refl _⟩).also hidle)
      (everyStep_permits (fun _ => trivial) (fun _ _ _ => trivial) schedule') hrun'
    have hproc := hok'.procs t
    rw [ht] at hproc
    exact hproc.2 rfl follower answers rfl rfl hdone

/-! ## messages to look at -/

section Sample

def sampleAgent : AgentId String := ⟨"planning", "apollo", "reviewer"⟩

def sampleSend (idempotencyKey : String) : MailboxRequest Empty :=
  .send ⟨"11111111-1111-4111-8111-111111111111",
    ⟨PyStr.ofString "planning", PyStr.ofString "apollo", PyStr.ofString "author"⟩,
    ⟨PyStr.ofString "planning", PyStr.ofString "apollo", PyStr.ofString "reviewer"⟩, PyStr.ofString "review",
    [(PyStr.ofString "draft", .int 1)], PyStr.ofString idempotencyKey, .ofFields 2026 7 8 12 0 0 0 (Eq.refl true)⟩

def sampleFollower : Follower := ⟨"11111111-1111-4111-8111-111111111111", sampleAgent, [some 1, some 1]⟩

abbrev SampleMailboxSys := Sys (MailboxDb Empty) IngestError (MailboxRequest Empty) (MailboxAnswer Empty)

def sampleMailboxStart : SampleMailboxSys := Sys.start MailboxDb.empty

theorem samplePageSize : 1 ≤ 200 := by decide

abbrev sampleMailbox : MailboxRequest Empty → Prog (MailboxDb Empty) IngestError (MailboxAnswer Empty) :=
  mailbox (fun _ => "digest") (fun _ => 0) ⟨200, 100000, samplePageSize⟩

def sampleSends : List (Action (MailboxRequest Empty)) :=
  [.begin 1 (sampleSend "k-1"), .begin 2 (sampleSend "k-2"), .exec 1, .exec 2, .exec 1, .exec 1, .exec 1, .exec 1,
    .exec 2, .exec 1, .exec 2, .exec 1, .exec 2, .exec 1, .exec 1, .commit 1, .exec 2, .exec 2, .exec 2, .exec 2,
    .exec 2, .commit 2]

def samplePolls : List (Action (MailboxRequest Empty)) :=
  [.begin 3 (.follow sampleFollower), .exec 3, .exec 3, .exec 3, .exec 3, .commit 3]

/-- A recipient that is done, and what it has got. -/
def followed : Proc (MailboxDb Empty) IngestError (MailboxRequest Empty) (MailboxAnswer Empty) →
    Option (Follower × List (InboxAnswer Empty))
  | .committed (.follow follower) (.followed answers) => some (follower, answers)
  | _ => none

theorem followed_eq_some {c : Proc (MailboxDb Empty) IngestError (MailboxRequest Empty) (MailboxAnswer Empty)}
    {follower : Follower} {answers : List (InboxAnswer Empty)} (h : followed c = some (follower, answers)) :
    c = .committed (.follow follower) (.followed answers) := by
  unfold followed at h
  split at h
  · cases h
    rfl
  · contradiction

/-- Both messages are got, one with each poll. -/
theorem mailbox_delivery_sample : ∃ s s' : SampleMailboxSys, ∃ answers,
    run sampleMailbox sampleMailboxStart sampleSends = some s ∧ run sampleMailbox s samplePolls = some s' ∧
    s'.procs 3 = .committed (.follow sampleFollower) (.followed answers) ∧
    (inbox sampleFollower.tenantId sampleAgent s.db).map Prod.fst = [1, 2] ∧
    inbox sampleFollower.tenantId sampleAgent s.db <+: answers.flatMap InboxAnswer.messages := by
  have hreport : (run sampleMailbox sampleMailboxStart sampleSends).bind (fun s =>
      (run sampleMailbox s samplePolls).bind fun s' => (followed (s'.procs 3)).map fun p =>
        (p.1, (inbox sampleFollower.tenantId sampleAgent s.db).map Prod.fst)) = some (sampleFollower, [1, 2]) := by
    decide +kernel
  obtain ⟨s, hrun, h⟩ := Option.bind_eq_some_iff.mp hreport
  obtain ⟨s', hrun', h⟩ := Option.bind_eq_some_iff.mp h
  obtain ⟨⟨follower, answers⟩, hfollowed, h⟩ := Option.map_eq_some_iff.mp h
  obtain ⟨rfl, hinbox⟩ := Prod.mk.inj h
  have ht := followed_eq_some hfollowed
  have hidle : s.procs 3 = .idle := run_procs hrun (by decide)
  have hlength : (inbox sampleFollower.tenantId sampleAgent s.db).length ≤ sampleFollower.limits.length := by
    rw [← List.length_map (f := Prod.fst), hinbox]
    decide
  obtain ⟨-, -, -, hlater⟩ := mailbox_delivery (fun _ => "digest") (fun _ => 0) ⟨200, 100000, samplePageSize⟩ sampleSends s hrun
  exact ⟨s, s', answers, hrun, hrun', ht, hinbox, (hlater samplePolls s' hrun').2 3 _ answers hidle ht (.inr hlength)⟩

end Sample

end Anoryx.Orchestrator
