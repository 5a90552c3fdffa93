import Anoryx.Sentinel.ModelPolicy

/-!
# Anoryx.Sentinel.ModelInventory

The inventory row of one model of one tenant under the operator's requests
(`admin/model_approval.py`, `model_inventory_repository.py`): approve, deny, retire and
unretire, any number of them at once.

A request reads the row, checks the row that it has read, and writes it with an UPDATE of
the columns that it has changed.  The read takes no lock; the UPDATE does, and holds it
until the request has committed its audit events, on another connection, and then itself.

`Permits` is what the check is there for.  The row that an UPDATE locks need not be the row
that was checked: `Current` says when the check still holds of it.

The audit log is that of the tenant's chain, whose order is the order of commits.
-/

namespace Anoryx.Sentinel.ModelInventory

/-! ## rows -/

inductive ModelType
  | base
  | fineTune
deriving DecidableEq

/-- A row of `model_inventory`, under tenant and model. -/
structure ModelRow where
  modelType : ModelType
  state : InventoryState
  approvedBy : Option String
  approvedAt : Option DateTime
  retireAt : Option DateTime
  updatedAt : DateTime
deriving DecidableEq

def validTransitions : InventoryState → List InventoryState
  | .pending => [.approved, .denied]
  | .approved => [.denied]
  | .denied => [.approved]

/-- `transition`, on the row that it has read -/
def transition (row : ModelRow) (newState : InventoryState) (operatorId : Option String) (now : DateTime) :
    Option ModelRow :=
  if newState = row.state then none
  else if newState ∉ validTransitions row.state then none
  else some { row with state := newState, approvedBy := operatorId, approvedAt := some now, updatedAt := now }

/-- `set_retirement`, on the row that it has read -/
def setRetirement (row : ModelRow) (retireAt now : DateTime) : Option ModelRow :=
  if row.state ≠ .approved then none else some { row with retireAt := some retireAt, updatedAt := now }

/-- `clear_retirement`, on the row that it has read -/
def clearRetirement (row : ModelRow) (now : DateTime) : Option ModelRow :=
  if row.retireAt = none then none else some { row with retireAt := none, updatedAt := now }

/-- A column of an UPDATE: it is left alone unless the session has changed it. -/
def assign {α : Type} [DecidableEq α] (loaded target current : α) : α := if target = loaded then current else target

/-- The UPDATE that a flush sends, on the row as it is by then. -/
def update (loaded target current : ModelRow) : ModelRow where
  modelType := assign loaded.modelType target.modelType current.modelType
  state := assign loaded.state target.state current.state
  approvedBy := assign loaded.approvedBy target.approvedBy current.approvedBy
  approvedAt := assign loaded.approvedAt target.approvedAt current.approvedAt
  retireAt := assign loaded.retireAt target.retireAt current.retireAt
  updatedAt := assign loaded.updatedAt target.updatedAt current.updatedAt

/-! ## requests -/

inductive Command
  | approve
  | deny
  | retire (retireAt : DateTime)
  | unretire
deriving DecidableEq

structure Request where
  command : Command
  modelType : ModelType
  operatorId : Option String
  now : DateTime

inductive EventType
  | modelAdopted
  | modelApproved
  | modelDenied
  | modelRetirementScheduled
  | modelRetirementCancelled
deriving DecidableEq

/-- An event of the audit log, with the request that it is about. -/
structure AdminEvent where
  eventType : EventType
  requestId : Nat
deriving DecidableEq

def Command.eventType : Command → EventType
  | .approve => .modelApproved
  | .deny => .modelDenied
  | .retire _ => .modelRetirementScheduled
  | .unretire => .modelRetirementCancelled

/-- Approve and deny adopt a model that has no row; retire and unretire do not find it. -/
def Command.adopts : Command → Bool
  | .approve | .deny => true
  | _ => false

/-- The row that `adopt` inserts. -/
def Request.pendingRow (q : Request) : ModelRow := ⟨q.modelType, .pending, none, none, none, q.now⟩

/-- The row as the session has changed it, unless the request is a conflict. -/
def Request.change (q : Request) (row : ModelRow) : Option ModelRow :=
  match q.command with
  | .approve => transition row .approved q.operatorId q.now
  | .deny => transition row .denied q.operatorId q.now
  | .retire retireAt => setRetirement row retireAt q.now
  | .unretire => clearRetirement row q.now

/-- The deadline of a retirement is in the future. -/
def Request.isAdmissible (q : Request) : Bool :=
  match q.command with
  | .retire retireAt => q.now < retireAt
  | _ => true

/-! ## the system -/

inductive Phase
  | idle
  | started (q : Request)
  /-- there is no row; the INSERT is next -/
  | missing (q : Request)
  /-- the row has been read, or inserted -/
  | loaded (q : Request) (row : ModelRow) (created : Bool)
  | flushed (q : Request) (created : Bool)
  /-- the decision event is committed, at this place of the log -/
  | audited (q : Request) (position : Nat)
  | done
  | failed

/-- A committed change of the row: what it was and what it is, the place of its event, and
how long the log was at the commit. -/
structure Change where
  requestId : Nat
  command : Command
  before : Option ModelRow
  after : ModelRow
  position : Nat
  trail : Nat

/-- `history` is read by no step. -/
structure System where
  committed : Option ModelRow
  /-- the row as the open transaction that has written it leaves it -/
  lock : Option (Nat × ModelRow)
  phases : Nat → Phase
  audit : List AdminEvent
  history : List Change

inductive Event
  | start (i : Nat) (q : Request)
  /-- the SELECT -/
  | load (i : Nat)
  /-- the INSERT of a pending row -/
  | insert (i : Nat)
  /-- the check, and the UPDATE -/
  | flush (i : Nat)
  /-- the commit of the audit events -/
  | audit (i : Nat)
  | commit (i : Nat)
  /-- an exception, at any point before the commit -/
  | fail (i : Nat)

namespace System

variable (s : System)

def setPhase (i : Nat) (phase : Phase) : System := { s with phases := Function.update s.phases i phase }

/-- Nobody else has written the row. -/
def free (i : Nat) : Bool := s.lock.all fun p => p.1 = i

/-- The row as an UPDATE finds it once nobody else has the lock. -/
def newest : Option ModelRow := (s.lock.map Prod.snd).or s.committed

def rollback (i : Nat) : System :=
  { s with lock := s.lock.filter fun p => p.1 ≠ i }

def loadStep (i : Nat) (q : Request) : System :=
  match s.committed with
  | some row => s.setPhase i (.loaded q row false)
  | none => s.setPhase i (if q.command.adopts then .missing q else .failed)

/-- A row under the key makes it fail; one that is not committed yet makes it wait. -/
def insertStep (i : Nat) (q : Request) : Option System :=
  if s.free i then
    match s.committed with
    | some _ => some ((s.rollback i).setPhase i .failed)
    | none => some ({ s with lock := some (i, q.pendingRow) }.setPhase i (.loaded q q.pendingRow true))
  else none

def flushStep (i : Nat) (q : Request) (row : ModelRow) (created : Bool) : Option System :=
  match q.change row with
  | none => some ((s.rollback i).setPhase i .failed)
  | some target =>
      if target = row then some (s.setPhase i (.flushed q created))
      else if s.free i then
        s.newest.map fun current =>
          { s with lock := some (i, update row target current) }.setPhase i (.flushed q created)
      else none

def auditStep (i : Nat) (q : Request) (created : Bool) : System :=
  let log := if created then s.audit ++ [AdminEvent.mk .modelAdopted i] else s.audit
  { s with audit := log ++ [AdminEvent.mk q.command.eventType i] }.setPhase i (.audited q log.length)

def commitStep (i : Nat) (q : Request) (position : Nat) : System :=
  match s.lock with
  | some (j, row) =>
      if j = i then
        { s with
          committed := some row
          lock := none
          history := s.history ++ [Change.mk i q.command s.committed row position s.audit.length] }.setPhase i .done
      else s.setPhase i .done
  | none => s.setPhase i .done

def step : Event → Option System
  | .start i q =>
      match s.phases i with
      | .idle => some (s.setPhase i (if q.isAdmissible then .started q else .failed))
      | _ => none
  | .load i =>
      match s.phases i with
      | .started q => some (s.loadStep i q)
      | _ => none
  | .insert i =>
      match s.phases i with
      | .missing q => s.insertStep i q
      | _ => none
  | .flush i =>
      match s.phases i with
      | .loaded q row created => s.flushStep i q row created
      | _ => none
  | .audit i =>
      match s.phases i with
      | .flushed q created => some (s.auditStep i q created)
      | _ => none
  | .commit i =>
      match s.phases i with
      | .audited q position => some (s.commitStep i q position)
      | _ => none
  | .fail i =>
      match s.phases i with
      | .idle | .done | .failed => none
      | _ => some ((s.rollback i).setPhase i .failed)

/-- The steps of a run. -/
def run : System → List Event → Option System
  | s, [] => some s
  | s, e :: events => do
      let s ← s.step e
      s.run events

end System

/-! ## what the check is there for -/

/-- The state before a change; a row that is adopted by the change was pending. -/
def stateOf (before : Option ModelRow) : InventoryState := before.elim .pending ModelRow.state

/-- The state that a command can be given for. -/
def Command.accepts : Command → InventoryState → Bool
  | .approve, state => .approved ∈ validTransitions state
  | .deny, state => .denied ∈ validTransitions state
  | .retire _, state => state = .approved
  | .unretire, _ => true

/-- The state that a command leads to. -/
def Command.target : Command → InventoryState → InventoryState
  | .approve, _ => .approved
  | .deny, _ => .denied
  | .retire _, state | .unretire, state => state

/-- A permitted edge; retirements and their cancellations stay where they are, and what
retires is approved. -/
def Permits (command : Command) (before : Option ModelRow) (after : ModelRow) : Prop :=
  command.accepts (stateOf before) = true ∧ after.state = command.target (stateOf before)

/-- The deadline before a change. -/
def deadlineOf (before : Option ModelRow) : Option DateTime := before.bind ModelRow.retireAt

/-- What a command does to a row, whether or not its check holds of it. -/
structure Effect (command : Command) (before : Option ModelRow) (after : ModelRow) : Prop where
  state : after.state = command.target (stateOf before)
  kept : command = .approve ∨ command = .deny → after.retireAt = deadlineOf before
  cleared : command = .unretire → after.retireAt = none

/-- Each change starts from the row that the one before has left. -/
def Follows : Option ModelRow → List Change → Option ModelRow → Prop
  | row, [], row' => row = row'
  | row, c :: cs, row' => c.before = row ∧ Follows (some c.after) cs row'

/-- A change has its event in the log, and had it when it was committed. -/
def Recorded (audit : List AdminEvent) (c : Change) : Prop :=
  c.position < c.trail ∧ c.trail ≤ audit.length ∧ audit[c.position]? = some ⟨c.command.eventType, c.requestId⟩

/-- If the session has changed the row, its check also holds of the row that it locks. -/
def Phase.Current (newest : Option ModelRow) : Phase → Prop
  | .loaded q row _ => ∀ target ∈ q.change row, target ≠ row →
      ∀ current ∈ newest, q.command.accepts current.state = true
  | _ => True

instance (newest : Option ModelRow) : DecidablePred (Phase.Current newest)
  | .loaded q row _ => inferInstanceAs (Decidable (∀ target ∈ q.change row, target ≠ row →
      ∀ current ∈ newest, q.command.accepts current.state = true))
  | .idle | .started _ | .missing _ | .flushed _ _ | .audited _ _ | .done | .failed => inferInstanceAs (Decidable True)

/-- The check of an UPDATE still holds of the row that it locks. -/
def System.Current (s : System) : Event → Prop
  | .flush i => (s.phases i).Current s.newest
  | _ => True

instance (s : System) : DecidablePred s.Current
  | .flush i => inferInstanceAs (Decidable ((s.phases i).Current s.newest))
  | .start _ _ | .load _ | .insert _ | .audit _ | .commit _ | .fail _ => inferInstanceAs (Decidable True)

def System.CurrentRun : System → List Event → Prop
  | _, [] => True
  | s, e :: events => s.Current e ∧ ∀ s' ∈ s.step e, s'.CurrentRun events

instance decidableCurrentRun : (s : System) → (events : List Event) → Decidable (s.CurrentRun events)
  | _, [] => inferInstanceAs (Decidable True)
  | s, e :: events =>
      let _ : DecidablePred fun s' : System => s'.CurrentRun events := fun s' => decidableCurrentRun s' events
      inferInstanceAs (Decidable (s.Current e ∧ ∀ s' ∈ s.step e, s'.CurrentRun events))

/-! ## one UPDATE -/

section Update

variable {q : Request} {row target current : ModelRow}

@[simp] theorem assign_self {α : Type} [DecidableEq α] (loaded current : α) : assign loaded loaded current = current := by
  simp [assign]

theorem assign_of_ne {α : Type} [DecidableEq α] {loaded target : α} (h : target ≠ loaded) (current : α) :
    assign loaded target current = target := by
  simp [assign, h]

theorem transition_eq_some {newState : InventoryState} {operatorId : Option String} {now : DateTime}
    (h : transition row newState operatorId now = some target) : target.state = newState ∧ newState ≠ row.state := by
  rw [transition] at h
  split at h
  · contradiction
  · next hne =>
      split at h
      · contradiction
      · cases h
        exact ⟨rfl, hne⟩

theorem state_update (h : q.change row = some target) (current : ModelRow) :
    (update row target current).state = q.command.target current.state := by
  rw [Request.change] at h
  cases hcommand : q.command with
  | approve =>
      rw [hcommand] at h
      obtain ⟨hstate, hne⟩ := transition_eq_some h
      rw [update, hstate, assign_of_ne hne]
      rfl
  | deny =>
      rw [hcommand] at h
      obtain ⟨hstate, hne⟩ := transition_eq_some h
      rw [update, hstate, assign_of_ne hne]
      rfl
  | retire retireAt =>
      simp only [hcommand, setRetirement] at h
      split at h
      · contradiction
      · cases h
        exact assign_self _ _
  | unretire =>
      simp only [hcommand, clearRetirement] at h
      split at h
      · contradiction
      · cases h
        exact assign_self _ _

theorem retireAt_update (h : q.change row = some target) (current : ModelRow) :
    (q.command = .approve ∨ q.command = .deny → (update row target current).retireAt = current.retireAt) ∧
    (q.command = .unretire → (update row target current).retireAt = none) := by
  rw [Request.change] at h
  cases hcommand : q.command with
  | approve =>
      simp only [hcommand, transition] at h
      split at h
      · contradiction
      · split at h
        · contradiction
        · cases h
          exact ⟨fun _ => assign_self _ _, fun hother => by contradiction⟩
  | deny =>
      simp only [hcommand, transition] at h
      split at h
      · contradiction
      · split at h
        · contradiction
        · cases h
          exact ⟨fun _ => assign_self _ _, fun hother => by contradiction⟩
  | retire retireAt => exact ⟨fun hother => by simp at hother, fun hother => by contradiction⟩
  | unretire =>
      simp only [hcommand, clearRetirement] at h
      split at h
      · contradiction
      · next hsome =>
          cases h
          exact ⟨fun hother => by simp at hother, fun _ => assign_of_ne (Ne.symm hsome) _⟩

theorem change_self (h : q.change row = some row) : row.state = .approved := by
  rw [Request.change] at h
  cases hcommand : q.command with
  | approve =>
      rw [hcommand] at h
      exact (transition_eq_some h).1
  | deny =>
      rw [hcommand] at h
      obtain ⟨hstate, hne⟩ := transition_eq_some h
      exact absurd hstate.symm hne
  | retire retireAt =>
      simp only [hcommand, setRetirement] at h
      split at h
      · contradiction
      · next hstate => exact not_not.mp hstate
  | unretire =>
      simp only [hcommand, clearRetirement] at h
      split at h
      · contradiction
      · next hsome =>
          rw [Option.some.injEq] at h
          rw [← h] at hsome
          exact absurd rfl hsome

end Update

/-! ## the audit events -/

variable {c : Change} {lock : Option (Nat × ModelRow)} {phase : Phase} {j position : Nat} {row current : ModelRow}
  {events : List Event} {committed : Option ModelRow} {created : Bool}

theorem Follows.snoc {row row' : Option ModelRow} {cs : List Change} (h : Follows row cs row') (hc : c.before = row') :
    Follows row (cs ++ [c]) (some c.after) := by
  induction cs generalizing row with
  | nil => exact ⟨hc.trans h.symm, rfl⟩
  | cons _ cs ih => exact ⟨h.1, ih h.2⟩

theorem Recorded.append {audit : List AdminEvent} (h : Recorded audit c) (events : List AdminEvent) :
    Recorded (audit ++ events) c := by
  obtain ⟨hbefore, hlength, hevent⟩ := h
  refine ⟨hbefore, by rw [List.length_append]; omega, ?_⟩
  rw [List.getElem?_append_left (by omega), hevent]

/-- What holds of the log in every run: the changes are recorded, and in the order of their
events. -/
structure Ok (start : Option ModelRow) (s : System) : Prop where
  follows : Follows start s.history s.committed
  recorded : ∀ c ∈ s.history, Recorded s.audit c
  ordered : s.history.Pairwise fun c c' => c.trail ≤ c'.position
  audited : ∀ i q position, s.phases i = .audited q position →
    position < s.audit.length ∧ s.audit[position]? = some ⟨q.command.eventType, i⟩
  after : ∀ i row q position, s.lock = some (i, row) → s.phases i = .audited q position →
    ∀ c ∈ s.history, c.trail ≤ position

section Runs

variable {start : Option ModelRow} {s s' : System} {e : Event} {i : Nat} {q : Request}

theorem Ok.advance (h : Ok start s) (hlock : ∀ j row, lock = some (j, row) → j ≠ i → s.lock = some (j, row))
    (hphase : ∀ q position, phase ≠ .audited q position) : Ok start ({ s with lock }.setPhase i phase) where
  follows := h.follows
  recorded := h.recorded
  ordered := h.ordered
  audited j q' position hj := by
    simp only [System.setPhase, Function.update_apply] at hj
    split at hj
    · exact absurd hj (hphase q' position)
    · exact h.audited j q' position hj
  after j row q' position hheld hj := by
    simp only [System.setPhase, Function.update_apply] at hj
    split at hj
    · exact absurd hj (hphase q' position)
    · next hne => exact h.after j row q' position (hlock j row hheld hne) hj

theorem rollback_lock (h : (s.rollback i).lock = some (j, row)) : s.lock = some (j, row) :=
  (Option.filter_eq_some_iff.mp h).1

theorem Ok.audit (h : Ok start s) (created : Bool) : Ok start (s.auditStep i q created) := by
  rw [System.auditStep]
  generalize hlog : (if created then s.audit ++ [AdminEvent.mk .modelAdopted i] else s.audit) = log
  obtain ⟨adopted, hadopted⟩ : ∃ adopted, log = s.audit ++ adopted := by
    cases created
    · exact ⟨[], by rw [← hlog]; simp⟩
    · exact ⟨_, hlog.symm⟩
  have hlength : s.audit.length ≤ log.length := by
    rw [hadopted, List.length_append]
    omega
  exact {
    follows := h.follows
    recorded := fun c hc => by
      have := (h.recorded c hc).append (adopted ++ [AdminEvent.mk q.command.eventType i])
      rwa [← List.append_assoc, ← hadopted] at this
    ordered := h.ordered
    audited := fun j q' position hj => by
      simp only [System.setPhase, Function.update_apply] at hj ⊢
      split at hj
      · next heq =>
          cases hj
          simp [heq]
      · obtain ⟨hlt, hevent⟩ := h.audited j q' position hj
        refine ⟨by rw [List.length_append]; omega, ?_⟩
        rw [List.getElem?_append_left (by omega), hadopted, List.getElem?_append_left hlt, hevent]
    after := fun j row q' position hlock hj c hc => by
      simp only [System.setPhase, Function.update_apply] at hlock hj
      split at hj
      · cases hj
        exact (h.recorded c hc).2.1.trans hlength
      · exact h.after j row q' position hlock hj c hc }

theorem Ok.commit (h : Ok start s) (hi : s.phases i = .audited q position) :
    Ok start (s.commitStep i q position) := by
  rw [System.commitStep]
  split
  · next j row hlock =>
      split
      · next heq =>
          subst heq
          obtain ⟨hlt, hevent⟩ := h.audited j q position hi
          exact {
            follows := h.follows.snoc rfl
            recorded := fun c hc => by
              rcases List.mem_append.mp hc with hc | hc
              · exact h.recorded c hc
              · rw [List.mem_singleton.mp hc]
                exact ⟨hlt, le_refl _, hevent⟩
            ordered := by
              refine List.pairwise_append.mpr ⟨h.ordered, List.pairwise_singleton .., fun c hc c' hc' => ?_⟩
              rw [List.mem_singleton.mp hc']
              exact h.after j row q position hlock hi c hc
            audited := fun k q' p hk => by
              simp only [System.setPhase, Function.update_apply] at hk
              split at hk
              · contradiction
              · exact h.audited k q' p hk
            after := fun k row' q' p hheld => by
              contradiction }
      · exact h.advance (fun _ _ hheld _ => hheld) fun _ _ => by simp
  · exact h.advance (fun _ _ hheld _ => hheld) fun _ _ => by simp

/-- **One step** keeps the log. -/
theorem Ok.step (h : Ok start s) (hstep : s.step e = some s') : Ok start s' := by
  have hquiet : ∀ {i : Nat} {phase : Phase}, (∀ q position, phase ≠ .audited q position) →
      Ok start (s.setPhase i phase) := fun hphase => h.advance (fun _ _ hheld _ => hheld) hphase
  have hrollback : ∀ {i : Nat}, Ok start ((s.rollback i).setPhase i .failed) :=
    h.advance (fun _ _ hheld _ => rollback_lock hheld) fun _ _ => by simp
  cases e with
  | start i q =>
      simp only [System.step] at hstep
      split at hstep
      · cases hstep
        refine hquiet fun q' position => ?_
        split <;> simp
      · contradiction
  | load i =>
      simp only [System.step] at hstep
      split at hstep
      · next q _ =>
          cases hstep
          rw [System.loadStep]
          split
          · exact hquiet fun q' position => by simp
          · refine hquiet fun q' position => ?_
            split <;> simp
      · contradiction
  | insert i =>
      simp only [System.step] at hstep
      split at hstep
      · next q _ =>
          rw [System.insertStep] at hstep
          split at hstep
          · split at hstep
            · cases hstep
              exact hrollback
            · cases hstep
              refine h.advance (fun j row hheld hne => ?_) fun q' position => by simp
              cases hheld
              contradiction
          · contradiction
      · contradiction
  | flush i =>
      simp only [System.step] at hstep
      split at hstep
      · next q row created _ =>
          rw [System.flushStep] at hstep
          split at hstep
          · cases hstep
            exact hrollback
          · split at hstep
            · cases hstep
              exact hquiet fun q' position => by simp
            · split at hstep
              · obtain ⟨current, -, rfl⟩ := Option.map_eq_some_iff.mp hstep
                refine h.advance (fun j row hheld hne => ?_) fun q' position => by simp
                cases hheld
                contradiction
              · contradiction
      · contradiction
  | audit i =>
      simp only [System.step] at hstep
      split at hstep
      · cases hstep
        exact h.audit _
      · contradiction
  | commit i =>
      simp only [System.step] at hstep
      split at hstep
      · next q position hi =>
          cases hstep
          exact h.commit hi
      · contradiction
  | fail i =>
      simp only [System.step] at hstep
      split at hstep
      all_goals first
        | contradiction
        | (cases hstep
           exact hrollback)

theorem Ok.run (h : Ok start s) (hrun : s.run events = some s') : Ok start s' := by
  induction events generalizing s with
  | nil =>
      cases hrun
      exact h
  | cons e events ih =>
      obtain ⟨s₁, hstep, hrest⟩ := Option.bind_eq_some_iff.mp hrun
      exact ih (h.step hstep) hrest

/-! ## the edges -/

/-- The row that an UPDATE works on: the committed one, or one that its transaction has
inserted. -/
def StartsFrom (committed : Option ModelRow) (current : ModelRow) : Prop :=
  committed = some current ∨ committed = none ∧ current.state = .pending ∧ current.retireAt = none

theorem StartsFrom.stateOf (h : StartsFrom committed current) : stateOf committed = current.state := by
  rcases h with rfl | ⟨rfl, hpending, -⟩
  · rfl
  · exact hpending.symm

theorem StartsFrom.deadlineOf (h : StartsFrom committed current) : deadlineOf committed = current.retireAt := by
  rcases h with rfl | ⟨rfl, -, hnone⟩
  · rfl
  · exact hnone.symm

section Guard

variable {P : Command → Option ModelRow → ModelRow → Prop}

/-- What a request has written is as `P` says. -/
def Phase.Holds (P : Command → Option ModelRow → ModelRow → Prop) (committed : Option ModelRow) (written : ModelRow) :
    Phase → Prop
  | .loaded _ row _ => written = row ∧ committed = none ∧ row.state = .pending ∧ row.retireAt = none
  | .flushed q _ | .audited q _ => P q.command committed written
  | _ => False

/-- The changes are as `P` says, and so is what is written. -/
structure Guarded (P : Command → Option ModelRow → ModelRow → Prop) (s : System) : Prop where
  changes : ∀ c ∈ s.history, P c.command c.before c.after
  held : ∀ i row, s.lock = some (i, row) → (s.phases i).Holds P s.committed row

theorem Guarded.advance (h : Guarded P s) {audit : List AdminEvent}
    (hlock : ∀ j row, lock = some (j, row) → j ≠ i → s.lock = some (j, row))
    (hphase : ∀ row, lock = some (i, row) → phase.Holds P s.committed row) :
    Guarded P ({ s with lock, audit }.setPhase i phase) where
  changes := h.changes
  held j row hheld := by
    simp only [System.setPhase, Function.update_apply] at hheld ⊢
    split
    · next heq =>
        subst heq
        exact hphase row hheld
    · next hne => exact h.held j row (hlock j row hheld hne)

theorem Guarded.rollback (h : Guarded P s) : Guarded P ((s.rollback i).setPhase i .failed) :=
  h.advance (fun _ _ hheld _ => rollback_lock hheld) fun row hheld => by
    simpa using (Option.filter_eq_some_iff.mp hheld).2

theorem Guarded.not_held (h : Guarded P s) (hi : s.phases i = phase) (hphase : ∀ row, ¬phase.Holds P s.committed row)
    (row : ModelRow) : s.lock ≠ some (i, row) := by
  intro hlock
  have := h.held i row hlock
  rw [hi] at this
  exact hphase row this

theorem Guarded.startsFrom (h : Guarded P s) (hi : s.phases i = .loaded q row created) (hfree : s.free i = true)
    (hnewest : s.newest = some current) : StartsFrom s.committed current := by
  cases hlock : s.lock with
  | none =>
      rw [System.newest, hlock, Option.map_none, Option.none_or] at hnewest
      exact .inl hnewest
  | some p =>
      obtain ⟨j, inserted⟩ := p
      have hj : j = i := by simpa [System.free, hlock] using hfree
      subst hj
      have hholds := h.held j inserted hlock
      rw [hi] at hholds
      obtain ⟨heq, hpending⟩ := hholds
      rw [System.newest, hlock, Option.map_some, Option.some_or, Option.some.injEq] at hnewest
      subst hnewest heq
      exact .inr hpending

/-- An UPDATE writes what `P` says. -/
def Writes (P : Command → Option ModelRow → ModelRow → Prop) (s : System) : Event → Prop
  | .flush i => ∀ q row created target current, s.phases i = .loaded q row created → q.change row = some target →
      target ≠ row → s.newest = some current → StartsFrom s.committed current →
      P q.command s.committed (update row target current)
  | _ => True

theorem Guarded.flush (h : Guarded P s) (hi : s.phases i = .loaded q row created) (hwrites : Writes P s (.flush i))
    (hstep : s.flushStep i q row created = some s') : Guarded P s' := by
  rw [System.flushStep] at hstep
  split at hstep
  · cases hstep
    exact h.rollback
  · next target htarget =>
      split at hstep
      · next heq =>
          cases hstep
          subst heq
          refine h.advance (fun _ _ hheld _ => hheld) fun written hheld => ?_
          -- a row that was inserted is pending, and a pending row is changed
          have hholds := h.held i written hheld
          rw [hi] at hholds
          have happroved := change_self htarget
          rw [hholds.2.2.1] at happroved
          contradiction
      · next hne =>
          split at hstep
          · next hfree =>
              obtain ⟨current, hnewest, rfl⟩ := Option.map_eq_some_iff.mp hstep
              refine h.advance (fun j written hheld hother => ?_) fun written hheld => ?_
              · cases hheld
                contradiction
              · cases hheld
                exact hwrites q row created target current hi htarget hne hnewest (h.startsFrom hi hfree hnewest)
          · contradiction

theorem Guarded.commit (h : Guarded P s) (hi : s.phases i = .audited q position) :
    Guarded P (s.commitStep i q position) := by
  have hnothing (hnot : ∀ row, s.lock ≠ some (i, row)) : Guarded P (s.setPhase i .done) :=
    h.advance (fun _ _ hheld _ => hheld) fun row hheld => absurd hheld (hnot row)
  rw [System.commitStep]
  split
  · next j row hlock =>
      split
      · next heq =>
          subst heq
          have hholds := h.held j row hlock
          rw [hi] at hholds
          refine ⟨fun c hc => ?_, fun k row' hheld => by contradiction⟩
          rcases List.mem_append.mp hc with hc | hc
          · exact h.changes c hc
          · rw [List.mem_singleton.mp hc]
            exact hholds
      · next hne =>
          refine hnothing fun row' hheld => hne ?_
          rw [hlock, Option.some.injEq, Prod.mk.injEq] at hheld
          exact hheld.1
  · next hnone => exact hnothing fun row' hheld => by simp [hnone] at hheld

/-- **One step**: it is enough to know what an UPDATE writes. -/
theorem Guarded.step (h : Guarded P s) (hwrites : Writes P s e) (hstep : s.step e = some s') : Guarded P s' := by
  have hquiet : ∀ {i : Nat} {phase : Phase}, (∀ row, s.lock ≠ some (i, row)) → Guarded P (s.setPhase i phase) :=
    fun hnot => h.advance (fun _ _ hheld _ => hheld) fun row hheld => absurd hheld (hnot row)
  cases e with
  | start i q =>
      simp only [System.step] at hstep
      split at hstep
      · next hi =>
          cases hstep
          exact hquiet (h.not_held hi fun _ => id)
      · contradiction
  | load i =>
      simp only [System.step] at hstep
      split at hstep
      · next q hi =>
          cases hstep
          rw [System.loadStep]
          split <;> exact hquiet (h.not_held hi fun _ => id)
      · contradiction
  | insert i =>
      simp only [System.step] at hstep
      split at hstep
      · next q hi =>
          rw [System.insertStep] at hstep
          split at hstep
          · split at hstep
            · cases hstep
              exact h.rollback
            · next hnone =>
                cases hstep
                refine h.advance (fun j row hheld hne => ?_) fun row hheld => ?_
                · cases hheld
                  contradiction
                · cases hheld
                  exact ⟨rfl, hnone, rfl, rfl⟩
          · contradiction
      · contradiction
  | flush i =>
      simp only [System.step] at hstep
      split at hstep
      · next q row created hi => exact h.flush hi hwrites hstep
      · contradiction
  | audit i =>
      simp only [System.step] at hstep
      split at hstep
      · next q created hi =>
          cases hstep
          refine h.advance (fun _ _ hheld _ => hheld) fun row hheld => ?_
          have hholds := h.held i row hheld
          rwa [hi] at hholds
      · contradiction
  | commit i =>
      simp only [System.step] at hstep
      split at hstep
      · next q position hi =>
          cases hstep
          exact h.commit hi
      · contradiction
  | fail i =>
      simp only [System.step] at hstep
      split at hstep
      all_goals first
        | contradiction
        | (cases hstep
           exact h.rollback)

end Guard

theorem writes_effect (s : System) (e : Event) : Writes Effect s e := by
  cases e with
  | flush i =>
      intro q row created target current _ htarget _ _ hstarts
      obtain ⟨hkept, hcleared⟩ := retireAt_update htarget current
      exact {
        state := by rw [hstarts.stateOf]; exact state_update htarget current
        kept := fun hcommand => by rw [hstarts.deadlineOf]; exact hkept hcommand
        cleared := hcleared }
  | _ => trivial

theorem writes_permits (h : s.Current e) : Writes Permits s e := by
  cases e with
  | flush i =>
      intro q row created target current hi htarget hne hnewest hstarts
      rw [System.Current, hi] at h
      rw [Permits, hstarts.stateOf]
      exact ⟨h target htarget hne current hnewest, state_update htarget current⟩
  | _ => trivial

theorem Guarded.run_permits (h : Guarded Permits s) (hcurrent : s.CurrentRun events) (hrun : s.run events = some s') :
    Guarded Permits s' := by
  induction events generalizing s with
  | nil =>
      cases hrun
      exact h
  | cons e events ih =>
      obtain ⟨s₁, hstep, hrest⟩ := Option.bind_eq_some_iff.mp hrun
      exact ih (h.step (writes_permits hcurrent.1) hstep) (hcurrent.2 s₁ hstep) hrest

/-- A step leaves the history alone, or commits one change. -/
theorem history_step (hstep : s.step e = some s') :
    s'.history = s.history ∨ ∃ i q position row, e = .commit i ∧ s.phases i = .audited q position ∧
      s.lock = some (i, row) ∧
      s'.history = s.history ++ [⟨i, q.command, s.committed, row, position, s.audit.length⟩] := by
  cases e with
  | start i q =>
      simp only [System.step] at hstep
      split at hstep
      · cases hstep
        exact .inl rfl
      · contradiction
  | load i =>
      simp only [System.step] at hstep
      split at hstep
      · cases hstep
        rw [System.loadStep]
        split <;> exact .inl rfl
      · contradiction
  | insert i =>
      simp only [System.step, System.insertStep] at hstep
      grind [System.setPhase, System.rollback]
  | flush i =>
      simp only [System.step, System.flushStep] at hstep
      grind [System.setPhase, System.rollback, Option.map_eq_some_iff]
  | audit i =>
      simp only [System.step] at hstep
      split at hstep
      · cases hstep
        exact .inl rfl
      · contradiction
  | commit i =>
      simp only [System.step] at hstep
      split at hstep
      · next q position hi =>
          cases hstep
          rw [System.commitStep]
          split
          · next j row hlock =>
              split
              · next heq =>
                  subst heq
                  exact .inr ⟨j, q, position, row, rfl, hi, hlock, rfl⟩
              · exact .inl rfl
          · exact .inl rfl
      · contradiction
  | fail i =>
      simp only [System.step] at hstep
      grind [System.setPhase, System.rollback]

/-! ## every run -/

/-- Nothing has begun. -/
structure Initial (s : System) : Prop where
  idle : ∀ i, s.phases i = .idle
  unlocked : s.lock = none
  unchanged : s.history = []

theorem Initial.ok (h : Initial s) : Ok s.committed s where
  follows := by
    rw [h.unchanged]
    rfl
  recorded := by simp [h.unchanged]
  ordered := by simp [h.unchanged]
  audited i q position hi := by
    rw [h.idle] at hi
    contradiction
  after i row q position hlock := by
    rw [h.unlocked] at hlock
    contradiction

theorem Initial.guarded (h : Initial s) (P : Command → Option ModelRow → ModelRow → Prop) : Guarded P s where
  changes := by simp [h.unchanged]
  held i row hlock := by
    rw [h.unlocked] at hlock
    contradiction

/-- The changes of a row lead from one to the next, each has its event in the log since
before its commit, and the events are in the order of the commits; and each change is a
permitted one, if no UPDATE locks a row that its check does not hold of. -/
theorem inventory_changes (h : Initial s) (events : List Event) (hrun : s.run events = some s') :
    Follows s.committed s'.history s'.committed ∧ (∀ c ∈ s'.history, Recorded s'.audit c) ∧
    s'.history.Pairwise (fun c c' => c.trail ≤ c'.position) ∧
    (s.CurrentRun events → ∀ c ∈ s'.history, Permits c.command c.before c.after) := by
  have hok := h.ok.run hrun
  exact ⟨hok.follows, hok.recorded, hok.ordered,
    fun hcurrent => ((h.guarded Permits).run_permits hcurrent hrun).changes⟩

end Runs

/-! ## an approval, and a check that is overtaken -/

section Sample

def sampleMoment (minute : Nat) (h : DateTime.valid 2026 7 8 12 minute 0 0 = true) : DateTime :=
  .ofFields 2026 7 8 12 minute 0 0 h

def sampleRequest (command : Command) : Request := ⟨command, .base, some "operator-1", sampleMoment 0 (Eq.refl true)⟩

def unknownModel : System := ⟨none, none, fun _ => .idle, [], []⟩

def approvedModel : System :=
  { unknownModel with
    committed := some ⟨.base, .approved, none, none, none, sampleMoment 0 (Eq.refl true)⟩ }

/-- One request after the other: the model is adopted and approved, then denied. -/
def oneByOne : List Event :=
  [.start 0 (sampleRequest .approve), .load 0, .insert 0, .flush 0, .audit 0, .commit 0,
    .start 1 (sampleRequest .deny), .load 1, .flush 1, .audit 1, .commit 1]

theorem inventory_changes_sample : ∃ s', unknownModel.run oneByOne = some s' ∧
    s'.history.map (fun c => (c.command, stateOf c.before, c.after.state)) =
      [(.approve, .pending, .approved), (.deny, .approved, .denied)] ∧
    (∀ c ∈ s'.history, Recorded s'.audit c) ∧ ∀ c ∈ s'.history, Permits c.command c.before c.after := by
  have hhistory : (unknownModel.run oneByOne).map (fun s => s.history.map fun c =>
      (c.command, stateOf c.before, c.after.state)) =
      some [(.approve, .pending, .approved), (.deny, .approved, .denied)] := rfl
  obtain ⟨s', hrun, hchanges⟩ := Option.map_eq_some_iff.mp hhistory
  have hcurrent : unknownModel.CurrentRun oneByOne := by decide
  obtain ⟨-, hrecorded, -, hpermitted⟩ := inventory_changes ⟨fun _ => rfl, rfl, rfl⟩ oneByOne hrun
  exact ⟨s', hrun, hchanges, hrecorded, hpermitted hcurrent⟩

/-- Two operators deny at once; one denies while the other retires. -/
def overtaken (command : Command) : List Event :=
  [.start 0 (sampleRequest .deny), .start 1 (sampleRequest command), .load 0, .load 1, .flush 0, .audit 0, .commit 0,
    .flush 1, .audit 1, .commit 1]

theorem overtaken_checks :
    (∃ s', approvedModel.run (overtaken .deny) = some s' ∧ ¬∀ c ∈ s'.history, Permits c.command c.before c.after) ∧
    ∃ s', approvedModel.run (overtaken (.retire (sampleMoment 30 (Eq.refl true)))) = some s' ∧
      s'.committed.map (fun row => (row.state, row.retireAt)) = some (.denied, some (sampleMoment 30 (Eq.refl true))) ∧
      ¬∀ c ∈ s'.history, Permits c.command c.before c.after := by
  refine ⟨⟨_, rfl, fun h => ?_⟩, _, rfl, rfl, fun h => ?_⟩
  · have hsecond := (h _ (.tail _ (.head _))).1
    contradiction
  · have hsecond := (h _ (.tail _ (.head _))).1
    contradiction

end Sample

end Anoryx.Sentinel.ModelInventory
