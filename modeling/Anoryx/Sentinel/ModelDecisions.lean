import Anoryx.Sentinel.EvalCache
import Anoryx.Sentinel.ModelInventory

/-!
# Anoryx.Sentinel.ModelDecisions

What an operator's requests about a model do to the decisions of the gateway: the inventory
row of `ModelInventory` together with the lookups of `EvalCache`, whose SELECTs find the
row that is committed.

The policies stay as they are, and so does the version of the tenant: no request of
`admin/model_approval.py` increments it, so a cached decision outlives the row that it was
made from.  Database and Redis answer.

`began` is read by no step: how many changes of the row there were when a lookup started.
-/

namespace Anoryx.Sentinel.ModelDecisions

open ModelInventory (ModelRow Change Effect Guarded stateOf deadlineOf)

/-! ## the system -/

structure System where
  inventory : ModelInventory.System
  cache : EvalCache.System
  began : List Nat

inductive Event
  | operator (e : ModelInventory.Event)
  | decision (e : EvalCache.Event)

/-- The events of lookups; a SELECT finds the inventory. -/
def isLookup : EvalCache.Event → Bool
  | .start _ _ | .getVersion _ | .getDecision _ | .setDecision _ | .expire _ => true
  | .select _ _ readable => readable
  | _ => false

/-- What a lookup uses of a row. -/
def rowOf (row : ModelRow) : InventoryRow := ⟨row.state, row.retireAt⟩

namespace System

variable (fromisoformat : String → Option DateTime) (key : String × String) (s : System)

/-- The changes of the row that a lookup which starts now comes after. -/
def begin : EvalCache.Event → List Nat
  | .start _ _ => s.began ++ [s.inventory.history.length]
  | _ => s.began

/-- `key` is the tenant and the model of the row. -/
def step : Event → Option System
  | .operator e =>
      (s.inventory.step e).map fun inventory =>
        { s with
          inventory
          cache := { s.cache with
            inventory := Function.update s.cache.inventory key (inventory.committed.map rowOf) } }
  | .decision e =>
      if isLookup e then
        (s.cache.step fromisoformat e).map fun cache => { s with cache, began := s.begin e }
      else none

/-- The steps of a run. -/
def run : System → List Event → Option System
  | s, [] => some s
  | s, e :: events => do
      let s ← s.step fromisoformat key e
      s.run events

/-- Each step of a run is as `P` says. -/
def Along (P : System → Event → Prop) : System → List Event → Prop
  | _, [] => True
  | s, e :: events => P s e ∧ ∀ s' ∈ s.step fromisoformat key e, s'.Along P events

end System

/-! ## what a decision is to be -/

/-- A deny-list or an allow-list has decided. -/
def isListed : ModelDecision → Bool
  | .deny _ .modelDenied | .deny _ .modelNotInAllowlist => true
  | _ => false

def isAllow : ModelDecision → Bool
  | .allow _ => true
  | .deny _ _ => false

/-- The row permits the model. -/
def usable (row : Option ModelRow) (now : DateTime) : Bool :=
  row.any fun row => row.state = .approved && !row.retireAt.any fun retireAt => retireAt < now

/-- The decision is the one for the row, unless a list has decided. -/
def Agrees (decision : ModelDecision) (row : Option ModelRow) (now : DateTime) : Prop :=
  isListed decision = true ∨ isAllow decision = usable row now

instance (decision : ModelDecision) (row : Option ModelRow) (now : DateTime) : Decidable (Agrees decision row now) :=
  inferInstanceAs (Decidable (_ ∨ _))

/-- What the operator may count on, of a decision that started at `now` after `began` of the
changes: a denial, a deadline and an approval are in effect unless changed again. -/
structure Effective (history : List Change) (began : Nat) (now : DateTime) (decision : ModelDecision) : Prop where
  denied : ∀ k c, history[k]? = some c → k < began → c.command = .deny →
    (∀ c' ∈ history.drop (k + 1), c'.command ≠ .approve) → isAllow decision = false
  retired : ∀ k c retireAt, history[k]? = some c → k < began → c.after.retireAt = some retireAt → retireAt < now →
    (∀ c' ∈ history.drop (k + 1), c'.command ≠ .unretire ∧ ∀ retireAt', c'.command ≠ .retire retireAt') →
    isAllow decision = false
  approved : ∀ k c, history[k]? = some c → k < began → c.command = .approve →
    (∀ c' ∈ history.drop (k + 1), c'.command ≠ .deny ∧ ∀ retireAt', c'.command ≠ .retire retireAt') →
    isAllow decision = true ∨ isListed decision = true

/-- A query about the model of the tenant. -/
def Concerns (key : String × String) (query : EvalCache.Query) : Prop := (query.scope.tenantId, query.modelId) = key

instance (key : String × String) (query : EvalCache.Query) : Decidable (Concerns key query) :=
  inferInstanceAs (Decidable (_ = _))

/-- An approval policy is active for the scope. -/
def Governed (store : PolicyDb) (scope : RequestScope) (now : DateTime) : Prop :=
  ∀ views ∈ matchingViews .modelApproval scope ⟨now, store, none⟩, (mostSpecific views).isSome = true

/-- The scope of a lookup about the model is under an approval policy at its SELECTs. -/
def GovernedAt (key : String × String) (s : System) : Event → Prop
  | .decision (.select i now _) => ∀ lookup ∈ s.cache.lookups[i]?, Concerns key lookup.query →
      Governed s.cache.store lookup.query.scope now
  | _ => True

/-- A lookup that hits finds the decision for the row as it is now. -/
def HitAgrees (s : System) (lookup : EvalCache.Lookup) : EvalCache.LookupPhase → Prop
  | .versioned version => ∀ entry ∈ s.cache.entries (EvalCache.decisionKey lookup.query version),
      Agrees entry.decision s.inventory.committed lookup.now
  | _ => True

/-- An approval that is committed leaves no deadline behind. -/
def ClearsDeadline (s : ModelInventory.System) (i : Nat) : ModelInventory.Phase → Prop
  | .audited q _ => q.command = .approve → ∀ p ∈ s.lock, p.1 = i → p.2.retireAt = none
  | _ => True

/-- What a step is to keep to. -/
def Current (key : String × String) (s : System) : Event → Prop
  | .decision (.getDecision i) => ∀ lookup ∈ s.cache.lookups[i]?, Concerns key lookup.query →
      HitAgrees s lookup lookup.phase
  | .operator (.commit i) => ClearsDeadline s.inventory i (s.inventory.phases i)
  | _ => True

/-! ## the row over the changes -/

/-- The row after so many changes. -/
def rowAt (start : Option ModelRow) (history : List Change) (n : Nat) : Option ModelRow :=
  (history.take n).foldl (fun _ c => some c.after) start

section History

variable {start row : Option ModelRow} {history added : List Change} {c : Change} {k n : Nat}

theorem rowAt_succ (h : history[n]? = some c) : rowAt start history (n + 1) = some c.after := by
  rw [rowAt, List.take_add_one, h, List.foldl_append]
  rfl

theorem rowAt_append (h : n ≤ history.length) : rowAt start (history ++ added) n = rowAt start history n := by
  rw [rowAt, rowAt, List.take_append_of_le_length h]

theorem rowAt_length (h : ModelInventory.Follows start history row) : rowAt start history history.length = row := by
  rw [rowAt, List.take_length]
  induction history generalizing start with
  | nil => exact h
  | cons c history ih => exact ih h.2

theorem before_eq_rowAt (h : ModelInventory.Follows start history row) (hc : history[n]? = some c) :
    c.before = rowAt start history n := by
  induction history generalizing start n with
  | nil => contradiction
  | cons first history ih =>
      cases n with
      | zero =>
          cases hc
          exact h.1
      | succ n => exact ih h.2 hc

theorem persists {P : ModelRow → Prop} (h : ModelInventory.Follows start history row) (hc : history[k]? = some c)
    (hfirst : P c.after) (hkeeps : ∀ c' ∈ history.drop (k + 1), ∀ before, c'.before = some before → P before → P c'.after)
    (hk : k < n) (hn : n ≤ history.length) : ∃ current, rowAt start history n = some current ∧ P current := by
  induction n with
  | zero => omega
  | succ n ih =>
      rcases Nat.lt_succ_iff_lt_or_eq.mp hk with hlater | rfl
      · obtain ⟨before, hbefore, hP⟩ := ih hlater (by omega)
        have hget : history[n]? = some history[n] := List.getElem?_eq_getElem hn
        have hmem : history[n] ∈ history.drop (k + 1) := by
          rw [List.mem_drop_iff_getElem]
          exact ⟨n - (k + 1), by omega, by congr 1; omega⟩
        exact ⟨_, rowAt_succ hget, hkeeps _ hmem before ((before_eq_rowAt h hget).trans hbefore) hP⟩
      · exact ⟨_, rowAt_succ hc, hfirst⟩

variable {began : Nat} {now : DateTime} {decision : ModelDecision}

/-- A row that was read within the lookup's time is in effect at some point of it. -/
theorem effective_of_agrees (h : ModelInventory.Follows start history row)
    (heffects : ∀ c ∈ history, Effect c.command c.before c.after)
    (hclears : ∀ c ∈ history, c.command = .approve → c.after.retireAt = none) (hbegan : began ≤ n)
    (hn : n ≤ history.length) (hagrees : Agrees decision (rowAt start history n) now) :
    Effective history began now decision := by
  have hunusable (hrow : usable (rowAt start history n) now = false) : isAllow decision = false := by
    rcases hagrees with hlisted | hallow
    · cases decision with
      | allow policyId => contradiction
      | deny policyId reason => rfl
    · rw [hallow, hrow]
  constructor
  · intro k c hc hk hdeny hlater
    have hstate := (heffects c (List.mem_of_getElem? hc)).state
    rw [hdeny] at hstate
    obtain ⟨current, hcurrent, hdenied⟩ := @persists start row history c k n (fun row => row.state = .denied) h hc hstate
      (fun c' hc' before hbefore hstate => by
        have heffect := (heffects c' (List.mem_of_mem_drop hc')).state
        rw [hbefore, stateOf, Option.elim_some, hstate] at heffect
        have hne := hlater c' hc'
        cases hcommand : c'.command with
        | approve => exact absurd hcommand hne
        | _ =>
            rw [hcommand] at heffect
            exact heffect) (by omega) hn
    refine hunusable ?_
    rw [hcurrent]
    simp [usable, hdenied]
  · intro k c retireAt hc hk hretire hpassed hlater
    obtain ⟨current, hcurrent, hdeadline⟩ := @persists start row history c k n (fun row => row.retireAt = some retireAt)
      h hc hretire (fun c' hc' before hbefore hdeadline => by
        have hkept := (heffects c' (List.mem_of_mem_drop hc')).kept
        obtain ⟨hunretire, hretire'⟩ := hlater c' hc'
        have hdecision : c'.command = .approve ∨ c'.command = .deny := by
          cases hcommand : c'.command with
          | approve => exact .inl rfl
          | deny => exact .inr rfl
          | retire retireAt' => exact absurd hcommand (hretire' retireAt')
          | unretire => exact absurd hcommand hunretire
        rw [hkept hdecision, hbefore]
        exact hdeadline) (by omega) hn
    refine hunusable ?_
    rw [hcurrent, usable, Option.any_some, hdeadline, Option.any_some, decide_eq_true hpassed]
    simp
  · intro k c hc hk happrove hlater
    have hstate := (heffects c (List.mem_of_getElem? hc)).state
    rw [happrove] at hstate
    obtain ⟨current, hcurrent, happroved, hnone⟩ := @persists start row history c k n
      (fun row => row.state = .approved ∧ row.retireAt = none) h hc
      ⟨hstate, hclears c (List.mem_of_getElem? hc) happrove⟩
      (fun c' hc' before hbefore hbefore' => by
        have heffect := heffects c' (List.mem_of_mem_drop hc')
        have hstate' := heffect.state
        rw [hbefore, stateOf, Option.elim_some, hbefore'.1] at hstate'
        obtain ⟨hdeny, hretire'⟩ := hlater c' hc'
        cases hcommand : c'.command with
        | approve =>
            rw [hcommand] at hstate'
            exact ⟨hstate', hclears c' (List.mem_of_mem_drop hc') hcommand⟩
        | deny => exact absurd hcommand hdeny
        | retire retireAt' => exact absurd hcommand (hretire' retireAt')
        | unretire =>
            rw [hcommand] at hstate'
            exact ⟨hstate', heffect.cleared hcommand⟩) (by omega) hn
    rcases hagrees with hlisted | hallow
    · exact .inr hlisted
    · left
      rw [hallow, hcurrent]
      simp [usable, happroved, hnone]

end History

/-! ## the evaluation -/

variable {r : Reading} {decision : ModelDecision} {n i floor basis : Nat} {lookup : EvalCache.Lookup}
  {phase : EvalCache.LookupPhase}

section Evaluate

variable {fromisoformat : String → Option DateTime} {scope : RequestScope} {modelId : String} {now : DateTime}

theorem isListed_resolve {allowViews denyViews : List PolicyRecord} {policyId : String} {reason : ModelDenyReason}
    (h : resolveModelDecision allowViews denyViews modelId = .deny policyId reason) :
    isListed (.deny policyId reason) = true := by
  rw [resolveModelDecision] at h
  split at h
  · cases h
    rfl
  · split at h
    · contradiction
    · split at h
      · contradiction
      · cases h
        rfl

/-- The reading that decides is the last one. -/
theorem decided_last {readings : List Reading} (hgoverned : Governed r.store scope r.now)
    (hmore : evaluateModelPolicies fromisoformat scope modelId now readings = .more)
    (hdecided : evaluateModelPolicies fromisoformat scope modelId now (readings ++ [r]) = .decided decision) :
    isListed decision = true ∨ ∃ approval, decision = approvalDecision approval scope modelId now r := by
  match readings, hmore, hdecided with
  | [], _, hdecided => contradiction
  | [a], _, hdecided =>
      simp only [List.cons_append, List.nil_append, evaluateModelPolicies] at hdecided
      split at hdecided
      · split at hdecided
        · next hdeny =>
            cases hdecided
            exact .inl (isListed_resolve hdeny)
        · contradiction
        · contradiction
      · contradiction
  | [a, b], hmore, hdecided =>
      simp only [List.cons_append, List.nil_append, evaluateModelPolicies] at hmore hdecided
      split at hdecided
      · split at hdecided
        · next hdeny =>
            cases hdecided
            exact .inl (isListed_resolve hdeny)
        · contradiction
        · next hrest =>
            cases hrest
            split at hdecided
            · contradiction
            · next views hviews =>
                split at hdecided
                · next hnone =>
                    have hsome := hgoverned views hviews
                    rw [hnone] at hsome
                    contradiction
                · contradiction
                · contradiction
      · contradiction
  | [a, b, c], hmore, hdecided =>
      simp only [List.cons_append, List.nil_append, evaluateModelPolicies] at hmore hdecided
      split at hdecided
      · next hdenyViews hallowViews =>
          simp only [hdenyViews, hallowViews] at hmore
          split at hdecided
          · next hdeny =>
              cases hdecided
              exact .inl (isListed_resolve hdeny)
          · contradiction
          · next hallow hrest =>
              cases hrest
              rw [hallow] at hmore
              split at hdecided
              · contradiction
              · next views hviews =>
                  simp only [hviews] at hmore
                  split at hdecided
                  · next hnone =>
                      rw [hnone] at hmore
                      contradiction
                  · contradiction
                  · next hrest =>
                      cases hrest
                      cases hdecided
                      exact .inr ⟨_, rfl⟩
      · contradiction
  | a :: b :: c :: d :: rest, hmore, _ =>
      simp only [evaluateModelPolicies] at hmore
      grind

theorem agrees_approvalDecision {approval : PolicyRecord} {inventory : String × String → Option InventoryRow}
    {row : Option ModelRow} (hinventory : r.inventory = some inventory)
    (hrow : inventory (scope.tenantId, modelId) = row.map rowOf) :
    Agrees (approvalDecision approval scope modelId now r) row now := by
  right
  rw [approvalDecision, hinventory]
  simp only [hrow]
  cases row with
  | none => rfl
  | some row =>
      simp only [Option.map_some, rowOf, usable, Option.any_some]
      by_cases happroved : row.state = .approved
      · cases hpassed : row.retireAt.any fun retireAt => retireAt < now
        · simp [happroved, isAllow]
        · simp [happroved, isAllow]
      · simp [happroved, isAllow]

end Evaluate

/-! ## every run -/

/-- The decision is the one for the row at some time since the lookup started. -/
def Justified (start : Option ModelRow) (history : List Change) (began : Nat) (now : DateTime)
    (decision : ModelDecision) : Prop :=
  ∃ n, began ≤ n ∧ n ≤ history.length ∧ Agrees decision (rowAt start history n) now

section Runs

variable {fromisoformat : String → Option DateTime} {key : String × String} {start : Option ModelRow} {s s' : System}

/-- How far a lookup about the model is. -/
def PhaseOk (fromisoformat : String → Option DateTime) (start : Option ModelRow) (history : List Change) (began : Nat)
    (lookup : EvalCache.Lookup) : EvalCache.LookupPhase → Prop
  | .evaluating _ readings _ =>
      evaluateModelPolicies fromisoformat lookup.query.scope lookup.query.modelId lookup.now readings = .more
  | .evaluated _ decision _ | .returned decision _ => Justified start history began lookup.now decision
  | _ => True

/-- What holds along a run. -/
structure Ok (fromisoformat : String → Option DateTime) (key : String × String) (start : Option ModelRow) (s : System) :
    Prop where
  log : ModelInventory.Ok start s.inventory
  guarded : Guarded Effect s.inventory
  clears : ∀ c ∈ s.inventory.history, c.command = .approve → c.after.retireAt = none
  row : s.cache.inventory key = s.inventory.committed.map rowOf
  length : s.began.length = s.cache.lookups.length
  began : ∀ n ∈ s.began, n ≤ s.inventory.history.length
  lookups : ∀ (i : Nat) (lookup : EvalCache.Lookup) (n : Nat), s.cache.lookups[i]? = some lookup →
    s.began[i]? = some n → Concerns key lookup.query → PhaseOk fromisoformat start s.inventory.history n lookup lookup.phase

theorem PhaseOk.append {history : List Change} (h : PhaseOk fromisoformat start history n lookup phase)
    (added : List Change) : PhaseOk fromisoformat start (history ++ added) n lookup phase := by
  have hjustified {decision : ModelDecision} (h : Justified start history n lookup.now decision) :
      Justified start (history ++ added) n lookup.now decision := by
    obtain ⟨m, hm, hlength, hagrees⟩ := h
    exact ⟨m, hm, by rw [List.length_append]; omega, by rwa [rowAt_append hlength]⟩
  cases phase with
  | evaluated version decision basis => exact hjustified h
  | returned decision basis => exact hjustified h
  | _ => exact h

theorem Ok.operator (h : Ok fromisoformat key start s) {e : ModelInventory.Event} {inventory : ModelInventory.System}
    (hcurrent : Current key s (.operator e)) (hstep : s.inventory.step e = some inventory) :
    Ok fromisoformat key start
      { s with
        inventory
        cache := { s.cache with
          inventory := Function.update s.cache.inventory key (inventory.committed.map rowOf) } } := by
  have hhistory := ModelInventory.history_step hstep
  obtain ⟨added, hadded⟩ : ∃ added, inventory.history = s.inventory.history ++ added := by
    rcases hhistory with hsame | ⟨i, q, position, row, -, -, -, hmore⟩
    · exact ⟨[], by rw [hsame, List.append_nil]⟩
    · exact ⟨_, hmore⟩
  exact {
    log := h.log.step hstep
    guarded := h.guarded.step (ModelInventory.writes_effect _ _) hstep
    clears := fun c hc happrove => by
      rcases hhistory with hsame | ⟨i, q, position, row, rfl, hi, hlock, hmore⟩
      · exact h.clears c (hsame ▸ hc) happrove
      · rw [hmore] at hc
        rcases List.mem_append.mp hc with hc | hc
        · exact h.clears c hc happrove
        · rw [List.mem_singleton.mp hc] at happrove ⊢
          rw [Current, hi] at hcurrent
          exact hcurrent happrove (i, row) hlock rfl
    row := Function.update_self ..
    length := h.length
    began := fun n hn => by
      have := h.began n hn
      simp only [hadded, List.length_append]
      omega
    lookups := fun i lookup n hi hn hconcerns => by
      have hphase := h.lookups i lookup n hi hn hconcerns
      simp only [hadded]
      exact hphase.append added }

theorem Ok.advance (h : Ok fromisoformat key start s) {entries : EvalCache.DecisionKey → Option EvalCache.Entry}
    (hphase : ∀ n, s.began[i]? = some n → Concerns key lookup.query →
      PhaseOk fromisoformat start s.inventory.history n lookup phase) :
    Ok fromisoformat key start { s with cache := { s.cache with entries }.advance i lookup phase } where
  log := h.log
  guarded := h.guarded
  clears := h.clears
  row := h.row
  length := by
    rw [EvalCache.System.advance, EvalCache.System.setLookup]
    simpa using h.length
  began := h.began
  lookups j lookup' n hj hn hconcerns := by
    simp only [EvalCache.System.advance, EvalCache.System.setLookup, List.getElem?_set] at hj
    split at hj
    · next heq =>
        subst heq
        split at hj
        · cases hj
          exact hphase n hn hconcerns
        · contradiction
    · exact h.lookups j lookup' n hj hn hconcerns

theorem Ok.startLookup (h : Ok fromisoformat key start s) (query : EvalCache.Query) (now : DateTime) :
    Ok fromisoformat key start
      { s with
        cache := { s.cache with lookups := s.cache.lookups ++ [⟨query, now, floor, .started⟩] }
        began := s.began ++ [s.inventory.history.length] } where
  log := h.log
  guarded := h.guarded
  clears := h.clears
  row := h.row
  length := by
    rw [List.length_append, List.length_append, h.length]
    rfl
  began n hn := by
    rcases List.mem_append.mp hn with hn | hn
    · exact h.began n hn
    · rw [List.mem_singleton.mp hn]
  lookups i lookup n hi hn hconcerns := by
    rcases Nat.lt_or_ge i s.cache.lookups.length with hlt | hge
    · rw [List.getElem?_append_left hlt] at hi
      rw [List.getElem?_append_left (by rw [h.length]; exact hlt)] at hn
      exact h.lookups i lookup n hi hn hconcerns
    · rw [List.getElem?_append_right hge, List.getElem?_singleton] at hi
      split at hi
      · cases hi
        trivial
      · contradiction

theorem Ok.select (h : Ok fromisoformat key start s) {version : Nat} {now : DateTime} (readings : List Reading)
    (hgoverned : Concerns key lookup.query → Governed s.cache.store lookup.query.scope now)
    (hmore : Concerns key lookup.query →
      evaluateModelPolicies fromisoformat lookup.query.scope lookup.query.modelId lookup.now readings = .more) :
    Ok fromisoformat key start
      { s with
        cache := s.cache.selectStep fromisoformat i lookup version
          (readings ++ [⟨now, s.cache.store, some s.cache.inventory⟩]) basis } := by
  rw [EvalCache.System.selectStep]
  split
  · next hagain => exact h.advance fun n _ _ => hagain
  · next decision hdecided =>
      refine h.advance fun n hn hconcerns => ?_
      have hlength := h.began n (List.mem_of_getElem? hn)
      refine ⟨s.inventory.history.length, hlength, le_refl _, ?_⟩
      rw [rowAt_length h.log.follows]
      rcases decided_last (r := ⟨now, s.cache.store, some s.cache.inventory⟩) (hgoverned hconcerns) (hmore hconcerns)
        hdecided with hlisted | ⟨approval, rfl⟩
      · exact .inl hlisted
      · refine agrees_approvalDecision rfl ?_
        rw [← h.row, ← hconcerns]
  · exact h.advance fun n _ _ => trivial

/-- **One step** that keeps to the condition. -/
theorem Ok.step (h : Ok fromisoformat key start s) {e : Event} (hgoverned : GovernedAt key s e)
    (hcurrent : Current key s e) (hstep : s.step fromisoformat key e = some s') : Ok fromisoformat key start s' := by
  cases e with
  | operator e =>
      obtain ⟨inventory, hinventory, rfl⟩ := Option.map_eq_some_iff.mp hstep
      exact h.operator hcurrent hinventory
  | decision e =>
      rw [System.step] at hstep
      split at hstep
      · next hlookup =>
          obtain ⟨cache, hcache, rfl⟩ := Option.map_eq_some_iff.mp hstep
          cases e with
          | start query now =>
              cases hcache
              exact h.startLookup query now
          | getVersion i =>
              obtain ⟨lookup, hi, hphase⟩ := Option.bind_eq_some_iff.mp hcache
              split at hphase
              · cases hphase
                exact h.advance fun n _ _ => trivial
              · contradiction
          | getDecision i =>
              obtain ⟨lookup, hi, hphase⟩ := Option.bind_eq_some_iff.mp hcache
              split at hphase
              · next version hversioned =>
                  split at hphase
                  · next entry hentry =>
                      cases hphase
                      refine h.advance fun n hn hconcerns => ?_
                      have hhit := hcurrent lookup hi hconcerns
                      rw [hversioned] at hhit
                      refine ⟨s.inventory.history.length, h.began n (List.mem_of_getElem? hn), le_refl _, ?_⟩
                      rw [rowAt_length h.log.follows]
                      exact hhit entry hentry
                  · cases hphase
                    exact h.advance fun n _ _ => trivial
              · contradiction
          | select i now readable =>
              obtain ⟨lookup, hi, hphase⟩ := Option.bind_eq_some_iff.mp hcache
              have hreadable : readable = true := hlookup
              subst hreadable
              rw [if_pos rfl] at hphase
              have hgov := hgoverned lookup hi
              split at hphase
              · cases hphase
                exact h.select [] hgov fun _ => rfl
              · next version readings basis hevaluating =>
                  cases hphase
                  refine h.select readings hgov fun hconcerns => ?_
                  obtain ⟨n, hn⟩ : ∃ n, s.began[i]? = some n := by
                    have hlt := (List.getElem?_eq_some_iff.mp hi).1
                    exact ⟨_, List.getElem?_eq_getElem (h.length ▸ hlt)⟩
                  have hok := h.lookups i lookup n hi hn hconcerns
                  rwa [hevaluating] at hok
              · contradiction
          | setDecision i =>
              obtain ⟨lookup, hi, hphase⟩ := Option.bind_eq_some_iff.mp hcache
              split at hphase
              · next version decision basis hevaluated =>
                  cases hphase
                  refine h.advance fun n hn hconcerns => ?_
                  have hok := h.lookups i lookup n hi hn hconcerns
                  rwa [hevaluated] at hok
              · contradiction
          | expire decisionKey =>
              cases hcache
              exact ⟨h.log, h.guarded, h.clears, h.row, h.length, h.began, h.lookups⟩
          | _ => contradiction
      · contradiction

theorem Ok.run {events : List Event} (h : Ok fromisoformat key start s)
    (hgoverned : s.Along fromisoformat key (GovernedAt key) events)
    (hcurrent : s.Along fromisoformat key (Current key) events) (hrun : s.run fromisoformat key events = some s') :
    Ok fromisoformat key start s' := by
  induction events generalizing s with
  | nil =>
      cases hrun
      exact h
  | cons e events ih =>
      obtain ⟨s₁, hstep, hrest⟩ := Option.bind_eq_some_iff.mp hrun
      exact ih (h.step hgoverned.1 hcurrent.1 hstep) (hgoverned.2 s₁ hstep) (hcurrent.2 s₁ hstep) hrest

/-- Nothing has begun, and the gateway finds the row. -/
structure Initial (key : String × String) (s : System) : Prop where
  inventory : ModelInventory.Initial s.inventory
  row : s.cache.inventory key = s.inventory.committed.map rowOf
  lookups : s.cache.lookups = []
  began : s.began = []

theorem Initial.ok (h : Initial key s) : Ok fromisoformat key s.inventory.committed s where
  log := h.inventory.ok
  guarded := h.inventory.guarded _
  clears := by simp [h.inventory.unchanged]
  row := h.row
  length := by rw [h.began, h.lookups]; rfl
  began := by simp [h.began]
  lookups i lookup n hi := by simp [h.lookups] at hi

/-- What the operator decides is in effect for every decision that starts afterwards, if a
cached decision is used only while it is the one for the row, and an approval is committed
only where no deadline is left. -/
theorem decisions_effective (h : Initial key s) (events : List Event)
    (hgoverned : s.Along fromisoformat key (GovernedAt key) events)
    (hcurrent : s.Along fromisoformat key (Current key) events) (hrun : s.run fromisoformat key events = some s') :
    ∀ (i : Nat) (lookup : EvalCache.Lookup) (began : Nat) (decision : ModelDecision) (basis : Nat), s'.cache.lookups[i]? = some lookup → s'.began[i]? = some began →
      Concerns key lookup.query → lookup.phase = .returned decision basis →
      Effective s'.inventory.history began lookup.now decision := by
  intro i lookup began decision basis hi hbegan hconcerns hreturned
  have hok := h.ok.run hgoverned hcurrent hrun
  have hphase := hok.lookups i lookup began hi hbegan hconcerns
  rw [hreturned] at hphase
  obtain ⟨n, hn, hlength, hagrees⟩ := hphase
  exact effective_of_agrees hok.log.follows hok.guarded.changes hok.clears hn hlength hagrees

end Runs

/-! ## an approval, and what comes too late -/

section Sample

open EvalCache (sampleScope sampleQuery)

instance (store : PolicyDb) (scope : RequestScope) (now : DateTime) : Decidable (Governed store scope now) :=
  inferInstanceAs (Decidable (∀ views ∈ matchingViews .modelApproval scope ⟨now, store, none⟩,
    (mostSpecific views).isSome = true))

instance (key : String × String) (s : System) : DecidablePred (GovernedAt key s)
  | .decision (.select i now _) => inferInstanceAs (Decidable (∀ lookup ∈ s.cache.lookups[i]?,
      Concerns key lookup.query → Governed s.cache.store lookup.query.scope now))
  | .operator _ | .decision (.persist _) | .decision (.bump _) | .decision (.commit _) | .decision (.rollback _)
  | .decision (.start _ _) | .decision (.getVersion _) | .decision (.getDecision _) | .decision (.setDecision _)
  | .decision (.expire _) | .decision (.adopt _) => inferInstanceAs (Decidable True)

instance (s : System) (lookup : EvalCache.Lookup) : DecidablePred (HitAgrees s lookup)
  | .versioned version => inferInstanceAs (Decidable (∀ entry ∈ s.cache.entries (EvalCache.decisionKey lookup.query version),
      Agrees entry.decision s.inventory.committed lookup.now))
  | .started | .missed _ | .evaluating _ _ _ | .evaluated _ _ _ | .returned _ _ | .failed =>
      inferInstanceAs (Decidable True)

instance (s : ModelInventory.System) (i : Nat) : DecidablePred (ClearsDeadline s i)
  | .audited q _ => inferInstanceAs (Decidable (q.command = .approve → ∀ p ∈ s.lock, p.1 = i → p.2.retireAt = none))
  | .idle | .started _ | .missing _ | .loaded _ _ _ | .flushed _ _ | .done | .failed => inferInstanceAs (Decidable True)

instance (key : String × String) (s : System) : DecidablePred (Current key s)
  | .decision (.getDecision i) => inferInstanceAs (Decidable (∀ lookup ∈ s.cache.lookups[i]?,
      Concerns key lookup.query → HitAgrees s lookup lookup.phase))
  | .operator (.commit i) => inferInstanceAs (Decidable (ClearsDeadline s.inventory i (s.inventory.phases i)))
  | .decision (.persist _) | .decision (.bump _) | .decision (.commit _) | .decision (.rollback _)
  | .decision (.start _ _) | .decision (.getVersion _) | .decision (.select _ _ _) | .decision (.setDecision _)
  | .decision (.expire _) | .decision (.adopt _) | .operator (.start _ _) | .operator (.load _) | .operator (.insert _)
  | .operator (.flush _) | .operator (.audit _) | .operator (.fail _) => inferInstanceAs (Decidable True)

instance decidableAlong (fromisoformat : String → Option DateTime) (key : String × String) (P : System → Event → Prop)
    [∀ s, DecidablePred (P s)] : (s : System) → (events : List Event) → Decidable (s.Along fromisoformat key P events)
  | _, [] => inferInstanceAs (Decidable True)
  | s, e :: events =>
      let _ : DecidablePred fun s' : System => s'.Along fromisoformat key P events :=
        fun s' => decidableAlong fromisoformat key P s' events
      inferInstanceAs (Decidable (P s e ∧ ∀ s' ∈ s.step fromisoformat key e, s'.Along fromisoformat key P events))

def sampleKey : String × String := (sampleScope.tenantId, "model-x")

def sampleApproval : PolicyRecord :=
  { EvalCache.sampleDenylist with body := .modelApproval }

def governedModel : System where
  inventory := ModelInventory.approvedModel
  cache := { EvalCache.idleSystem with
    store := EvalCache.accept 0 sampleApproval EvalCache.idleSystem.store
    inventory := Function.update (fun _ => none) sampleKey (some ⟨.approved, none⟩) }
  began := []

theorem governedModel_initial : Initial sampleKey governedModel :=
  ⟨⟨fun _ => rfl, rfl, rfl⟩, by decide +kernel, rfl, rfl⟩

/-- A request from its start to its commit. -/
def requestEvents (i : Nat) (command : ModelInventory.Command) : List Event :=
  [.operator (.start i (ModelInventory.sampleRequest command)), .operator (.load i), .operator (.flush i),
    .operator (.audit i), .operator (.commit i)]

/-- A lookup up to the cached decision. -/
def hitEvents (i : Nat) (now : DateTime) : List Event :=
  [.decision (.start sampleQuery now), .decision (.getVersion i), .decision (.getDecision i)]

/-- A lookup with all its SELECTs. -/
def missEvents (i : Nat) (now : DateTime) : List Event :=
  hitEvents i now ++ [.decision (.select i now true), .decision (.select i now true), .decision (.select i now true),
    .decision (.select i now true), .decision (.setDecision i)]

/-- The commands that were committed, and how the lookup has ended. -/
def outcomeOf (i : Nat) (s : System) : List ModelInventory.Command × Option Nat × Option (ModelDecision × Nat) :=
  (s.inventory.history.map Change.command, s.began[i]?, s.cache.lookups[i]?.bind fun lookup => lookup.phase.outcome)

def sampleDeadline : DateTime := ModelInventory.sampleMoment 30 (Eq.refl true)

def beforeDeadline : DateTime := ModelInventory.sampleMoment 15 (Eq.refl true)

def afterDeadline : DateTime := ModelInventory.sampleMoment 45 (Eq.refl true)

/-- A denial, and a decision after it. -/
def deniedEvents : List Event := requestEvents 0 .deny ++ missEvents 0 beforeDeadline

/-- A decision is cached when the model is denied. -/
def cachedEvents : List Event :=
  missEvents 0 beforeDeadline ++ requestEvents 0 .deny ++ hitEvents 1 beforeDeadline

/-- A retirement, a denial and an approval, and a decision after the deadline. -/
def lapsedEvents : List Event :=
  requestEvents 0 (.retire sampleDeadline) ++ requestEvents 1 .deny ++ requestEvents 2 .approve ++
    missEvents 0 afterDeadline

theorem lookup_of_outcome {s : System} {began : Nat} {commands : List ModelInventory.Command}
    (h : outcomeOf i s = (commands, some began, some (decision, basis))) :
    s.inventory.history.map Change.command = commands ∧ s.began[i]? = some began ∧
      ∃ lookup, s.cache.lookups[i]? = some lookup ∧ lookup.phase = .returned decision basis := by
  simp only [outcomeOf, Prod.mk.injEq] at h
  obtain ⟨hcommands, hbegan, houtcome⟩ := h
  obtain ⟨lookup, hlookup, hphase⟩ := Option.bind_eq_some_iff.mp houtcome
  refine ⟨hcommands, hbegan, lookup, hlookup, ?_⟩
  cases hreturned : lookup.phase with
  | returned decision' basis' =>
      rw [hreturned, EvalCache.LookupPhase.outcome, Option.some.injEq, Prod.mk.injEq] at hphase
      rw [hphase.1, hphase.2]
  | _ => simp [hreturned, EvalCache.LookupPhase.outcome] at hphase

def samplePolicyId : String := "55555555-5555-4555-8555-555555555555"

theorem decisions_effective_sample : ∃ s', governedModel.run (fun _ => none) sampleKey deniedEvents = some s' ∧
    outcomeOf 0 s' = ([.deny], some 1, some (.deny samplePolicyId .modelNotApproved, 0)) ∧
    ∃ lookup, s'.cache.lookups[0]? = some lookup ∧
      Effective s'.inventory.history 1 lookup.now (.deny samplePolicyId .modelNotApproved) := by
  have houtcome : (governedModel.run (fun _ => none) sampleKey deniedEvents).map (outcomeOf 0) =
      some ([.deny], some 1, some (.deny samplePolicyId .modelNotApproved, 0)) := by decide +kernel
  obtain ⟨s', hrun, houtcome⟩ := Option.map_eq_some_iff.mp houtcome
  obtain ⟨-, hbegan, lookup, hlookup, hreturned⟩ := lookup_of_outcome houtcome
  have hconcerns : Concerns sampleKey lookup.query := by
    have hquery : ((governedModel.run (fun _ => none) sampleKey deniedEvents).bind fun s =>
        s.cache.lookups[0]?).map (fun lookup => (lookup.query.scope.tenantId, lookup.query.modelId)) =
        some sampleKey := by decide +kernel
    rw [hrun, Option.bind_some, hlookup, Option.map_some, Option.some.injEq] at hquery
    exact hquery
  exact ⟨s', hrun, houtcome, lookup, hlookup,
    decisions_effective governedModel_initial deniedEvents (by decide +kernel) (by decide +kernel) hrun 0 lookup 1 _ _
      hlookup hbegan hconcerns hreturned⟩

/-- A cached decision allows what has been denied, and an approval leaves a deadline in
effect. -/
theorem decisions_out_of_date :
    (∃ s', governedModel.run (fun _ => none) sampleKey cachedEvents = some s' ∧
      ∃ lookup basis, s'.cache.lookups[1]? = some lookup ∧
        lookup.phase = .returned (.allow (some samplePolicyId)) basis ∧
        ¬Effective s'.inventory.history 1 lookup.now (.allow (some samplePolicyId))) ∧
    ∃ s', governedModel.run (fun _ => none) sampleKey lapsedEvents = some s' ∧
      ∃ lookup basis, s'.cache.lookups[0]? = some lookup ∧
        lookup.phase = .returned (.deny samplePolicyId .modelRetired) basis ∧
        ¬Effective s'.inventory.history 3 lookup.now (.deny samplePolicyId .modelRetired) := by
  constructor
  · have houtcome : (governedModel.run (fun _ => none) sampleKey cachedEvents).map (outcomeOf 1) =
        some ([.deny], some 1, some (.allow (some samplePolicyId), 0)) := by decide +kernel
    obtain ⟨s', hrun, houtcome⟩ := Option.map_eq_some_iff.mp houtcome
    obtain ⟨hcommands, -, lookup, hlookup, hreturned⟩ := lookup_of_outcome houtcome
    refine ⟨s', hrun, lookup, 0, hlookup, hreturned, fun h => ?_⟩
    obtain ⟨c, hhistory, hdeny⟩ := List.map_eq_singleton_iff.mp hcommands
    have heffective := h.denied 0 c (by rw [hhistory]; rfl) Nat.one_pos hdeny (by simp [hhistory])
    contradiction
  · have houtcome : (governedModel.run (fun _ => none) sampleKey lapsedEvents).map (outcomeOf 0) =
        some ([.retire sampleDeadline, .deny, .approve], some 3, some (.deny samplePolicyId .modelRetired, 0)) := by
      decide +kernel
    obtain ⟨s', hrun, houtcome⟩ := Option.map_eq_some_iff.mp houtcome
    obtain ⟨hcommands, -, lookup, hlookup, hreturned⟩ := lookup_of_outcome houtcome
    refine ⟨s', hrun, lookup, 0, hlookup, hreturned, fun h => ?_⟩
    obtain ⟨c₀, later, hhistory, -, hcommands⟩ := List.map_eq_cons_iff.mp hcommands
    obtain ⟨c₁, last, rfl, -, hcommands⟩ := List.map_eq_cons_iff.mp hcommands
    obtain ⟨c₂, rfl, happrove⟩ := List.map_eq_singleton_iff.mp hcommands
    have heffective := h.approved 2 c₂ (by rw [hhistory]; rfl) (by decide) happrove (by simp [hhistory])
    simp [isAllow, isListed] at heffective

end Sample

end Anoryx.Sentinel.ModelDecisions
