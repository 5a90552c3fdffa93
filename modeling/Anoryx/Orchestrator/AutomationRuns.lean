import Anoryx.Orchestrator.Automation
import Anoryx.Orchestrator.IngestRuns

/-!
# Anoryx.Orchestrator.AutomationRuns

Runs of `evaluate_and_execute`: any number of them at a time, for one event or for many,
cut off at any point.

The unique index lets one execution of a rule be recorded for an event.  It is asked when
the action has been performed: two runs that find the same rule both perform it.
-/

namespace Anoryx.Orchestrator

open ReadCommitted PyJson PgColumn Logic

variable {F : Type} [Numerals F]

/-! ## the invariant -/

def actionsOf (t : Txn) (d : AutomationDb) : List Performed := d.performed.filter fun e => e.run = t

def action (call : EvaluateCall F) (t : Txn) (rule : AutomationRule F) : Performed :=
  ⟨t, rule.id, call.eventId, (call.fate rule.id).actionReturns⟩

/-- An action was performed that a link tells of. -/
def Backed (row : AutomationExecution) (d : AutomationDb) : Prop :=
  row.disposition = .executed → ∃ e ∈ d.performed, e.ruleId = row.ruleId ∧ e.eventId = row.triggeringEventId ∧
    e.returned = true

/-- Between any two statements. -/
structure AutomationInv (d : AutomationDb) : Prop where
  oneEach : d.executions.OneEach AutomationExecution.key
  distinct : (d.performed.map fun e => (e.run, e.ruleId)).Nodup
  backed : ∀ n row, d.executions.Holds n row → Backed row d

/-- What a run may rely on while others move. -/
structure AutomationRely (u : Txn) (d d' : AutomationDb) : Prop where
  mine : actionsOf u d' = actionsOf u d
  grows : d.performed <+: d'.performed

/-- A statement of `t` that keeps the invariant, and what the others rely on. -/
def KeepsAutomation (t : Txn) (d d' : AutomationDb) : Prop :=
  AutomationInv d' ∧ ∀ u, u ≠ t → AutomationRely u d d'

variable {d d' d'' : AutomationDb} {t u : Txn} {row : AutomationExecution} {call : EvaluateCall F}
  {rule : AutomationRule F}

theorem AutomationRely.refl (u : Txn) (d : AutomationDb) : AutomationRely u d d := ⟨rfl, List.prefix_rfl⟩

theorem AutomationRely.trans (h : AutomationRely u d d') (h' : AutomationRely u d' d'') : AutomationRely u d d'' :=
  ⟨h'.mine.trans h.mine, h.grows.trans h'.grows⟩

theorem Backed.rely (h : Backed row d) (hr : AutomationRely u d d') : Backed row d' := by
  intro hexecuted
  obtain ⟨e, he, hrest⟩ := h hexecuted
  exact ⟨e, hr.grows.subset he, hrest⟩

/-! ## what the statements keep -/

theorem AutomationInv.of_executions {executions : LockedLog AutomationExecution Unit} (h : AutomationInv d)
    (honeEach : executions.OneEach AutomationExecution.key)
    (hholds : ∀ n row, executions.Holds n row → d.executions.Holds n row ∨ Backed row d) :
    KeepsAutomation t d { d with executions := executions } := by
  refine ⟨⟨honeEach, h.distinct, fun n row hrow => ?_⟩, fun u _ => ⟨rfl, List.prefix_rfl⟩⟩
  rcases hholds n row hrow with hold | hbacked
  · exact h.backed n row hold
  · exact hbacked

theorem AutomationInv.commit (h : AutomationInv d) (t : Txn) : KeepsAutomation t d (Database.commit t d) :=
  h.of_executions (h.oneEach.commit t) fun _ _ hrow => .inl (LockedLog.holds_of_commit hrow)

theorem AutomationInv.rollback (h : AutomationInv d) (t : Txn) : KeepsAutomation t d (Database.rollback t d) :=
  h.of_executions (h.oneEach.rollback t) fun _ _ hrow => .inl (LockedLog.holds_of_rollback hrow)

theorem AutomationInv.automationChainLock (h : AutomationInv d) {x : Unit}
    (hlock : Orchestrator.automationChainLock t d = some (x, d')) :
    KeepsAutomation t d d' ∧ d'.performed = d.performed := by
  obtain ⟨⟨⟨⟩, executions⟩, hadvisory, he⟩ := Option.map_eq_some_iff.mp hlock
  obtain ⟨-, rfl⟩ := Prod.mk.inj he
  obtain ⟨rfl, -⟩ := LockedLog.advisoryXactLock_cases hadvisory
  exact ⟨h.of_executions ⟨h.oneEach.bounded, h.oneEach.insertOnly, h.oneEach.once⟩ fun _ _ hrow => .inl hrow, rfl⟩

theorem AutomationInv.insertExecution (h : AutomationInv d) (hbacked : Backed row d) {r : Option Nat}
    (hinsert : Orchestrator.insertExecution row t d = some (r, d')) :
    KeepsAutomation t d d' ∧ d'.performed = d.performed := by
  obtain ⟨⟨r', executions⟩, hunique, he⟩ := Option.map_eq_some_iff.mp hinsert
  obtain ⟨-, rfl⟩ := Prod.mk.inj he
  refine ⟨h.of_executions (h.oneEach.insertUnique hunique) fun n other hother => ?_, rfl⟩
  rcases LockedLog.insertUnique_cases hunique with ⟨-, rfl⟩ | ⟨-, rfl, -, -⟩
  · exact .inl hother
  · rcases Table.HasVersion.of_write hother with hold | ⟨-, rfl⟩
    · exact .inl hold
    · exact .inr hbacked

theorem AutomationInv.perform (h : AutomationInv d) {ruleId eventId : String} {returned r : Bool}
    (hnew : ∀ e ∈ actionsOf t d, e.ruleId ≠ ruleId) (hperform : Orchestrator.perform ruleId eventId returned t d = some (r, d')) :
    KeepsAutomation t d d' ∧ r = returned ∧ actionsOf t d' = actionsOf t d ++ [⟨t, ruleId, eventId, returned⟩] ∧
      (⟨t, ruleId, eventId, returned⟩ : Performed) ∈ d'.performed := by
  cases hperform
  refine ⟨⟨⟨h.oneEach, ?_, fun n row hrow hexecuted => ?_⟩, fun u hu => ⟨?_, List.prefix_append _ _⟩⟩, rfl, ?_,
    List.mem_append_right _ List.mem_cons_self⟩
  · show ((d.performed ++ [_]).map _).Nodup
    rw [List.map_append, List.nodup_append]
    refine ⟨h.distinct, List.nodup_singleton _, ?_⟩
    rintro p hp q hq rfl
    rw [List.map_singleton, List.mem_singleton] at hq
    obtain ⟨e, he, rfl⟩ := List.mem_map.mp hp
    obtain ⟨hrun, hrule⟩ := Prod.mk.inj hq
    exact hnew e (List.mem_filter.mpr ⟨he, decide_eq_true hrun⟩) hrule
  · obtain ⟨e, he, hrest⟩ := h.backed n row hrow hexecuted
    exact ⟨e, List.mem_append_left _ he, hrest⟩
  · show (d.performed ++ [_]).filter _ = d.performed.filter _
    rw [List.filter_append, List.filter_cons_of_neg, List.filter_nil, List.append_nil]
    simpa using fun he => hu he.symm
  · show (d.performed ++ [_]).filter _ = d.performed.filter _ ++ _
    rw [List.filter_append, List.filter_cons_of_pos, List.filter_nil]
    exact decide_eq_true rfl

/-! ## the specification -/

/-- The specification of the calls: who is done has performed the actions of the rules that match. -/
def automationLogic : Logic AutomationDb (EvaluateCall F) Unit where
  inv := AutomationInv
  rely := AutomationRely
  fresh t d := actionsOf t d = []
  post t call _ d := actionsOf t d = call.acting.map (action call t)
  ensures t call _ d := actionsOf t d = call.acting.map (action call t)
  undone _ _ := True

omit [Numerals F] in
theorem actionsOf_eq (hsame : d'.performed = d.performed) :
    actionsOf t d' = actionsOf t d := by
  unfold actionsOf
  rw [hsame]

theorem KeepsAutomation.logic (h : KeepsAutomation t d d') : (automationLogic (F := F)).Keeps t d d' := ⟨h.1, h.2⟩

variable {past : List Performed} {rules : List (AutomationRule F)}

theorem wp_appendAutomationAuditLink {fate : AppendFate} (hmine : actionsOf t d = past) (hbacked : Backed row d) :
    (automationLogic (F := F)).wp t (fun _ d' => actionsOf t d' = past) (appendAutomationAuditLink row fate) d := by
  have hrolled : ∀ {d : AutomationDb} {result : AppendResult}, actionsOf t d = past →
      (automationLogic (F := F)).wp t (fun _ d' => actionsOf t d' = past)
        (do Prog.rollbackWork
            pure result : Prog AutomationDb SessionError AppendResult) d := by
    intro d result hmine
    refine wp_rollbackWork_bind fun d₁ h₁ hr₁ => ⟨(h₁.rollback t).logic, fun d₂ _ hr₂ => ?_⟩
    exact hr₂.mine.trans (hr₁.mine.trans hmine)
  have hcommitted : ∀ {d : AutomationDb} {result : AppendResult}, actionsOf t d = past →
      (automationLogic (F := F)).wp t (fun _ d' => actionsOf t d' = past)
        (do Prog.commitWork
            pure result : Prog AutomationDb SessionError AppendResult) d := by
    intro d result hmine
    refine wp_commitWork_bind fun d₁ h₁ hr₁ => ⟨(h₁.commit t).logic, fun d₂ _ hr₂ => ?_⟩
    exact hr₂.mine.trans (hr₁.mine.trans hmine)
  have hend : ∀ {d : AutomationDb}, actionsOf t d = past →
      (automationLogic (F := F)).wp t (fun _ d' => actionsOf t d' = past) (endAppend fate) d := by
    intro d hmine
    unfold endAppend
    split
    · exact hcommitted hmine
    · exact hrolled hmine
    · exact hcommitted hmine
    · exact hrolled hmine
  unfold appendAutomationAuditLink
  split
  · exact hrolled hmine
  · refine wp_exec_bind fun d₁ h₁ hr₁ _ d₂ hlock _ => ?_
    obtain ⟨hkeeps₂, hsame₂⟩ := h₁.automationChainLock hlock
    refine ⟨hkeeps₂.logic, wp_exec_bind fun d₃ h₃ hr₃ r d₄ hinsert _ => ?_⟩
    have hbacked₃ : Backed row d₃ := by
      intro hexecuted
      obtain ⟨e, he, hrest⟩ := (hbacked.rely hr₁) hexecuted
      exact ⟨e, hr₃.grows.subset (hsame₂ ▸ he), hrest⟩
    obtain ⟨hkeeps₄, hsame₄⟩ := h₃.insertExecution hbacked₃ hinsert
    have hmine₄ : actionsOf t d₄ = past := by
      rw [actionsOf_eq hsame₄, hr₃.mine, actionsOf_eq hsame₂, hr₁.mine, hmine]
    refine ⟨hkeeps₄.logic, ?_⟩
    cases r with
    | some n => exact hend hmine₄
    | none => exact hrolled hmine₄

omit [Numerals F] in
theorem backed_of_failed (h : row.disposition = .failed) : Backed row d := by
  intro hexecuted
  rw [h] at hexecuted
  contradiction

theorem wp_recordUnexpectedFailure (hinv : AutomationInv d) (hmine : actionsOf t d = past) :
    (automationLogic (F := F)).wp t (fun _ d' => actionsOf t d' = past) (recordUnexpectedFailure call rule) d := by
  refine wp_bind (AutomationRely.refl t) hinv (wp_mono (fun _ d₁ h₁ hmine₁ => ?_)
    (wp_appendAutomationAuditLink hmine (backed_of_failed rfl)))
  exact fun d₂ _ hr₂ => hr₂.mine.trans hmine₁

theorem wp_recordExecution {disposition : ExecutionDisposition} {errorReason : Option String} (hinv : AutomationInv d)
    (hmine : actionsOf t d = past)
    (hbacked : Backed (executionRow call rule rule.actionType disposition errorReason) d) :
    (automationLogic (F := F)).wp t (fun _ d' => actionsOf t d' = past)
      (recordExecution call rule disposition errorReason) d := by
  refine wp_bind (AutomationRely.refl t) hinv (wp_mono (fun result d₁ h₁ hmine₁ => ?_)
    (wp_appendAutomationAuditLink hmine hbacked))
  split
  · exact wp_recordUnexpectedFailure h₁ hmine₁
  · exact fun d₂ _ hr₂ => hr₂.mine.trans hmine₁

theorem wp_executeRule (hinv : AutomationInv d) (hmine : actionsOf t d = past) (hnew : ∀ e ∈ past, e.ruleId ≠ rule.id)
    (hmatches : ruleMatches rule call.eventType call.sourceProduct call.payload = true) :
    (automationLogic (F := F)).wp t
      (fun _ d' => actionsOf t d' = past ++ if acts call rule then [action call t rule] else [])
      (executeRule call rule) d := by
  have hacts : acts call rule = (rule.actionType = redistributePolicy && hasDistributionId rule) := by
    rw [acts, hmatches, Bool.true_and]
  by_cases hredistribute : rule.actionType = redistributePolicy
  · by_cases hsome : hasDistributionId rule = true
    · rw [executeRule, if_pos hredistribute, if_pos hsome, hacts, decide_eq_true hredistribute, hsome, Bool.true_and,
        if_pos rfl]
      refine wp_exec_bind fun d₁ h₁ hr₁ returned d₂ hperform _ => ?_
      obtain ⟨hkeeps₂, hreturned, hmine₂, hmem⟩ := h₁.perform (fun e he => hnew e (by rwa [hr₁.mine, hmine] at he)) hperform
      rw [hr₁.mine, hmine] at hmine₂
      refine ⟨hkeeps₂.logic, ?_⟩
      cases returned with
      | true => exact wp_recordExecution hkeeps₂.1 hmine₂ fun _ => ⟨_, hmem, rfl, rfl, hreturned.symm⟩
      | false => exact wp_recordExecution hkeeps₂.1 hmine₂ (backed_of_failed rfl)
    · rw [executeRule, if_pos hredistribute, if_neg hsome, hacts, Bool.eq_false_iff.mpr hsome, Bool.and_false,
        if_neg Bool.false_ne_true, List.append_nil]
      exact wp_recordUnexpectedFailure hinv hmine
  · rw [executeRule, if_neg hredistribute, hacts, decide_eq_false hredistribute, Bool.false_and,
      if_neg Bool.false_ne_true, List.append_nil]
    exact wp_recordExecution hinv hmine (backed_of_failed rfl)

/-- **The loop**: each rule that matches has its turn, whatever became of the others. -/
theorem wp_executeRules (hinv : AutomationInv d) (hmine : actionsOf t d = past)
    (hdistinct : (rules.map AutomationRule.id).Nodup) (hnew : ∀ e ∈ past, e.ruleId ∉ rules.map AutomationRule.id) :
    (automationLogic (F := F)).wp t
      (fun _ d' => actionsOf t d' = past ++ (rules.filter (acts call)).map (action call t))
      (executeRules call rules) d := by
  induction rules generalizing d past with
  | nil =>
      refine fun d₁ _ hr₁ => ?_
      rw [List.filter_nil, List.map_nil, List.append_nil]
      exact hr₁.mine.trans hmine
  | cons rule rules ih =>
      obtain ⟨hhead, htail⟩ := List.nodup_cons.mp hdistinct
      have hrest : ∀ e ∈ past, e.ruleId ∉ rules.map AutomationRule.id := fun e he hmem =>
        hnew e he (List.mem_cons_of_mem _ hmem)
      unfold executeRules
      split
      case isFalse hno =>
        have hacts : ¬acts call rule = true := fun h => hno (Bool.and_eq_true_iff.mp h).1
        rw [List.filter_cons_of_neg hacts]
        exact ih hinv hmine htail hrest
      case isTrue hmatches =>
        refine wp_bind (AutomationRely.refl t) hinv (wp_mono (fun _ d₁ h₁ hmine₁ => ?_)
          (wp_executeRule hinv hmine (fun e he hsame => hnew e he (hsame ▸ List.mem_cons_self)) hmatches))
        refine wp_mono (fun _ d₂ _ hmine₂ => ?_) (ih h₁ hmine₁ htail fun e he => ?_)
        · rw [hmine₂, List.append_assoc, List.filter_cons]
          split <;> rfl
        · rcases List.mem_append.mp he with he | he
          · exact hrest e he
          · split at he
            · rw [List.mem_singleton.mp he]
              exact hhead
            · exact absurd he List.not_mem_nil

theorem wp_evaluateAndExecute (hinv : AutomationInv d) (hfresh : actionsOf t d = []) :
    (automationLogic (F := F)).wp t (fun _ d' => actionsOf t d' = call.acting.map (action call t))
      (evaluateAndExecute call) d := by
  by_cases henabled : call.enabled = true
  · rw [evaluateAndExecute, if_pos henabled, EvaluateCall.acting, if_pos henabled]
    cases hrules : call.rules with
    | ok rules =>
        have hdistinct : ((listEnabledAutomationRules call rules).map AutomationRule.id).Nodup :=
          (List.filter_sublist.map _).nodup rules.distinct
        have hloop : (automationLogic (F := F)).wp t
            (fun _ d' => actionsOf t d' = [] ++ ((listEnabledAutomationRules call rules).filter (acts call)).map (action call t))
            (executeRules call (listEnabledAutomationRules call rules)) d :=
          wp_executeRules hinv hfresh hdistinct fun e he => absurd he List.not_mem_nil
        simpa only [List.nil_append] using hloop
    | error e =>
        cases e with
        | connectivity => exact fun d₁ _ hr₁ => hr₁.mine.trans hfresh
        | other => trivial
  · rw [evaluateAndExecute, if_neg henabled, EvaluateCall.acting, if_neg henabled]
    exact fun d₁ _ hr₁ => hr₁.mine.trans hfresh

theorem automationLogic_sound : (automationLogic (F := F)).Sound (ε := SessionError) evaluateAndExecute where
  refl := AutomationRely.refl
  trans := AutomationRely.trans
  fresh_rely _ hr h := hr.mine.trans h
  ensures_rely _ hr h := hr.mine.trans h
  undone_rely _ _ h := h
  body _ hinv hfresh := wp_evaluateAndExecute hinv hfresh
  commit h hpost := ⟨(h.commit _).logic, hpost⟩
  rollback h := ⟨(h.rollback _).logic, trivial⟩

/-! ## what may be performed -/

/-- An action that a call may perform. -/
def MayPerform (t : Txn) (call : EvaluateCall F) (e : Performed) : Prop :=
  e.run = t ∧ e.eventId = call.eventId ∧ call.Selects e.ruleId

/-- The audit acts on nothing. -/
theorem does_appendAutomationAuditLink (fate : AppendFate) :
    (appendAutomationAuditLink row fate).Does AutomationDb.performed (MayPerform t call) t := by
  have hended : ∀ fate, (endAppend fate).Does AutomationDb.performed (MayPerform t call) t := by
    intro fate
    unfold endAppend
    split
    · exact (Prog.Does.commitWork fun _ => rfl).bind fun _ => .pure _
    · exact (Prog.Does.rollbackWork fun _ => rfl).bind fun _ => .pure _
    · exact (Prog.Does.commitWork fun _ => rfl).bind fun _ => .pure _
    · exact (Prog.Does.rollbackWork fun _ => rfl).bind fun _ => .pure _
  unfold appendAutomationAuditLink
  split
  · exact (Prog.Does.rollbackWork fun _ => rfl).bind fun _ => .pure _
  · refine (Prog.Does.exec_same fun d x d' hlock => ?_).bind fun _ =>
      (Prog.Does.exec_same fun d x d' hinsert => ?_).bind fun inserted => ?_
    · obtain ⟨p, -, he⟩ := Option.map_eq_some_iff.mp hlock
      cases he
      rfl
    · obtain ⟨p, -, he⟩ := Option.map_eq_some_iff.mp hinsert
      cases he
      rfl
    · cases inserted with
      | some n => exact hended _
      | none => exact (Prog.Does.rollbackWork fun _ => rfl).bind fun _ => .pure _

theorem does_recordUnexpectedFailure :
    (recordUnexpectedFailure call rule).Does AutomationDb.performed (MayPerform t call) t :=
  (does_appendAutomationAuditLink _).bind fun _ => .pure _

theorem does_recordExecution (disposition : ExecutionDisposition) (errorReason : Option String) :
    (recordExecution call rule disposition errorReason).Does AutomationDb.performed (MayPerform t call) t := by
  refine (does_appendAutomationAuditLink _).bind fun result => ?_
  split
  · exact does_recordUnexpectedFailure
  · exact .pure _

theorem does_executeRule (hselects : acts call rule = true → call.Selects rule.id)
    (hmatches : ruleMatches rule call.eventType call.sourceProduct call.payload = true) :
    (executeRule call rule).Does AutomationDb.performed (MayPerform t call) t := by
  unfold executeRule
  split
  case isTrue hredistribute =>
    split
    case isTrue hsome =>
      have hacts : acts call rule = true := by
        rw [acts, hmatches, decide_eq_true hredistribute, hsome]
        rfl
      refine (Prog.Does.exec fun d x d' hperform e he => ?_).bind fun returned => ?_
      · cases hperform
        rcases List.mem_append.mp he with he | he
        · exact .inl he
        · rw [List.mem_singleton.mp he]
          exact .inr ⟨rfl, rfl, hselects hacts⟩
      · cases returned with
        | true => exact does_recordExecution .executed none
        | false => exact does_recordExecution .failed _
    case isFalse => exact does_recordUnexpectedFailure
  case isFalse => exact does_recordExecution .failed _

theorem does_executeRules (hselects : ∀ rule ∈ rules, acts call rule = true → call.Selects rule.id) :
    (executeRules call rules).Does AutomationDb.performed (MayPerform t call) t := by
  induction rules with
  | nil => exact .pure _
  | cons rule rules ih =>
      have hrest := ih fun rule' hmem => hselects rule' (List.mem_cons_of_mem _ hmem)
      unfold executeRules
      split
      case isTrue hmatches =>
        exact (does_executeRule (hselects rule List.mem_cons_self) hmatches).bind fun _ => hrest
      case isFalse => exact hrest

theorem does_evaluateAndExecute (t : Txn) (call : EvaluateCall F) :
    (evaluateAndExecute call).Does AutomationDb.performed (MayPerform t call) t := by
  by_cases henabled : call.enabled = true
  · rw [evaluateAndExecute, if_pos henabled]
    cases hrules : call.rules with
    | ok rules =>
        refine does_executeRules fun rule hmem hacts => ⟨rule, ?_, rfl⟩
        rw [EvaluateCall.acting, if_pos henabled, hrules]
        exact List.mem_filter.mpr ⟨hmem, hacts⟩
    | error e =>
        cases e with
        | connectivity => exact .pure _
        | other => exact .raise _
  · rw [evaluateAndExecute, if_neg henabled]
    exact .pure _

/-! ## runs -/

theorem automationInv_empty : AutomationInv AutomationDb.empty where
  oneEach := LockedLog.oneEach_empty
  distinct := List.nodup_nil
  backed n row h := by
    rcases h with h | ⟨t, h⟩
    · contradiction
    · contradiction

theorem automation_ok {s : Sys AutomationDb SessionError (EvaluateCall F) Unit} {as : List (Action (EvaluateCall F))}
    (hrun : run evaluateAndExecute (Sys.start AutomationDb.empty) as = some s) : automationLogic.Ok s := by
  have hstart : automationLogic.Ok
      (Sys.start AutomationDb.empty : Sys AutomationDb SessionError (EvaluateCall F) Unit) :=
    ⟨automationInv_empty, fun _ => rfl⟩
  exact automationLogic_sound.run hstart (everyStep_of_admits (fun _ _ _ => trivial) fun _ _ _ => trivial) hrun

/-- How often an action was performed for an event. -/
def timesPerformed (ruleId eventId : String) (d : AutomationDb) : Nat :=
  (d.performed.filter fun e => e.ruleId = ruleId && e.eventId = eventId).length

/-- Of the calls for an event, one at most selects the rule. -/
def SelectedOnce (as : List (Action (EvaluateCall F))) : Prop :=
  ∀ t u call call' ruleId, .begin t call ∈ as → .begin u call' ∈ as → call.eventId = call'.eventId →
    call.Selects ruleId → call'.Selects ruleId → t = u

/-- **An action is performed once for an event, if one call for it selects the rule.**  In any
case an execution has one row, a row of a success tells of an action that returned, and who
is done has performed the actions of all the rules that match. -/
theorem automation_at_most_once {as : List (Action (EvaluateCall F))}
    {s : Sys AutomationDb SessionError (EvaluateCall F) Unit}
    (hrun : run evaluateAndExecute (Sys.start AutomationDb.empty) as = some s) (honce : SelectedOnce as) :
    (∀ ruleId eventId, timesPerformed ruleId eventId s.db ≤ 1) ∧
      (∀ n m row row', s.db.executions.table.committed n = some row → s.db.executions.table.committed m = some row' →
        row.key = row'.key → n = m) ∧
      (∀ n row, s.db.executions.table.committed n = some row → row.disposition = .executed →
        ∀ e ∈ s.db.performed, e.ruleId = row.ruleId → e.eventId = row.triggeringEventId → e.returned = true) ∧
      ∀ t call, s.procs t = .committed call () → actionsOf t s.db = call.acting.map (action call t) := by
  have hok := automation_ok hrun
  have hdone := done_of_run does_evaluateAndExecute (fun _ _ => rfl) (fun _ _ => rfl) rfl hrun
  have hsame : ∀ e ∈ s.db.performed, ∀ e' ∈ s.db.performed, e.ruleId = e'.ruleId → e.eventId = e'.eventId → e = e' := by
    intro e he e' he' hrule hevent
    obtain ⟨t, call, hbegin, hrunE, heventE, hselects⟩ := hdone e he
    obtain ⟨u, call', hbegin', hrunE', heventE', hselects'⟩ := hdone e' he'
    have htu : t = u := honce t u call call' e.ruleId hbegin hbegin' (by rw [← heventE, ← heventE', hevent]) hselects
      (hrule ▸ hselects')
    exact List.inj_on_of_nodup_map hok.inv.distinct he he' (Prod.ext (by rw [hrunE, hrunE', htu]) hrule)
  refine ⟨fun ruleId eventId => ?_, fun n m row row' hn hm hkey => hok.inv.oneEach.committed hn hm hkey,
    fun n row hrow hexecuted e he hrule hevent => ?_, fun t call hproc => ?_⟩
  · refine (length_of_subsingleton (hok.inv.distinct.of_map.filter _) fun e he e' he' => ?_).1
    obtain ⟨hmem, hkey⟩ := List.mem_filter.mp he
    obtain ⟨hmem', hkey'⟩ := List.mem_filter.mp he'
    simp only [Bool.and_eq_true, decide_eq_true_eq] at hkey hkey'
    exact hsame e hmem e' hmem' (hkey.1.trans hkey'.1.symm) (hkey.2.trans hkey'.2.symm)
  · obtain ⟨e', he', hrule', hevent', hreturned⟩ := hok.inv.backed n row (.inl hrow) hexecuted
    rw [hsame e he e' he' (hrule.trans hrule'.symm) (hevent.trans hevent'.symm)]
    exact hreturned
  · have hensures := hok.procs t
    rw [hproc] at hensures
    exact hensures

/-! ## two calls for one event -/

section Sample

def sampleRule : AutomationRule SampleFloat :=
  ⟨"rule-1", "tenant-1", true, "usage", none, .obj [], redistributePolicy, .obj []⟩

def sampleRules : RuleTable SampleFloat := ⟨[sampleRule], List.nodup_singleton _⟩

def sampleEvaluate : EvaluateCall SampleFloat :=
  ⟨"tenant-1", "event-1", "usage", "sentinel", .obj [], true, .ok sampleRules, fun _ => ⟨true, .completes, .completes⟩⟩

/-- The call, and it is served. -/
def onceSchedule (t : Txn) : List (Action (EvaluateCall SampleFloat)) :=
  [.begin t sampleEvaluate, .exec t, .exec t, .exec t, .exec t, .commit t]

/-- The event is delivered twice: the action is performed twice, though one execution is recorded. -/
theorem redelivery_performs_again :
    ((run evaluateAndExecute (Sys.start AutomationDb.empty : Sys AutomationDb SessionError (EvaluateCall SampleFloat) Unit)
      (onceSchedule 1 ++ onceSchedule 2)).map fun s =>
        (timesPerformed "rule-1" "event-1" s.db, s.db.executions.table.rows.length)) = some (2, 1) := by
  decide +kernel

theorem sampleEvaluate_once : SelectedOnce (onceSchedule 1) := by
  intro t u call call' ruleId hbegin hbegin' _ _ _
  have hone : ∀ t call, (.begin t call : Action (EvaluateCall SampleFloat)) ∈ onceSchedule 1 → t = 1 := by
    intro t call hmem
    rcases List.mem_cons.mp hmem with he | hmem
    · exact (Action.begin.inj he).1
    · simp at hmem
  exact (hone t call hbegin).trans (hone u call' hbegin').symm

/-- One call, and its action is performed. -/
theorem automation_at_most_once_sample : ∃ s : Sys AutomationDb SessionError (EvaluateCall SampleFloat) Unit,
    run evaluateAndExecute (Sys.start AutomationDb.empty) (onceSchedule 1) = some s ∧
      timesPerformed "rule-1" "event-1" s.db = 1 ∧ ∀ ruleId eventId, timesPerformed ruleId eventId s.db ≤ 1 := by
  have hsome : ((run evaluateAndExecute
      (Sys.start AutomationDb.empty : Sys AutomationDb SessionError (EvaluateCall SampleFloat) Unit)
      (onceSchedule 1)).map fun s => timesPerformed "rule-1" "event-1" s.db) = some 1 := by
    decide +kernel
  obtain ⟨s, hrun, htimes⟩ := Option.map_eq_some_iff.mp hsome
  exact ⟨s, hrun, htimes, (automation_at_most_once hrun sampleEvaluate_once).1⟩

end Sample

end Anoryx.Orchestrator
