import Anoryx.ReadCommitted.LockedTable
import Anoryx.Worklist

/-!
# Anoryx.Delta.TaskGraph

The task dependencies of Delta's project management (`pm/service.py`, `pm/store.py`):
the search `_would_create_cycle`, `create_dependency` as a transaction under the
tenant's advisory lock, and the graph that the committed edges make.

The graph of a tenant never has a cycle (`task_graph_acyclic`): the edges that a call
reads under the lock are still the edges when it inserts its own.

The tasks themselves stay as they are, for no statement deletes one.  The unique index
on edges is left out: an INSERT that it refuses is an abort, and that may come at any time.
-/

namespace Anoryx.Delta.Pm

open ReadCommitted LockedTable Worklist

/-! ## the search -/

/-- `adjacency.setdefault(blocking, []).append(blocked)` -/
def addEdge (adjacency : List (String × List String)) (edge : String × String) :
    List (String × List String) :=
  match adjacency with
  | [] => [(edge.1, [edge.2])]
  | (node, blocked) :: rest =>
      if node = edge.1 then (node, blocked ++ [edge.2]) :: rest else (node, blocked) :: addEdge rest edge

/-- `adjacency.get(node, ())` -/
def neighbors (adjacency : List (String × List String)) (node : String) : List String :=
  (adjacency.lookup node).getD []

/-- `_would_create_cycle`, with at most `fuel` rounds of its loop. -/
def cycleSearch (edges : List (String × String)) (newBlocking newBlocked : String) (fuel : Nat) :
    Option Bool :=
  let adjacency := edges.foldl addEdge []
  search (neighbors adjacency) newBlocking fuel [newBlocked] [newBlocked]

/-- `_would_create_cycle`; there are never more rounds than vertices, and the last one. -/
def wouldCreateCycle (edges : List (String × String)) (newBlocking newBlocked : String) : Bool :=
  (cycleSearch edges newBlocking newBlocked (edges.length + 2)).getD false

def HasEdge (edges : List (String × String)) (v w : String) : Prop := (v, w) ∈ edges

/-- With the new edge, a path leads from its head back to its tail. -/
def ClosesCycle (edges : List (String × String)) (newBlocking newBlocked : String) : Prop :=
  Relation.ReflTransGen (HasEdge (edges ++ [(newBlocking, newBlocked)])) newBlocked newBlocking

theorem neighbors_addEdge (adjacency : List (String × List String)) (edge : String × String)
    (node : String) : neighbors (addEdge adjacency edge) node =
      if node = edge.1 then neighbors adjacency node ++ [edge.2] else neighbors adjacency node := by
  induction adjacency with
  | nil =>
      by_cases h : node = edge.1
      · simp [addEdge, neighbors, h]
      · simp [addEdge, neighbors, List.lookup, beq_false_of_ne h, h]
  | cons entry rest ih =>
      obtain ⟨node', blocked⟩ := entry
      unfold neighbors at ih ⊢
      by_cases h' : node' = edge.1
      · by_cases h : node = edge.1
        · simp [addEdge, h', h]
        · simp [addEdge, h', h, List.lookup, beq_false_of_ne h]
      · by_cases h : node = node'
        · subst h
          simp [addEdge, h']
        · have hne : (node == node') = false := beq_false_of_ne h
          simp only [addEdge, h', if_false, List.lookup, hne, ih]

variable {edges : List (String × String)} {v w : String}

theorem mem_neighbors :
    w ∈ neighbors (edges.foldl addEdge []) v ↔ HasEdge edges v w := by
  suffices hgeneral : ∀ adjacency, w ∈ neighbors (edges.foldl addEdge adjacency) v ↔
      w ∈ neighbors adjacency v ∨ (v, w) ∈ edges by
    rw [hgeneral]
    simp [neighbors, HasEdge]
  induction edges with
  | nil => simp
  | cons edge edges ih =>
      intro adjacency
      rw [List.foldl_cons, ih, neighbors_addEdge, List.mem_cons, Prod.mk.injEq]
      grind

theorem reaches_iff :
    Reaches (neighbors (edges.foldl addEdge [])) v w ↔ Relation.ReflTransGen (HasEdge edges) v w := by
  have hrel : Adjacent (neighbors (edges.foldl addEdge [])) = HasEdge edges :=
    funext fun _ => funext fun _ => propext mem_neighbors
  rw [Reaches, hrel]

theorem withEdge_iff (edges : List (String × String)) (a b : String) :
    HasEdge (edges ++ [(a, b)]) = WithEdge (HasEdge edges) a b := by
  funext v w
  simp [HasEdge, WithEdge]

variable {newBlocking newBlocked : String}

variable {fuel limit : Nat} {t : Txn} {req : DependencyCreate}

/-- **The search ends**, and finds whether the tail of the new edge is reached from its head. -/
theorem cycleSearch_eq (hfuel : edges.length + 2 ≤ fuel) :
    ∃ b, cycleSearch edges newBlocking newBlocked fuel = some b ∧
      (b = true ↔ Relation.ReflTransGen (HasEdge edges) newBlocked newBlocking) := by
  have hvertices : ∀ v, Reaches (neighbors (edges.foldl addEdge [])) newBlocked v →
      v ∈ newBlocked :: edges.map Prod.snd := by
    intro v hv
    rcases (Relation.ReflTransGen.cases_tail hv) with rfl | ⟨u, -, hstep⟩
    · exact List.mem_cons_self
    · exact List.mem_cons_of_mem _ (List.mem_map.mpr ⟨(u, v), mem_neighbors.mp hstep, rfl⟩)
  have hlength : (newBlocked :: edges.map Prod.snd).length < fuel := by
    rw [List.length_cons, List.length_map]
    omega
  obtain ⟨b, hb, hreach⟩ : ∃ b, cycleSearch edges newBlocking newBlocked fuel = some b ∧
      (b = true ↔ Reaches (neighbors (edges.foldl addEdge [])) newBlocked newBlocking) :=
    search_correct hvertices hlength
  exact ⟨b, hb, hreach.trans reaches_iff⟩

theorem wouldCreateCycle_iff :
    wouldCreateCycle edges newBlocking newBlocked = true ↔
      Relation.ReflTransGen (HasEdge edges) newBlocked newBlocking := by
  obtain ⟨b, hb, hreach⟩ := @cycleSearch_eq edges newBlocking newBlocked _ (Nat.le_refl _)
  rw [wouldCreateCycle, hb, Option.getD_some, hreach]

theorem cycleSearch_fuel (hfuel : edges.length + 2 ≤ fuel) :
    cycleSearch edges newBlocking newBlocked fuel = some (wouldCreateCycle edges newBlocking newBlocked) := by
  obtain ⟨b, hb, hreach⟩ := @cycleSearch_eq edges newBlocking newBlocked fuel hfuel
  rw [hb, Option.some.injEq, Bool.eq_iff_iff, hreach, wouldCreateCycle_iff]

theorem wouldCreateCycle_iff_closes :
    wouldCreateCycle edges newBlocking newBlocked = true ↔ ClosesCycle edges newBlocking newBlocked := by
  rw [wouldCreateCycle_iff, ClosesCycle, withEdge_iff, reaches_withEdge]

theorem wouldCreateCycle_iff_not_acyclic
    (h : Acyclic (HasEdge edges)) :
    wouldCreateCycle edges newBlocking newBlocked = true ↔
      ¬ Acyclic (HasEdge (edges ++ [(newBlocking, newBlocked)])) := by
  rw [withEdge_iff, acyclic_withEdge h, not_not, wouldCreateCycle_iff]

/-! ## the tables -/

/-- A row of `tasks`, as far as it is read here. -/
structure TaskRow where
  taskId : String
  tenantId : String

/-- A row of `task_dependencies`, under its `dependency_id`. -/
structure DependencyRow where
  tenantId : String
  blockingTaskId : String
  blockedTaskId : String
  createdAt : Nat
deriving DecidableEq

/-- The dependencies, and the advisory locks. -/
abbrev DependencyDb := LockedTable String DependencyRow Int

/-- What row level security leaves of the table. -/
def ofTenant (tenantId : String) (row : DependencyRow) : Bool := row.tenantId = tenantId

def maxDependencyEdgesConsidered : Nat := 2000

/-- `get_task`, in a session of the tenant. -/
def getTask (tasks : List TaskRow) (tenantId taskId : String) : Option TaskRow :=
  tasks.find? fun row => row.taskId = taskId ∧ row.tenantId = tenantId

/-- `ORDER BY created_at, dependency_id` -/
def createdBefore (p q : String × DependencyRow) : Prop :=
  p.2.createdAt < q.2.createdAt ∨ (p.2.createdAt = q.2.createdAt ∧ p.1 ≤ q.1)

instance : DecidableRel createdBefore := fun p q =>
  inferInstanceAs (Decidable (p.2.createdAt < q.2.createdAt ∨ (p.2.createdAt = q.2.createdAt ∧ p.1 ≤ q.1)))

/-- `list_all_dependency_edges`: one row more than the limit, so that a cut shows. -/
def listAllDependencyEdges (tenantId : String) (limit : Nat) (t : Txn) (d : DependencyDb) :
    List (String × String) :=
  let fetchLimit := max 1 limit + 1
  let rows := (d.table.rowsOf (d.table.visible t) (ofTenant tenantId)).insertionSort createdBefore
  (rows.take fetchLimit).map fun p => (p.2.blockingTaskId, p.2.blockedTaskId)

/-! ## adding an edge -/

/-- A `TaskDependencyCreateRequest`, with the id and the moment that the call takes. -/
structure DependencyCreate where
  tenantId : String
  blockingTaskId : String
  blockedTaskId : String
  dependencyId : String
  now : Nat

inductive DependencyError
  | selfDependency (taskId : String)
  | taskNotFound (taskId : String)
  | tooManyDependencyEdges
  | dependencyCycle (detail : String)
  | uniqueViolation
deriving DecidableEq

def DependencyCreate.row (req : DependencyCreate) : DependencyRow where
  tenantId := req.tenantId
  blockingTaskId := req.blockingTaskId
  blockedTaskId := req.blockedTaskId
  createdAt := req.now

/-- The INSERT of `store.create_dependency`. -/
def insertDependency (req : DependencyCreate) (t : Txn) (d : DependencyDb) :
    Option (Except DependencyError Unit × DependencyDb) :=
  (insert req.dependencyId req.row t d).map fun p =>
    (if p.1 then .ok () else .error .uniqueViolation, p.2)

section Create

variable (hashtext : String → Int) (tasks : List TaskRow)

def createDependency (req : DependencyCreate) : Prog DependencyDb DependencyError (String × DependencyRow) :=
  if req.blockingTaskId = req.blockedTaskId then
    Prog.raise (.selfDependency req.blockingTaskId)
  else do
    let blocking ← Prog.query fun _ _ => getTask tasks req.tenantId req.blockingTaskId
    if blocking.isNone then Prog.raise (.taskNotFound req.blockingTaskId) else
    let blocked ← Prog.query fun _ _ => getTask tasks req.tenantId req.blockedTaskId
    if blocked.isNone then Prog.raise (.taskNotFound req.blockedTaskId) else
    Prog.exec (advisoryXactLock (hashtext req.tenantId))
    let edges ← Prog.query (listAllDependencyEdges req.tenantId maxDependencyEdgesConsidered)
    if edges.length > maxDependencyEdgesConsidered then Prog.raise .tooManyDependencyEdges else
    if wouldCreateCycle edges req.blockingTaskId req.blockedTaskId then
      Prog.raise (.dependencyCycle s!"{req.blockingTaskId} -> {req.blockedTaskId} would create a cycle")
    else
    Prog.checked (insertDependency req)
    pure (req.dependencyId, req.row)

end Create

/-! ## the graph -/

def RowEdge (rows : Multiset (String × DependencyRow)) (v w : String) : Prop :=
  ∃ p ∈ rows, p.2.blockingTaskId = v ∧ p.2.blockedTaskId = w

/-- Nothing in the graph of a tenant blocks itself. -/
def AcyclicRows (_ : String) (rows : Multiset (String × DependencyRow)) : Prop := Acyclic (RowEdge rows)

/-- The dependencies of a tenant that a session finds. -/
def Blocks (tenantId : String) (t : Txn) (d : DependencyDb) (v w : String) : Prop :=
  ∃ dependencyId row, d.table.visible t dependencyId = some row ∧ row.tenantId = tenantId ∧
    row.blockingTaskId = v ∧ row.blockedTaskId = w

variable {tenantId : String}

theorem ofTenant_iff {row : DependencyRow} :
    ofTenant tenantId row = true ↔ row.tenantId = tenantId := decide_eq_true_iff

variable {d : DependencyDb}

theorem rowEdge_iff :
    RowEdge (d.table.rowsOf (d.table.visible t) (ofTenant tenantId) : Multiset _) v w ↔
      Blocks tenantId t d v w := by
  constructor
  · rintro ⟨⟨dependencyId, row⟩, hmem, hv, hw⟩
    obtain ⟨hvisible, htenant⟩ := (Table.mem_rowsOf (d.table.reads_visible t)).mp (Multiset.mem_coe.mp hmem)
    exact ⟨dependencyId, row, hvisible, ofTenant_iff.mp htenant, hv, hw⟩
  · rintro ⟨dependencyId, row, hvisible, htenant, hv, hw⟩
    exact ⟨(dependencyId, row), Multiset.mem_coe.mpr ((Table.mem_rowsOf (d.table.reads_visible t)).mpr
      ⟨hvisible, ofTenant_iff.mpr htenant⟩), hv, hw⟩

theorem hasEdge_iff (h : (listAllDependencyEdges tenantId limit t d).length ≤ limit) :
    HasEdge (listAllDependencyEdges tenantId limit t d) v w ↔
      RowEdge (d.table.rowsOf (d.table.visible t) (ofTenant tenantId) : Multiset _) v w := by
  let rows := (d.table.rowsOf (d.table.visible t) (ofTenant tenantId)).insertionSort createdBefore
  have hcut : rows.take (max 1 limit + 1) = rows := by
    refine List.take_of_length_le ?_
    have hlen : (rows.take (max 1 limit + 1)).length ≤ limit := by
      rw [listAllDependencyEdges, List.length_map] at h
      exact h
    rw [List.length_take] at hlen
    omega
  have hedges : listAllDependencyEdges tenantId limit t d =
      rows.map fun p => (p.2.blockingTaskId, p.2.blockedTaskId) := by
    show (rows.take (max 1 limit + 1)).map _ = _
    rw [hcut]
  rw [hedges, HasEdge, List.mem_map, RowEdge]
  refine exists_congr fun p => and_congr ?_ (Prod.mk.injEq .. ▸ Iff.rfl)
  rw [List.mem_insertionSort, Multiset.mem_coe]

/-! ## every schedule -/

section Schedule

variable {hashtext : String → Int} {tasks : List TaskRow}

/-- Acyclic graphs, each under the lock of its tenant's hash. -/
abbrev AcyclicDb (hashtext : String → Int) : DependencyDb → Prop :=
  Guarded AcyclicRows ofTenant hashtext

abbrev dependencyLogic (hashtext : String → Int) :
    Logic DependencyDb DependencyCreate (String × DependencyRow) :=
  logic AcyclicRows ofTenant hashtext fun _ => True

theorem acyclicRows_cons {rows : Multiset (String × DependencyRow)} {edges : List (String × String)}
    (hacyclic : AcyclicRows req.tenantId rows) (hedges : ∀ v w, HasEdge edges v w ↔ RowEdge rows v w)
    (hcheck : wouldCreateCycle edges req.blockingTaskId req.blockedTaskId = false) :
    AcyclicRows req.tenantId ((req.dependencyId, req.row) ::ₘ rows) := by
  have hrel : RowEdge rows = HasEdge edges :=
    funext fun v => funext fun w => propext (hedges v w).symm
  have hunreached : ¬ Relation.ReflTransGen (HasEdge edges) req.blockedTaskId req.blockingTaskId := by
    rw [← wouldCreateCycle_iff, hcheck]
    exact Bool.false_ne_true
  refine Acyclic.mono ((acyclic_withEdge (hrel ▸ hacyclic)).mpr hunreached) ?_
  rintro v w ⟨p, hp, hv, hw⟩
  rcases Multiset.mem_cons.mp hp with rfl | hp
  · exact .inr ⟨hv.symm, hw.symm⟩
  · exact .inl (hrel ▸ ⟨p, hp, hv, hw⟩)

/-- Under the tenant's lock the check still holds at the insert. -/
theorem wp_createDependency {d : DependencyDb} :
    (dependencyLogic hashtext).wp t (fun _ _ => True) (createDependency hashtext tasks req) d := by
  unfold createDependency
  split
  · trivial
  refine Logic.wp_query_bind Relies.refl fun _ _ _ => ?_
  split
  · trivial
  refine Logic.wp_query_bind Relies.refl fun _ _ _ => ?_
  split
  · trivial
  refine Logic.wp_exec_bind fun d₁ h₁ _ _ d₂ hlock _ => ?_
  obtain ⟨h₂, hrely₂, -, hheld⟩ := Guarded.advisoryXactLock h₁ hlock
  refine ⟨⟨h₂, fun u _ => hrely₂ u⟩, Logic.wp_query_bind Relies.refl fun d₃ h₃ hr₃ => ?_⟩
  split
  · trivial
  next hmany =>
  split
  · trivial
  next hcycle =>
  refine Logic.wp_checked_bind fun d₄ h₄ hr₄ r d₅ hinsert _ => ?_
  obtain ⟨⟨b, d'⟩, hins, he⟩ := Option.map_eq_some_iff.mp hinsert
  obtain ⟨-, rfl⟩ := Prod.mk.inj he
  suffices hkeeps : (dependencyLogic hashtext).Keeps t d₄ d' from ⟨hkeeps, fun _ _ _ _ _ => trivial⟩
  rcases insert_cases hins with ⟨-, rfl, -⟩ | ⟨-, rfl, hin, hc⟩
  · exact ⟨h₄, fun u _ => Relies.refl u _⟩
  -- from here on the transaction has the lock, so the edges it has read are the edges
  have hlock₃ : d₃.locks (hashtext req.tenantId) = some t := hr₃.locks _ hheld
  have hlock₄ : d₄.locks (hashtext req.tenantId) = some t := hr₄.locks _ hlock₃
  have hrows := Multiset.coe_eq_coe.mpr (hr₄.rowsOf_perm hlock₃)
  have hacyclic : ∀ tenantId, ofTenant tenantId req.row = true → AcyclicRows tenantId
      ((req.dependencyId, req.row) ::ₘ (d₄.table.rowsOf (d₄.table.visible t) (ofTenant tenantId) : Multiset _)) := by
    intro tenantId ht
    obtain rfl : req.tenantId = tenantId := ofTenant_iff.mp ht
    exact acyclicRows_cons (h₄.visible t req.tenantId)
      (fun v w => hrows ▸ hasEdge_iff (Nat.le_of_not_lt hmany)) (Bool.eq_false_iff.mpr hcycle)
  obtain ⟨hsound, hrely⟩ := h₄.write hin hc (fun tenantId ht => by rwa [← ofTenant_iff.mp ht]) hacyclic
  exact ⟨hsound, hrely⟩

theorem dependencyLogic_sound : (dependencyLogic hashtext).Sound (createDependency hashtext tasks) :=
  logic_sound fun _ _ _ _ _ => wp_createDependency

end Schedule

/-- A database between transactions, without cycles. -/
structure Settled (d : DependencyDb) : Prop where
  quiet : d.table.Quiet
  acyclic : ∀ t tenantId, Acyclic (Blocks tenantId t d)

theorem acyclicRows_visible :
    AcyclicRows tenantId (d.table.rowsOf (d.table.visible t) (ofTenant tenantId) : Multiset _) ↔
      Acyclic (Blocks tenantId t d) := by
  rw [AcyclicRows, show RowEdge _ = Blocks tenantId t d from
    funext fun v => funext fun w => propext rowEdge_iff]

theorem Settled.acyclicDb (h : Settled d) (hashtext : String → Int) :
    AcyclicDb hashtext d := by
  refine guarded_of_quiet h.quiet fun tenantId => ?_
  rw [show d.table.committed = d.table.visible 0 from
    (funext fun k => Table.visible_of_inflight_none (h.quiet k)).symm]
  exact acyclicRows_visible.mpr (h.acyclic 0 tenantId)

theorem settled_empty : Settled empty :=
  ⟨fun _ => rfl, fun _ _ v hv => by
    obtain ⟨w, ⟨_, _, hrow, -⟩, -⟩ := Relation.TransGen.head'_iff.mp hv
    exact absurd hrow.symm (Option.some_ne_none _)⟩

/-- **The task graph has no cycle**, whatever the order in which dependencies are added; and
the search ends on every graph, with the answer whether the new edge closes a cycle. -/
theorem task_graph_acyclic (hashtext : String → Int) (tasks : List TaskRow) (d : DependencyDb)
    (hd : Settled d) :
    (∀ (schedule : List (Action DependencyCreate))
        (s : Sys DependencyDb DependencyError DependencyCreate (String × DependencyRow)),
      run (createDependency hashtext tasks) (Sys.start d) schedule = some s →
      ∀ t tenantId, Acyclic (Blocks tenantId t s.db)) ∧
    ∀ (edges : List (String × String)) (newBlocking newBlocked : String),
      (∀ fuel, edges.length + 2 ≤ fuel →
        cycleSearch edges newBlocking newBlocked fuel =
          some (wouldCreateCycle edges newBlocking newBlocked)) ∧
      (wouldCreateCycle edges newBlocking newBlocked = true ↔ ClosesCycle edges newBlocking newBlocked) ∧
      (Acyclic (HasEdge edges) →
        (wouldCreateCycle edges newBlocking newBlocked = true ↔
          ¬ Acyclic (HasEdge (edges ++ [(newBlocking, newBlocked)])))) := by
  refine ⟨fun schedule s hrun t tenantId => ?_, fun edges newBlocking newBlocked =>
    ⟨fun fuel hfuel => cycleSearch_fuel hfuel, wouldCreateCycle_iff_closes,
      wouldCreateCycle_iff_not_acyclic⟩⟩
  have hguarded := guarded_of_run dependencyLogic_sound (hd.acyclicDb hashtext)
    (fun _ _ _ => trivial) hrun
  exact acyclicRows_visible.mp (hguarded.visible t tenantId)

section Sample

def sampleTasks : List TaskRow := [⟨"a", "tenant"⟩, ⟨"b", "tenant"⟩, ⟨"c", "tenant"⟩]

def sampleSchedule : List (Action DependencyCreate) :=
  [.begin 1 ⟨"tenant", "a", "b", "d-1", 10⟩, .begin 2 ⟨"tenant", "b", "a", "d-2", 11⟩, .exec 1, .exec 2,
    .exec 1, .exec 2, .exec 1, .exec 1, .exec 1, .commit 1, .exec 2, .exec 2, .abort 2]

theorem task_graph_acyclic_sample : ∃ s,
    run (createDependency (fun _ => 0) sampleTasks) (Sys.start empty) sampleSchedule = some s ∧
      Blocks "tenant" 3 s.db "a" "b" ∧ Acyclic (Blocks "tenant" 3 s.db) := by
  have hedge : ((run (createDependency (fun _ => 0) sampleTasks) (Sys.start empty)
      sampleSchedule).map fun s => s.db.table.visible 3 "d-1") =
      some (some ⟨"tenant", "a", "b", 10⟩) := by
    decide +kernel
  obtain ⟨s, hrun, hvisible⟩ := Option.map_eq_some_iff.mp hedge
  exact ⟨s, hrun, ⟨"d-1", _, hvisible, rfl, rfl, rfl⟩,
    (task_graph_acyclic (fun _ => 0) sampleTasks empty settled_empty).1 sampleSchedule s hrun 3 "tenant"⟩

end Sample

end Anoryx.Delta.Pm
